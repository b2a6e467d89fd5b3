import Kcn.Calls
import Kcn.Scan

namespace Kcn

open Program KcnBuf

/-!
# The locks of the tables

The tables of all equation types, each with its own lock, used by any number of
threads.  A search that succeeds returns with the lock held for reading; every
other exit of every call releases it.
-/

/-- `TYPE2INDEX`, with the bounds of the arrays it indexes. -/
def type2index (type : Nat) : Option (Fin (kcnEqTypeMax - 1)) :=
  if inside : 0 < type ∧ type - 1 < kcnEqTypeMax - 1 then
    some ⟨type - 1, inside.2⟩
  else
    none

/-- The tables of the daemon. -/
abbrev Database : Type :=
  Fin (kcnEqTypeMax - 1) → Table

/-- A complete call on the table of a type. -/
structure DbDone extends Done where
  type : Nat

/-- The type that a search names in its equation is that of its table. -/
def Call.Names (type : Nat) : Call → Prop
  | .search ke _ => ke.keType = type
  | .tableOpen _ _ | .recordAdd _ => True

instance (type : Nat) (call : Call) : Decidable (call.Names type) := by
  cases call <;> unfold Call.Names <;> infer_instance

namespace Database

/-- A complete call changes the table of its type. -/
def Step (db : Database) (done : DbDone) (db' : Database) : Prop :=
  ∃ index s', type2index done.type = some index ∧
    done.call.Names done.type ∧ (db index).Step done.toDone s' ∧
    db' = Function.update db index s'

/-- Perform a request on the table of a type. -/
def perform (db : Database) (request : Nat × Request) :
    Option (DbDone × Database) :=
  match type2index request.1 with
  | some index =>
      if request.2.call.Names request.1 then
        match (db index).perform request.2 with
        | some (done, s') =>
            some
              ({ done with type := request.1 },
                Function.update db index s')
        | none => none
      else
        none
  | none => none

theorem step_perform
    (db : Database) (request : Nat × Request) (done : DbDone)
    (db' : Database)
    (performed : db.perform request = some (done, db')) :
    db.Step done db' ∧ done.type = request.1 ∧
      done.toRequest = request.2 := by
  unfold perform at performed
  split at performed
  · rename_i index found
    split at performed
    · rename_i names
      split at performed
      · rename_i inner s' ran
        obtain ⟨rfl, rfl⟩ := Prod.mk.inj (Option.some.inj performed)
        obtain ⟨step, same⟩ := Table.step_perform _ _ _ _ ran
        rw [← same] at names
        exact ⟨⟨index, s', found, names, step, rfl⟩, rfl, same⟩
      · cases performed
    · cases performed
  · cases performed

/-- No thread has opened a table yet, and every lock is free. -/
structure Closed (db : Database) : Prop where
  unopened : ∀ index tid, (db index).handles tid = none
  free : ∀ index, (db index).base.kdbLock.Free

/-- A lock is free and the buffers have their sizes, in all tables. -/
structure Settled (db : Database) : Prop where
  sized : ∀ index, (db index).Sized
  free : ∀ index, (db index).base.kdbLock.Free

theorem Closed.settled {db : Database} (closed : db.Closed) :
    db.Settled := by
  refine ⟨?_, closed.free⟩
  intro index tid kdt handle
  rw [closed.unopened] at handle
  cases handle

end Database

/-! ### One call -/

namespace RwLock

/-- A lock that is free is free again once a writer released it. -/
theorem free_release_writer
    {lock : RwLock} (free : lock.Free) (tid : Nat) :
    ({ lock with writer := some tid } : RwLock).release tid |>.Free := by
  unfold release
  rw [if_pos rfl]
  exact ⟨rfl, free.2⟩

/-- A lock that is free is free again once a reader released it. -/
theorem free_release_reader
    {lock : RwLock} (free : lock.Free) (tid : Nat) :
    ({ lock with readers := tid :: lock.readers } : RwLock).release tid
      |>.Free := by
  obtain ⟨writer, readers⟩ := free
  unfold release
  rw [writer, readers]
  simp [Free]

/-- Nobody holds a lock that is free. -/
theorem Free.not_heldBy
    {lock : RwLock} (free : lock.Free) (tid : Nat) :
    ¬ lock.HeldBy tid := by
  obtain ⟨writer, readers⟩ := free
  unfold HeldBy
  rw [writer, readers]
  simp

end RwLock

/--
A search does not succeed: it meets an error or a refusal, no record fits the
equation or none is wanted, or the locator of a record it wants cannot be
looked up.
-/
def SearchMisses
    (s : Table) (ke : KcnEq) (maxnlocs : Nat) (trace : Trace) : Prop :=
  ¬ Trace.Clean trace ∨ ¬ Trace.Willing trace ∨
    (hits ke s.table).take maxnlocs = [] ∨
    ∃ kdr ∈ (hits ke s.table).take maxnlocs,
      ¬ Resolves s.base.kdbLocsize s.loc kdr.kdrLocidx

namespace KcndbDb

open TableCtx

variable {ctx : TableCtx}

/-- `kcndb_db_table_open` leaves the lock free. -/
theorem tableOpen_frees (free : ctx.base.kdbLock.Free) :
    wp tableOpen (fun _ ctx' => ctx'.base.kdbLock.Free)
      (fun _ => True) ctx := by
  refine wp_tableOpen trivial (fun _ => trivial)
    (fun _ _ _ _ => free) ?_
  intro taken env' _ _
  refine wp_imp (keeps_held_init _) ?_
  intro rc ctx' same
  simp only [held, sizes, Prod.mk.injEq] at same
  obtain ⟨lockEq, tidEq, _⟩ := same
  simp only [unlocked, lockEq, tidEq]
  exact RwLock.free_release_writer free ctx.tid

/-- `kcndb_db_record_add` leaves the lock free. -/
theorem recordAdd_frees
    (free : ctx.base.kdbLock.Free) (kdr : KcndbDbRecord) :
    wp (recordAdd kdr) (fun _ ctx' => ctx'.base.kdbLock.Free)
      (fun _ => True) ctx := by
  refine wp_recordAdd trivial (fun _ => trivial)
    (fun _ _ _ => free) ?_
  intro env' _ _
  refine wp_imp (keeps_held_recordAddLocked kdr _) ?_
  intro result ctx' same
  simp only [held, sizes, Prod.mk.injEq] at same
  obtain ⟨lockEq, tidEq, _⟩ := same
  simp only [unlocked, lockEq, tidEq]
  exact RwLock.free_release_writer free ctx.tid

/--
`kcndb_db_search` leaves the lock free where it fails; where it succeeds, it
met no obstacle and delivered something.
-/
theorem search_frees
    {s : Table} {tid : Nat} {kdt : KcndbDbTable} {env : Env}
    (free : s.base.kdbLock.Free)
    (locSize : kdt.kdtLoc.kb.size = kcndbFileBufsiz)
    (tableSize : kdt.kdtTable.kb.size = kcndbFileBufsiz)
    (ke : KcnEq) (maxnlocs : Nat) :
    wp (search ke maxnlocs)
      (fun _ ctx' =>
        ctx'.env.trace = [] → SearchMisses s ke maxnlocs env.trace →
          ctx'.base.kdbLock.Free)
      (fun _ => True) (s.view tid kdt env) := by
  refine wp_search trivial (fun _ => trivial)
    (fun _ _ _ _ _ => free) ?_
  intro env' shape _
  have searched :
      wp (searchLocked ke maxnlocs)
        (fun ok ctx' =>
          ((s.view tid kdt env).readLocked env').Searched ke maxnlocs
            ok ctx')
        (fun _ => True) ((s.view tid kdt env).readLocked env') :=
    wp_searchLocked trivial (fun _ _ _ => trivial) (fun _ => trivial)
      locSize tableSize fun _ _ outcome => outcome
  refine wp_imp
    ((keeps_held_searchLocked ke maxnlocs).wp searched) ?_
  rintro ok ctx' ⟨outcome, same⟩
  cases ok with
  | false =>
      intro _ _
      simp only [held, sizes, Prod.mk.injEq] at same
      obtain ⟨lockEq, tidEq, _⟩ := same
      simp only [unlocked, lockEq, tidEq]
      exact RwLock.free_release_reader free tid
  | true =>
      intro done misses
      cases outcome with
      | delivered _ taken shown rest passes pairs some _ _ =>
          have traceEq : env.trace = .lock none :: taken := by
            have later := passes.trace_eq
            rw [done, List.append_nil] at later
            exact shape.trans (congrArg (.lock none :: ·) later)
          exfalso
          rcases misses with unclean | unwilling | none |
              ⟨kdr, member, unresolved⟩
          · refine unclean ?_
            rw [traceEq]
            intro event inside
            rcases List.mem_cons.mp inside with rfl | later
            · simp [Event.Fails]
            · exact passes.clean event later
          · refine unwilling ?_
            rw [traceEq]
            intro event inside refused
            subst refused
            rcases List.mem_cons.mp inside with first | later
            · cases first
            · exact passes.willing _ later rfl
          · exact some none
          · have all :=
              (List.forall₂_and_left _ _).mp
                (pairs.imp fun _ _ one => ⟨one.resolves, one⟩)
            exact unresolved (all.1 kdr member)

/-- A free lock is granted to a writer. -/
theorem wrlock_granted
    (free : ctx.base.kdbLock.Free) {rest : Trace}
    (answer : ctx.env.trace = .lock none :: rest) :
    ∃ ctx', wrlock ctx = .ok (true, ctx') := by
  refine ⟨ctx.writeLocked { ctx.env with trace := rest }, ?_⟩
  unfold wrlock
  have asked :
      TableCtx.sys Env.next ctx =
        .ok (.lock none,
          { ctx with env := { ctx.env with trace := rest } }) := by
    unfold TableCtx.sys zoom Env.next envLens
    simp only [answer]
  rw [bind_of_ok asked]
  simp only [bind, gets, free, ↓reduceIte]
  rfl

end KcndbDb

/-! ### Runs -/

namespace Table

variable {s s' : Table} {done : Done}

/-- A call that is not a search with success leaves the lock free. -/
theorem Step.frees
    (step : s.Step done s') (sized : s.Sized)
    (free : s.base.kdbLock.Free)
    (misses : ∀ ke maxnlocs, done.call = .search ke maxnlocs →
      SearchMisses s ke maxnlocs done.trace) :
    s'.base.kdbLock.Free := by
  cases call : done.call with
  | tableOpen loc table =>
      obtain ⟨ctx, ran, _, rfl⟩ := step.tableOpen call
      have freed := wp_ok (KcndbDb.tableOpen_frees free) ran
      exact freed
  | recordAdd kdr =>
      obtain ⟨kdt, kdr', ctx, handle, ran, _, _, rfl⟩ :=
        step.recordAdd call
      have freed := wp_ok (KcndbDb.recordAdd_frees free kdr) ran
      exact freed
  | search ke maxnlocs =>
      obtain ⟨kdt, ctx, handle, ran, _, envEq, rfl⟩ := step.search call
      obtain ⟨locSize, tableSize⟩ := sized _ _ handle
      have freed :=
        wp_ok
          (KcndbDb.search_frees free locSize tableSize ke maxnlocs) ran
      exact freed (congrArg Env.trace envEq) (misses ke maxnlocs call)

end Table

namespace Database

variable {db db' : Database} {dones : List DbDone}

/-- The searches of a run do not succeed. -/
def Misses (db : Database) (done : DbDone) : Prop :=
  ∀ index ke maxnlocs, type2index done.type = some index →
    done.call = .search ke maxnlocs →
      SearchMisses (db index) ke maxnlocs done.trace

/-- One call keeps the tables settled unless it is a search with success. -/
theorem Settled.step
    (settled : db.Settled) {done : DbDone} (step : db.Step done db')
    (misses : db.Misses done) :
    db'.Settled := by
  obtain ⟨index, s', found, _, inner, rfl⟩ := step
  have free :=
    inner.frees (settled.sized index) (settled.free index)
      fun ke maxnlocs => misses index ke maxnlocs found
  have sized := inner.sized (settled.sized index)
  constructor
  · intro other
    by_cases same : other = index
    · rw [same, Function.update_self]
      exact sized
    · rw [Function.update_of_ne same]
      exact settled.sized other
  · intro other
    by_cases same : other = index
    · rw [same, Function.update_self]
      exact free
    · rw [Function.update_of_ne same]
      exact settled.free other

/-- The tables stay settled along a run. -/
theorem settled_run
    (closed : db.Closed)
    (run : Run (Guarded Step Misses) db dones db') :
    db'.Settled := by
  induction run with
  | nil =>
      exact closed.settled
  | snoc _ last inductionHypothesis =>
      exact inductionHypothesis.step last.1 last.2

/--
Lock release: after every run whose searches do not succeed, no thread holds a
lock, and a later writer is granted every lock it asks for.
-/
theorem locks_released
    (closed : db.Closed)
    (run : Run (Guarded Step Misses) db dones db') :
    (∀ index tid, ¬ (db' index).base.kdbLock.HeldBy tid) ∧
      ∀ index tid kdt errno rest, ∃ ctx,
        KcndbDb.wrlock
            ((db' index).view tid kdt
              { errno := errno, trace := .lock none :: rest }) =
          .ok (true, ctx) := by
  have settled := settled_run closed run
  refine ⟨?_, ?_⟩
  · intro index tid
    exact (settled.free index).not_heldBy tid
  · intro index tid kdt errno rest
    exact KcndbDb.wrlock_granted (settled.free index) rfl

/-- The tables of a daemon whose files do not exist yet. -/
def blank : Database :=
  fun _ => Table.blank

theorem closed_blank : blank.Closed :=
  ⟨fun _ _ => rfl, fun _ => ⟨rfl, rfl⟩⟩

/-- The index of the first type. -/
def first : Fin (kcnEqTypeMax - 1) :=
  ⟨0, by decide⟩

/-- A search of the request finds no record that fits. -/
def asksInVain (db : Database) (request : Nat × Request) : Bool :=
  match request.2.call with
  | .search ke maxnlocs =>
      match type2index request.1 with
      | some index => ((hits ke (db index).table).take maxnlocs).isEmpty
      | none => true
  | .tableOpen _ _ | .recordAdd _ => true

theorem misses_asksInVain
    (db : Database) (request : Nat × Request) (done : DbDone)
    (db' : Database)
    (performed : db.perform request = some (done, db'))
    (inVain : db.asksInVain request = true) :
    db.Misses done := by
  obtain ⟨_, typeEq, requestEq⟩ := step_perform _ _ _ _ performed
  intro index ke maxnlocs found call
  rw [requestEq] at call
  rw [typeEq] at found
  unfold asksInVain at inVain
  simp only [call, found, List.isEmpty_iff] at inVain
  exact Or.inr (Or.inr (Or.inl inVain))

/-- Three calls returned. -/
def threeCalls (dones : List DbDone) (_ : Database) : Bool :=
  dones.length == 3

/-- A run with a record and a search for another value. -/
theorem locks_released_after_miss :
    ∃ dones db', Run (Guarded Step Misses) blank dones db' ∧
      dones.length = 3 ∧
      (∀ index tid, ¬ (db' index).base.kdbLock.HeldBy tid) ∧
        ∀ index tid kdt errno rest, ∃ ctx,
          KcndbDb.wrlock
              ((db' index).view tid kdt
                { errno := errno, trace := .lock none :: rest }) =
            .ok (true, ctx) := by
  obtain ⟨dones, db', run, shown⟩ :=
    Run.of_shown
      (guarded_performIf
        (fun db request done db' performed =>
          (step_perform db request done db' performed).1)
        misses_asksInVain)
      (show
        (performAll (performIf asksInVain perform) blank
          [(1, Request.create 0),
            (1, Request.add 0 1 5 [1] Request.newLoc),
            (1, Request.ask 0 1 7 1 [.read .full, .read .full])]).any
            (fun performed => threeCalls performed.1 performed.2) = true
        by decide +kernel)
  obtain ⟨nobody, granted⟩ := locks_released closed_blank run
  exact ⟨dones, db', run, beq_iff_eq.mp shown, nobody, granted⟩

/-- Thread 0 holds the first lock, and adding a record waits for it. -/
def stuck (_ : List DbDone) (db : Database) : Bool :=
  (db first).base.kdbLock.readers == [0] &&
    match
      (db first).exec 0 (Request.add 0 1 5 [1] []).call
        { errno := 0, trace := [.lock none] } with
    | .error .blocked => true
    | _ => false

/--
A search that finds a record returns with the lock held for reading, and the
next call that adds a record blocks.
-/
theorem search_keeps_lock :
    ∃ db dones db', db.Closed ∧ Run Step db dones db' ∧
      (db' first).base.kdbLock.HeldBy 0 ∧
      (db' first).exec 0 (Request.add 0 1 5 [1] []).call
          { errno := 0, trace := [.lock none] } =
        .error .blocked := by
  obtain ⟨dones, db', run, shown⟩ :=
    Run.of_shown
      (fun db request done db' performed =>
        (step_perform db request done db' performed).1)
      (show
        (performAll perform blank
          [(1, Request.create 0),
            (1, Request.add 0 1 5 [1] Request.newLoc),
            (1, Request.ask 0 1 5 1
              [.read .full, .seek none, .read .full,
                .callback true])]).any
            (fun performed => stuck performed.1 performed.2) = true
        by decide +kernel)
  simp only [stuck, Bool.and_eq_true, beq_iff_eq] at shown
  obtain ⟨readers, blocked⟩ := shown
  refine ⟨blank, dones, db', closed_blank, run, ?_, ?_⟩
  · refine Or.inr ?_
    rw [readers]
    exact List.mem_singleton_self 0
  · split at blocked
    · rename_i stopped
      exact stopped
    · cases blocked

end Database

end Kcn
