import Kcn.Finding
import Kcn.RecordLog

namespace Kcn

open Program Bytes KcnBuf KcndbDb

/-!
# Room in the buffer of a table file

Reading the last record moves the start of the buffer on, unless it has to be
realigned, and the three fields of a new record are stored behind it.  Whether
they fit depends on where the start was.
-/

/-- The fields of a new record fit behind what an add reads. -/
def HasRoom (tablesize : Nat) (kb : KcnBuf) : Prop :=
  if tablesize < recordsiz then
    kb.sp + recordsiz ≤ kb.size
  else
    kb.sp + 2 * recordsiz ≤ kb.size ∨ kb.size < kb.sp + recordsiz

instance (tablesize : Nat) (kb : KcnBuf) :
    Decidable (HasRoom tablesize kb) := by
  unfold HasRoom
  infer_instance

/-- A short read can be told. -/
instance (event : Event) : Decidable event.ReadsFull :=
  match event with
  | .read (.short _) => .isFalse not_false
  | .read .full | .read (.fail _) => .isTrue trivial
  | .openFile _ | .lock _ | .stat _ | .seek _ | .write _
  | .callback _ => .isTrue trivial

instance (event : Event) : Decidable event.Favours :=
  inferInstanceAs (Decidable (_ ∧ _ ∧ _))

instance (trace : Trace) : Decidable trace.Favourable :=
  inferInstanceAs (Decidable (∀ event ∈ trace, event.Favours))

namespace TableCtx

/-- The buffer of the table file has its size, and its cursor at its start. -/
structure AtStart (ctx : TableCtx) : Prop where
  size_eq : ctx.table.kb.size = kcndbFileBufsiz
  before_eq : ctx.table.kb.before = []
  bounded : ctx.table.content.length ≤ offMax

/-- Reading the last record left the cursor at the start. -/
structure LastMoved (ctx ctx' : TableCtx) : Prop where
  atStart : ctx'.AtStart
  answers : ctx'.answers <:+ ctx.answers

variable {ctx ctx' : TableCtx}

theorem ReadsTable.lastMoved
    {env' : Env} {taken : Trace} {new after : List UInt8} {sp : Nat}
    (reads : (ctx.atLast env').ReadsTable taken new ctx')
    (atStart : ctx.AtStart)
    (shape : ctx.env.trace = .seek none :: env'.trace)
    (holds : ctx'.table.kb.Holds ctx.table.kb.size sp [] after) :
    ctx.LastMoved ctx' := by
  have later : env'.trace = taken ++ ctx'.env.trace :=
    reads.took.trace_eq
  refine ⟨⟨holds.size_eq.trans atStart.size_eq, holds.before_eq, ?_⟩,
    .seek none :: taken, ?_⟩
  · rw [reads.content_eq]
    exact atStart.bounded
  · simp only [answers, shape, later, List.cons_append]

/-- Reading the last record changes the buffer only. -/
theorem LastRead.visits
    {result : Option KcndbDbRecord}
    (outcome : ctx.LastRead ctx' result) : ctx.Visits ctx' := by
  cases outcome with
  | empty _ same =>
      rw [same]
      exact .refl ctx
  | refused event _ _ _ same =>
      rw [same]
      exact ⟨rfl, rfl, rfl, rfl, rfl⟩
  | read env' _ _ _ outcome =>
      have sought : ctx.Visits (ctx.atLast env') :=
        ⟨rfl, rfl, rfl, rfl, rfl⟩
      cases outcome with
      | read taken new sp reads _ _ _ _ _ =>
          exact sought.trans reads.visits
      | ended taken new sp reads _ _ _ _ _ _ =>
          exact sought.trans reads.visits
      | failed taken new sp reads _ _ _ _ _ =>
          exact sought.trans reads.visits

/-- Whatever is read, the cursor is at the start again. -/
theorem LastRead.moved
    {result : Option KcndbDbRecord}
    (outcome : ctx.LastRead ctx' result) (atStart : ctx.AtStart) :
    ctx.LastMoved ctx' := by
  cases outcome with
  | empty _ same =>
      rw [same]
      exact ⟨atStart, List.suffix_refl _⟩
  | refused event _ shape _ same =>
      refine ⟨?_, [event], shape.symm⟩
      rw [same]
      exact ⟨atStart.size_eq, atStart.before_eq, atStart.bounded⟩
  | read env' _ _ shape outcome =>
      cases outcome with
      | read taken new sp reads _ _ _ holds _ =>
          exact reads.lastMoved atStart shape holds
      | ended taken new sp reads _ _ _ _ holds _ =>
          exact reads.lastMoved atStart shape holds
      | failed taken new sp reads _ _ _ holds _ =>
          exact reads.lastMoved atStart shape holds

/-- Where there was room before the last record was read, it is left. -/
theorem LastRead.room
    {kdr0 : KcndbDbRecord}
    (outcome : ctx.LastRead ctx' (some kdr0))
    (sizeEq : ctx.table.kb.size = kcndbFileBufsiz) :
    kdr0.kdrTime = ctx.lastTime ∧
      (HasRoom ctx.base.kdbTablesize ctx.table.kb →
        ctx'.table.kb.sp + recordsiz ≤ ctx'.table.kb.size) := by
  cases outcome with
  | empty small same =>
      rw [same]
      refine ⟨?_, fun room => ?_⟩
      · rw [lastTime, comparedTime, if_pos small]
      · rw [HasRoom, if_pos small] at room
        exact room
  | read env' _ large shape outcome =>
      cases outcome with
      | read taken new sp reads _ enough _ holds start =>
          refine ⟨reads.lastTime_eq large enough, fun room => ?_⟩
          have block : 2 * recordsiz ≤ kcndbFileBufsiz := by decide
          rw [HasRoom, if_neg (Nat.not_lt.mpr large)] at room
          have within := holds.le_size
          rw [holds.sp_eq, holds.size_eq]
          simp only at start within ⊢
          rcases start with next | ⟨again, beyond⟩
          · omega
          · omega

end TableCtx

namespace KcndbDb

open TableCtx

variable {ctx : TableCtx} {kdr : KcndbDbRecord}

/-- A stop that is not an assertion of the buffer of a table file. -/
def Spares (reason : Stop) : Prop :=
  reason ≠ .tableAssertion

theorem spares_starved : Spares .starved := by
  unfold Spares
  simp

theorem spares_assertion : Spares .assertion := by
  unfold Spares
  simp

/-- The table as it is after `kcndb_db_loc_add`, which may stop for others. -/
theorem wp_locAdd_spares (loc : List UInt8) :
    wp (locAdd loc)
      (fun _ ctx' =>
        ctx'.table = ctx.table ∧ ctx'.answers <:+ ctx.answers)
      Spares ctx := by
  have consumes : Consumes answers Spares (locAdd loc) :=
    consumes_locAdd spares_starved spares_assertion loc
  refine wp_imp (consumes.wp (keeps_tablePart_locAdd loc ctx)) ?_
  rintro found ctx' ⟨same, taken⟩
  simp only [tablePart, Prod.mk.injEq] at same
  exact ⟨same.2.2, taken⟩

/-- Storing a record that there is room for. -/
theorem wp_recordAppend_spares
    (atStart : ctx.AtStart)
    (room : ctx.table.kb.sp + recordsiz ≤ ctx.table.kb.size) :
    wp (recordAppend kdr)
      (fun _ ctx' => ctx.env.trace.Clean →
        ctx'.table.kb.before = [])
      Spares ctx := by
  refine wp_recordAppend spares_starved atStart.before_eq
    (fun beyond => absurd room (Nat.not_le_of_lt beyond)) ?_
  intro ok ctx' appended clean
  have recorded := appended.recorded atStart.size_eq atStart.bounded
  cases recorded with
  | stored _ _ _ holds =>
      exact holds.before_eq
  | kept _ unclean _ _ _ =>
      exact absurd clean unclean
  | torn _ torn =>
      exact absurd torn clean.not_torn

/--
`kcndb_db_record_add` with the lock does not run into the end of the table's
buffer where there is room, or where it rejects the record.
-/
theorem wp_recordAddLocked_spares
    (atStart : ctx.AtStart)
    (room : ctx.lastTime > kdr.kdrTime ∨
      HasRoom ctx.base.kdbTablesize ctx.table.kb) :
    wp (recordAddLocked kdr)
      (fun _ ctx' => ctx.env.trace.Clean →
        ctx'.table.kb.before = [])
      Spares ctx := by
  refine wp_recordAddLocked ?_
  refine wp_recordReadLast spares_starved atStart.before_eq
    (by rw [atStart.size_eq]; decide) ?_
  intro result ctx₁ last
  have moved := last.moved atStart
  cases result with
  | none =>
      exact fun _ => moved.atStart.before_eq
  | some kdr0 =>
      obtain ⟨timeEq, left⟩ := last.room atStart.size_eq
      refine ⟨fun _ _ => moved.atStart.before_eq, fun inTime => ?_⟩
      rw [timeEq] at inTime
      have left := left (room.resolve_left inTime)
      refine wp_imp (wp_locAdd_spares kdr.kdrLoc) ?_
      rintro found ctx₂ ⟨tableEq, taken⟩
      have atStart₂ : ctx₂.AtStart := by
        obtain ⟨size, before, bounded⟩ := moved.atStart
        rw [← tableEq] at size before bounded
        exact ⟨size, before, bounded⟩
      cases found with
      | none =>
          exact fun _ => atStart₂.before_eq
      | some idx =>
          rw [← tableEq] at left
          refine wp_imp (wp_recordAppend_spares atStart₂ left) ?_
          intro ok ctx₃ atEnd clean
          exact atEnd (clean.suffix (taken.trans moved.answers))

/-- `kcndb_db_record_add` -/
theorem wp_recordAdd_spares
    (atStart : ctx.AtStart)
    (room : ctx.lastTime > kdr.kdrTime ∨
      HasRoom ctx.base.kdbTablesize ctx.table.kb) :
    wp (recordAdd kdr)
      (fun _ ctx' => ctx.env.trace.Clean →
        ctx'.table.kb.before = [])
      Spares ctx := by
  refine wp_recordAdd spares_starved
    (fun _ => by unfold Spares; simp)
    (fun _ _ _ _ => atStart.before_eq) ?_
  intro env' shape _
  have locked : (ctx.writeLocked env').AtStart :=
    ⟨atStart.size_eq, atStart.before_eq, atStart.bounded⟩
  refine wp_imp (wp_recordAddLocked_spares locked room) ?_
  intro result ctx' atEnd clean
  exact atEnd (clean.suffix ⟨[_], shape.symm⟩)

/-- `kcndb_db_search` resets the buffer and reads record by record. -/
theorem wp_search_spares
    (atStart : ctx.AtStart)
    (locSize : ctx.loc.kb.size = kcndbFileBufsiz)
    (ke : KcnEq) (maxnlocs : Nat) :
    wp (search ke maxnlocs)
      (fun _ ctx' => ctx'.table.kb.before = []) Spares ctx := by
  refine wp_search spares_starved (fun _ => by unfold Spares; simp)
    (fun _ _ _ => atStart.before_eq) ?_
  intro env' _ _
  refine wp_searchLocked spares_starved
    (fun _ _ _ => spares_assertion) (fun _ => by unfold Spares; simp)
    locSize atStart.size_eq ?_
  intro ok ctx' outcome
  cases outcome with
  | refused env₂ _ =>
      exact atStart.before_eq
  | stopped _ rest _ visits scanned =>
      exact scanned.atStart
  | nothing _ taken rest passes _ _ _ scanned =>
      exact scanned.atStart
  | delivered _ taken shown rest passes _ _ _ scanned =>
      exact scanned.atStart

/-- `kcndb_db_table_open` works on no record. -/
theorem wp_tableOpen_spares :
    wp tableOpen (fun _ _ => True) Spares ctx := by
  refine wp_tableOpen spares_starved
    (fun _ => by unfold Spares; simp) (fun _ _ _ _ => trivial) ?_
  intro taken env' _ _
  have inits : StopsFor Spares locInit := by
    have stores (data : List UInt8) :
        Consumes TableCtx.answers Spares
          (onLoc (FileCtx.buf (KcnBuf.store data))) :=
      consumes_onLoc
        (KcndbFile.consumes_buf
          (KcnBuf.stops_store spares_assertion data))
    have appends :
        Consumes TableCtx.answers Spares (onLoc KcndbFile.append) :=
      consumes_onLoc (KcndbFile.consumes_append spares_starved)
    exact .bind (.gets _) fun _ => .ite (.pure _)
      (.bind (stores _).stops fun _ => .bind appends.stops fun _ =>
        .ite (.bind (.modify _) fun _ => .pure _) (.pure _))
  unfold init
  rw [wp_bind]
  have sizes : ∀ ctx', wp initTablesize
      (fun ok ctx' =>
        wp (if ok = true then locInit else pure false)
          (fun _ _ => True) Spares ctx')
      Spares ctx' := by
    intro ctx'
    refine wp_initTablesize spares_starved ?_ ?_ ?_
    · exact fun _ => inits ctx'
    · exact fun _ _ _ => inits _
    · exact fun _ => trivial
  refine wp_initLocsize spares_starved ?_ ?_ ?_
  · intro _
    rw [if_pos rfl, wp_bind]
    exact sizes _
  · intro _ env'' _
    rw [if_pos rfl, wp_bind]
    exact sizes _
  · exact fun _ => trivial

end KcndbDb

namespace Table

open TableCtx

/--
A call meets no error, and if it adds a record, that is rejected for its time
or there is room for it.
-/
def Roomy (s : Table) (request : Request) : Prop :=
  request.trace.Clean ∧
    ∀ kdr ∈ request.call.record?,
      ∀ kdt ∈ s.handles request.tid,
        comparedTime s.base.kdbTablesize s.table kdt.kdtTable.kb >
            kdr.kdrTime ∨
          HasRoom s.base.kdbTablesize kdt.kdtTable.kb

instance (s : Table) (request : Request) :
    Decidable (s.Roomy request) :=
  inferInstanceAs (Decidable (_ ∧ _))

/-- The buffers of the table file are as a call needs them. -/
structure AtStart (s : Table) : Prop where
  sized : s.Sized
  before_eq : ∀ tid kdt, s.handles tid = some kdt →
    kdt.kdtTable.kb.before = []
  bounded : s.table.length ≤ offMax

theorem atStart_onDisk
    {loc table : List UInt8} (bounded : table.length ≤ offMax) :
    (onDisk loc table).AtStart :=
  ⟨sized_blank, (fun _ _ handle => by cases handle), bounded⟩

variable {s s' : Table} {done : Done}

namespace AtStart

theorem view (atStart : s.AtStart) {tid : Nat} {kdt : KcndbDbTable}
    (handle : s.handles tid = some kdt) (env : Env) :
    (s.view tid kdt env).AtStart :=
  ⟨(atStart.sized tid kdt handle).2, atStart.before_eq tid kdt handle,
    atStart.bounded⟩

/-- The buffers after a call that left its own at the start. -/
theorem after
    (atStart : s.AtStart) (step : s.Step done s') {ctx : TableCtx}
    (own : ctx.table.kb.before = [])
    (afterEq : s' = s.after ctx (some (handleOf ctx))) :
    s'.AtStart := by
  refine ⟨step.sized atStart.sized, ?_, step.tableFits⟩
  intro tid kdt handle
  rw [afterEq] at handle
  rcases handles_after handle with ⟨_, old⟩ | ⟨_, new⟩
  · exact atStart.before_eq tid kdt old
  · obtain rfl := Option.some.inj new
    exact own

/-- Every call for which there is room leaves the buffers at the start. -/
theorem step (atStart : s.AtStart) (step : s.Step done s')
    (roomy : s.Roomy done.toRequest) : s'.AtStart := by
  obtain ⟨clean, room⟩ := roomy
  cases call : done.call with
  | tableOpen loc table =>
      have opened := step.opened call
      refine ⟨step.sized atStart.sized, ?_, step.tableFits⟩
      intro tid kdt handle
      rcases opened.handles tid kdt handle with old | fresh
      · exact atStart.before_eq tid kdt old
      · exact fresh.table.before_eq
  | recordAdd kdr =>
      obtain ⟨kdt, kdr', ctx, handle, ran, _, _, afterEq⟩ :=
        step.recordAdd call
      have room := room kdr (Call.record?_eq_some.mpr call) kdt handle
      have left :=
        wp_ok
          (KcndbDb.wp_recordAdd_spares (atStart.view handle _) room) ran
      exact atStart.after step (left clean) afterEq
  | search ke maxnlocs =>
      obtain ⟨kdt, ctx, handle, ran, _, _, afterEq⟩ := step.search call
      have left :=
        wp_ok
          (KcndbDb.wp_search_spares (atStart.view handle _)
            (atStart.sized _ _ handle).1 ke maxnlocs)
          ran
      exact atStart.after step left afterEq

/-- A call for which there is room meets no assertion of the buffer. -/
theorem exec_ne (atStart : s.AtStart) {request : Request}
    (roomy : s.Roomy request) (env : Env) :
    s.exec request.tid request.call env ≠ .error .tableAssertion := by
  intro stops
  unfold exec at stops
  cases call : request.call with
  | tableOpen loc table =>
      rw [call] at stops
      simp only at stops
      split at stops
      · cases stops
      · rename_i reason ran
        obtain rfl := Except.error.inj stops
        exact wp_error KcndbDb.wp_tableOpen_spares ran rfl
  | recordAdd kdr =>
      rw [call] at stops
      simp only at stops
      split at stops
      · rename_i kdt handle
        have room :=
          roomy.2 kdr (Call.record?_eq_some.mpr call) kdt handle
        split at stops
        · cases stops
        · rename_i reason ran
          obtain rfl := Except.error.inj stops
          exact wp_error
            (KcndbDb.wp_recordAdd_spares (atStart.view handle _) room)
            ran rfl
      · cases stops
  | search ke maxnlocs =>
      rw [call] at stops
      simp only at stops
      split at stops
      · rename_i kdt handle
        split at stops
        · cases stops
        · rename_i reason ran
          obtain rfl := Except.error.inj stops
          exact wp_error
            (KcndbDb.wp_search_spares (atStart.view handle _)
              (atStart.sized _ _ handle).1 ke maxnlocs)
            ran rfl
      · cases stops

end AtStart

/-- The buffers are at their start after every run with room. -/
theorem atStart_run
    {loc table : List UInt8} {dones : List Done}
    (bounded : table.length ≤ offMax)
    (run :
      Run (Guarded Step fun s done => s.Roomy done.toRequest)
        (onDisk loc table) dones s) :
    s.AtStart := by
  induction run with
  | nil =>
      exact atStart_onDisk bounded
  | snoc _ last inductionHypothesis =>
      exact inductionHypothesis.step last.1 last.2

/--
Buffer capacity: after every run of calls for which there is room, a further
such call meets no assertion of the buffer of the table file.
-/
theorem buffer_has_room
    {loc table : List UInt8} {dones : List Done}
    (bounded : table.length ≤ offMax)
    (run :
      Run (Guarded Step fun s done => s.Roomy done.toRequest)
        (onDisk loc table) dones s)
    {request : Request} (roomy : s.Roomy request) :
    s.exec request.tid request.call
        { errno := request.errno, trace := request.trace } ≠
      .error .tableAssertion := by
  exact (atStart_run bounded run).exec_ne roomy _

/-- Two calls were made, and one that is too old has room. -/
def showsRoom (dones : List Done) (s : Table) : Bool :=
  dones.length == 2 && decide (s.Roomy tooOld)

/-- A run to which `buffer_has_room` applies, and a call after it. -/
theorem buffer_has_room_one :
    ∃ dones s,
      Run (Guarded Step fun s done => s.Roomy done.toRequest)
        (onDisk [] []) dones s ∧
      dones.length = 2 ∧
      s.exec tooOld.tid tooOld.call
          { errno := tooOld.errno, trace := tooOld.trace } ≠
        .error .tableAssertion := by
  obtain ⟨dones, s, run, shown⟩ :=
    Run.of_shown guarded_perform
      (show
        (performAll
            (performIf (fun s request => decide (s.Roomy request))
              perform)
            (onDisk [] []) (addFirst 1)).any
            (fun performed => showsRoom performed.1 performed.2) =
          true
        by decide +kernel)
  simp only [showsRoom, Bool.and_eq_true, beq_iff_eq,
    decide_eq_true_eq] at shown
  obtain ⟨count, roomy⟩ := shown
  exact ⟨dones, s, run, count,
    buffer_has_room (Nat.zero_le _) run roomy⟩

end Table

end Kcn
