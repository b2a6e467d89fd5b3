import Kcn.Finding
import Kcn.Locks
import Kcn.Rounds
import Kcn.Stops

namespace Kcn

open Program Bytes KcnBuf Framing

/-!
# Types and operators from the wire

The type of a message indexes the tables and the operator of a query is
switched on, and nothing between the client and the database looks at either.
-/

/-- No time fits the equation. -/
def KcnEq.Untimely (ke : KcnEq) : Prop :=
  ke.keEnd ≠ kcnTimeNow ∧ ke.keEnd < ke.keStart

theorem KcnEq.untimely_iff (ke : KcnEq) :
    ke.Untimely ↔ ∀ time, kcnEqTimeMatch time ke = false := by
  constructor
  · rintro ⟨limited, empty⟩ time
    refine Bool.eq_false_iff.mpr fun timely => ?_
    obtain ⟨after, now | before⟩ := (kcnEqTimeMatch_iff time ke).mp timely
    · exact limited now
    · exact Int64.not_le.mpr empty (Int64.le_trans after before)
  · intro never
    have start := never ke.keStart
    have misses : ¬ (ke.keEnd = kcnTimeNow ∨ ke.keStart ≤ ke.keEnd) := by
      intro reaches
      have timely := (kcnEqTimeMatch_iff ke.keStart ke).mpr
        ⟨Int64.le_refl _, reaches⟩
      rw [start] at timely
      cases timely
    exact ⟨fun now => misses (Or.inl now),
      Int64.not_le.mp fun reaches => misses (Or.inr reaches)⟩

/-- There is a table of the type. -/
def Tabled (type : Nat) : Prop :=
  0 < type ∧ type < kcnEqTypeMax

/-- The search never gets as far as an operator that it does not know. -/
def Switches (ke : KcnEq) (maxnlocs : Nat) : Prop :=
  ke.Known ∨ maxnlocs = 0 ∨ ke.Untimely

/-- What would have to be checked of a message. -/
def ServerFrame.Checked : ServerFrame → Prop
  | .query none => True
  | .query (some kmq) =>
      Tabled kmq.kmqEq.keType ∧
        Switches kmq.kmqEq kmq.kmqMaxcount.toNat
  | .add kma => Tabled kma.kmaType

/-- All messages that can be taken off some bytes would pass the check. -/
def Checks (bytes : List UInt8) : Prop :=
  ∀ messages rest, serverFramer.Takes bytes messages rest →
    ∀ message ∈ messages, message.Checked

/-- No array is indexed out of bounds and no operator is unknown. -/
def Stop.Proper (reason : Stop) : Prop :=
  reason ≠ .wild ∧ reason ≠ .operator

theorem type2index_of_tabled {type : Nat} (tabled : Tabled type) :
    ∃ index, type2index type = some index := by
  obtain ⟨positive, small⟩ := tabled
  have inside : 0 < type ∧ type - 1 < kcnEqTypeMax - 1 := by omega
  exact ⟨⟨type - 1, inside.2⟩, dif_pos inside⟩

theorem Checks.take
    {bytes rest more : List UInt8} {message : ServerFrame}
    (checks : Checks (bytes ++ more))
    (takes : serverCut bytes = .take message rest) :
    message.Checked ∧ Checks (rest ++ more) := by
  have takes' : serverFramer.cut (bytes ++ more) = .take message (rest ++ more) :=
    serverFramer.take_append _ _ _ more takes
  constructor
  · exact checks [message] _ (.cons takes' (.nil _)) message
      List.mem_cons_self
  · intro messages left later other member
    exact checks (message :: messages) left (.cons takes' later) other
      (List.mem_cons_of_mem _ member)

/-! ### Why a search stops -/

namespace KcndbDb

open TableCtx KcndbFile

variable {allowed : Stop → Prop} {ke : KcnEq} {maxnlocs : Nat}

theorem stops_deliver
    (starved : allowed .starved) (kdr : KcndbDbRecord) :
    StopsFor allowed (deliver kdr) := by
  refine .bind (.modify _) fun _ => ?_
  intro ctx
  rw [wp_bind, sys, wp_zoom]
  refine Env.wp_next starved ?_
  intro event rest _
  cases event with
  | callback accepted =>
      trivial
  | openFile _ | lock _ | stat _ | seek _ | read _ | write _ =>
      exact starved

/-- The reasons for which the reads of a search may stop. -/
structure Reads (allowed : Stop → Prop) : Prop where
  starved : allowed .starved
  assertion : allowed .assertion
  tableAssertion : allowed .tableAssertion

/-- A record is looked at without coming to an unknown operator. -/
theorem stops_visit
    (reads : Reads allowed) (switches : ke.Known ∨ ke.Untimely)
    (kdr : KcndbDbRecord) :
    StopsFor allowed (visit ke kdr) := by
  unfold visit
  split
  · rename_i timely
    have known : ke.Known := by
      refine switches.resolve_right fun untimely => ?_
      rw [(ke.untimely_iff).mp untimely] at timely
      cases timely
    rw [operatorSkips_known known]
    refine .bind (.pure _) fun _ => .ite (.pure _) ?_
    refine .bind
      (consumes_locLookup reads.starved reads.assertion _).stops
      fun found => ?_
    cases found with
    | none =>
        exact .pure _
    | some loc =>
        exact .bind (stops_deliver reads.starved _) fun _ =>
          .ite (.pure _) (.pure _)
  · exact .pure _

theorem stops_searchLoop
    (reads : Reads allowed) (switches : Switches ke maxnlocs)
    (rounds n : Nat) :
    StopsFor allowed (searchLoop ke maxnlocs rounds n) := by
  induction rounds generalizing n with
  | zero =>
      exact .stop reads.starved
  | succ rounds inductionHypothesis =>
      unfold searchLoop
      split
      · rename_i room
        have switches' : ke.Known ∨ ke.Untimely := by
          rcases switches with known | rfl | untimely
          · exact Or.inl known
          · exact absurd room (Nat.not_lt_zero _)
          · exact Or.inr untimely
        refine .bind
          (consumes_recordRead reads.starved reads.tableAssertion).stops
          fun record => ?_
        cases record with
        | none =>
            exact .bind (.gets _) fun _ => .ite (.pure _) (.pure _)
        | some kdr =>
            refine .bind (stops_visit reads switches' kdr) fun seen => ?_
            cases seen with
            | skipped | delivered =>
                exact inductionHypothesis _
            | failed =>
                exact .pure _
      · exact .pure _

theorem stops_search
    (reads : Reads allowed) (blocked : allowed .blocked)
    (switches : Switches ke maxnlocs) :
    StopsFor allowed (search ke maxnlocs) := by
  have locked : StopsFor allowed (searchLocked ke maxnlocs) := by
    refine .bind
      (consumes_onTable
        (consumes_seekHead (by exact reads.starved) _)).stops
      fun _ => .ite ?_ (.pure _)
    refine .bind
      (consumes_onTable (consumes_buf KcnBuf.stops_reset)).stops
      fun _ => .bind (.gets _) fun _ =>
        .bind (stops_searchLoop reads switches _ _) fun found => ?_
    cases found with
    | none =>
        exact .pure _
    | some n =>
        exact .ite (.bind (.zoom (.modify _)) fun _ => .pure _) (.pure _)
  intro ctx
  refine wp_search reads.starved (fun _ => blocked)
    (fun _ _ _ => trivial) fun env' _ _ => ?_
  exact wp_imp (locked _) fun ok _ _ => by cases ok <;> trivial

theorem stops_recordAdd
    (reads : Reads allowed) (blocked : allowed .blocked)
    (kdr : KcndbDbRecord) :
    StopsFor allowed (recordAdd kdr) := by
  intro ctx
  refine wp_recordAdd reads.starved (fun _ => blocked)
    (fun _ _ _ => trivial) fun env' _ _ => ?_
  exact (consumes_recordAddLocked reads.starved reads.tableAssertion
    reads.assertion kdr).stops _

end KcndbDb

/-! ### The database behind a session -/

/-- What a call on the database finds, and the answers it will get. -/
structure DbTurn where
  db : Database
  errno : Errno
  trace : Trace

/--
The thread of a session, with what each of its calls will find.  Other threads
work on the database between the calls.
-/
structure DbWorld where
  tid : Nat
  turns : List DbTurn
  clock : List (Except Errno Int64)

namespace DbWorld

/-- The thread has opened all tables. -/
def Opened (world : DbWorld) : Prop :=
  ∀ turn ∈ world.turns, ∀ index, (turn.db index).handles world.tid ≠ none

/-- A call on the table of a type, looked up with `kcndb_db_table_lookup`. -/
def tableCall (type : Nat) (call : Call) : Program Stop DbWorld Return :=
  fun world =>
    match type2index type, world.turns with
    | none, _ => .error .wild
    | some _, [] => .error .starved
    | some index, turn :: later =>
        match
          (turn.db index).exec world.tid call
            { errno := turn.errno, trace := turn.trace } with
        | .ok (result, _) => .ok (result, { world with turns := later })
        | .error reason => .error reason

/-- `time` -/
def time : Program Stop DbWorld (Except Errno Int64) :=
  fun world =>
    match world.clock with
    | [] => .error .starved
    | answer :: later => .ok (answer, { world with clock := later })

end DbWorld

namespace KcndbServer

/-- What a failed call leaves in `errno`. -/
def failure (result : Return) : Option Errno :=
  if result.ok then none else some result.errno

/-- The calls of a session on the database; its responses go elsewhere. -/
def dbCalls : ServerCalls DbWorld where
  search ke maxnlocs := do
    let result ← DbWorld.tableCall ke.keType (.search ke maxnlocs)
    pure (failure result)
  respond _ := pure ()
  time := DbWorld.time
  recordAdd type kdr := do
    let result ← DbWorld.tableCall type (.recordAdd kdr)
    pure (failure result)

/-- The reasons that are proper leave the reads of a search alone. -/
theorem proper_reads : KcndbDb.Reads Stop.Proper :=
  ⟨⟨nofun, nofun⟩, ⟨nofun, nofun⟩, ⟨nofun, nofun⟩⟩

/-- The call itself does not stop for an improper reason. -/
def Runs (call : Call) : Prop :=
  ∀ (s : Table) (tid : Nat) (env : Env), s.handles tid ≠ none →
    ∀ reason, s.exec tid call env = .error reason → reason.Proper

theorem runs_search
    {ke : KcnEq} {maxnlocs : Nat} (switches : Switches ke maxnlocs) :
    Runs (.search ke maxnlocs) := by
  intro s tid env opened reason stopped
  obtain ⟨kdt, handle⟩ := Option.ne_none_iff_exists'.mp opened
  unfold Table.exec at stopped
  simp only [handle] at stopped
  split at stopped
  · cases stopped
  · rename_i shape
    cases stopped
    exact wp_error
      (KcndbDb.stops_search proper_reads ⟨nofun, nofun⟩ switches _) shape

theorem runs_recordAdd (kdr : KcndbDbRecord) : Runs (.recordAdd kdr) := by
  intro s tid env opened reason stopped
  obtain ⟨kdt, handle⟩ := Option.ne_none_iff_exists'.mp opened
  unfold Table.exec at stopped
  simp only [handle] at stopped
  split at stopped
  · cases stopped
  · rename_i shape
    cases stopped
    exact wp_error
      (KcndbDb.stops_recordAdd proper_reads ⟨nofun, nofun⟩ kdr _) shape

variable {world : DbWorld}

/-- A call on the table of a type that there is. -/
theorem wp_tableCall
    {type : Nat} {call : Call}
    (tabled : Tabled type) (runs : Runs call) (opened : world.Opened) :
    wp (DbWorld.tableCall type call) (fun _ world' => world'.Opened)
      Stop.Proper world := by
  obtain ⟨index, indexed⟩ := type2index_of_tabled tabled
  unfold wp DbWorld.tableCall
  rw [indexed]
  cases turns : world.turns with
  | nil =>
      exact ⟨nofun, nofun⟩
  | cons turn later =>
      have handles := opened turn (by rw [turns]; exact List.mem_cons_self)
      simp only
      cases shape :
          (turn.db index).exec world.tid call
            { errno := turn.errno, trace := turn.trace } with
      | ok result =>
          intro other member
          refine opened other ?_
          rw [turns]
          exact List.mem_cons_of_mem _ member
      | error reason =>
          exact runs _ _ _ (handles index) reason shape

theorem wp_time (opened : world.Opened) :
    wp DbWorld.time (fun _ world' => world'.Opened) Stop.Proper world := by
  unfold wp DbWorld.time
  cases clock : world.clock with
  | nil =>
      exact ⟨nofun, nofun⟩
  | cons answer later =>
      exact opened

/-- A message that passes the check is handled properly. -/
theorem wp_handle
    {message : ServerFrame} {served : Served DbWorld}
    (checked : message.Checked) (opened : served.world.Opened) :
    wp (dbCalls.handle message)
      (fun _ served' => served'.world.Opened) Stop.Proper served := by
  cases message with
  | query kmq =>
      cases kmq with
      | none =>
          exact opened
      | some kmq =>
          obtain ⟨tabled, switches⟩ := checked
          simp only [ServerCalls.handle, ServerCalls.handleQuery,
            Served.hand, Served.call, dbCalls, wp_bind, wp_modify,
            wp_zoom, wp_pure]
          exact wp_tableCall tabled (runs_search switches) opened
  | add kma =>
      simp only [ServerCalls.handle, ServerCalls.handleAdd, Served.hand,
        wp_bind, wp_modify]
      have stored (time : Int64) {served' : Served DbWorld}
          (opened' : served'.world.Opened) :
          wp
            (Served.call
              (dbCalls.recordAdd kma.kmaType {
                kdrTime := time
                kdrVal := kma.kmaVal
                kdrLocidx := 0
                kdrLoc := kma.kmaLoc
              }))
            (fun _ served'' => served''.world.Opened) Stop.Proper
            served' := by
        simp only [Served.call, dbCalls, wp_bind, wp_zoom, wp_pure]
        exact wp_tableCall checked (runs_recordAdd _) opened'
      unfold ServerCalls.timeOf
      split
      · exact stored _ opened
      · simp only [Served.call, dbCalls, wp_zoom]
        refine wp_imp (wp_time opened) fun answer world' opened' => ?_
        cases answer with
        | error error =>
            exact opened'
        | ok time =>
            exact stored time opened'

/-- What a session keeps: the messages to come pass the check. -/
def Proper (ctx : ServerCtx DbWorld) : Prop :=
  ctx.served.world.Opened ∧
    ∃ size sp bytes, ctx.conn.kb.Holds size sp [] bytes ∧
      Checks (bytes ++ ctx.conn.content.drop ctx.conn.off)

theorem wp_session_proper
    {ctx : ServerCtx DbWorld} (proper : Proper ctx) :
    wp (session dbCalls) (fun _ _ => True) Stop.Proper ctx := by
  have keeps :
      wp (session dbCalls)
        (fun error ctx' => error = Errno.eagain → Proper ctx')
        Stop.Proper ctx := by
    refine wp_session_keeps ⟨nofun, nofun⟩ ?_ ?_ proper
    · rintro ctx ⟨opened, size, sp, bytes, holds, checks⟩
      have grows {taken : Trace} {new : List UInt8} {file : FileCtx}
          (grown :
            KcndbFile.Grown (ServerCtx.connLens.get ctx) taken new file) :
          Proper (ServerCtx.connLens.set ctx file) := by
        have contentEq : file.file.content = ctx.conn.content :=
          grown.content_eq
        have offEq : file.file.off = ctx.conn.off + new.length :=
          grown.off_eq
        have beforeEq : file.file.kb.before = [] :=
          grown.before_eq.trans holds.before_eq
        have afterEq : file.file.kb.after = bytes ++ new := by
          have after : (ServerCtx.connLens.get ctx).file.kb.after = bytes :=
            holds.after_eq
          rw [grown.after_eq, after]
        have split :
            ctx.conn.content.drop ctx.conn.off =
              new ++ file.file.content.drop file.file.off := by
          have taken :
              new = (ctx.conn.content.drop ctx.conn.off).take new.length :=
            grown.new_eq
          have whole :=
            List.take_append_drop new.length
              (ctx.conn.content.drop ctx.conn.off)
          rw [← taken, List.drop_drop] at whole
          rw [contentEq, offEq, whole]
        have holds' := holds_self file.file.kb
        rw [beforeEq, afterEq] at holds'
        rw [split, ← List.append_assoc] at checks
        exact ⟨opened, _, _, _, holds', checks⟩
      unfold ServerCtx.onConn
      rw [wp_zoom]
      refine KcndbFile.wp_bufRead ⟨nofun, nofun⟩
        (fun _ => ⟨nofun, nofun⟩) ?_
      intro error file result _ _
      cases result with
      | failed _ _ grown _ _ =>
          exact grows grown
      | ended _ grown _ _ =>
          exact grows grown
      | got _ _ grown _ _ _ =>
          exact grows grown
    · rintro ctx ⟨opened, size, sp, bytes, holds, checks⟩ _
      refine wp_recvStep holds ?_ ?_ ?_
      · intro _ kb holds' _
        exact ⟨opened, size, sp, bytes, holds', checks⟩
      · intro error refuses kb _ on
        rcases on with none | again
        · cases none
        · exact absurd (Option.some.inj again) (serverCut_refuse refuses)
      · intro message rest takes
        obtain ⟨checked, later⟩ := checks.take takes
        refine wp_imp (wp_handle checked opened) ?_
        intro result served opened' sp' kb errno holds' _ _
        exact ⟨opened', size, sp', rest, holds', later⟩
  exact wp_imp keeps fun _ _ _ => trivial

/--
If all messages that a client sends have a type with a table, and an operator
that is known or not come to, no session looks up a table outside of the array
or comes to an unknown operator.
-/
theorem lookups_proper
    {sent : List UInt8} {memory : InputBlock} {env : Env} {world : DbWorld}
    (checks : Checks sent) (opened : world.Opened) :
    session dbCalls (connect sent memory env world) ≠ .error .wild ∧
      session dbCalls (connect sent memory env world) ≠
        .error .operator := by
  have fresh := holds_new memory.val
  rw [memory.property] at fresh
  have proper : Proper (connect sent memory env world) :=
    ⟨opened, _, _, [], fresh, checks⟩
  have stops := wp_session_proper proper
  exact ⟨fun stopped => (wp_error stops stopped).1 rfl,
    fun stopped => (wp_error stops stopped).2 rfl⟩

/-- A query for one record of any time, with a type and an operator. -/
def queryFrame (type operator : UInt8) : List UInt8 :=
  [1, 1, 0, 28, 0, 1, type, operator] ++ List.replicate 16 0 ++
    List.replicate 8 0xff

/-- The messages of a frame that is taken as a whole. -/
theorem checks_of_cut
    {sent : List UInt8} {message : ServerFrame}
    (cut : serverCut sent = .take message []) (checked : message.Checked) :
    Checks sent := by
  intro messages rest takes other member
  cases takes with
  | nil =>
      cases member
  | cons first later =>
      have same := first.symm.trans cut
      cases same
      cases later with
      | nil =>
          rw [List.mem_singleton.mp member]
          exact checked
      | cons more _ =>
          cases more

/-- A table of one record, opened by the thread. -/
def oneRecord : Table where
  base := { kdbLocsize := 0, kdbTablesize := 24, kdbLock := RwLock.initializer }
  loc := []
  table := List.replicate 24 0
  handles := fun _ => some {
    kdtLoc := FileHandle.new Request.zeros
    kdtTable := FileHandle.new Request.zeros
  }

/-- A thread whose only call finds such tables and is answered in full. -/
def oneTurn : DbWorld where
  tid := 0
  turns := [{
    db := fun _ => oneRecord
    errno := 0
    trace := [.lock none, .seek none, .read .full]
  }]
  clock := []

/-- A client that sends a query at once. -/
def querying (type operator : UInt8) : ServerCtx DbWorld :=
  connect (queryFrame type operator) zeros
    { errno := 0, trace := [.read .full] } oneTurn

/-- A query to which `lookups_proper` applies. -/
theorem lookups_proper_equal :
    session dbCalls (querying 1 3) ≠ .error .wild ∧
      session dbCalls (querying 1 3) ≠ .error .operator := by
  refine lookups_proper (checks_of_cut rfl ?_) ?_
  · refine ⟨⟨by decide, by decide⟩, Or.inl ?_⟩
    unfold KcnEq.Known
    decide
  · intro turn member index
    rw [List.mem_singleton.mp member]
    exact nofun

/-- Why a session stops, if it does. -/
def stopOf (ctx : ServerCtx DbWorld) : Option Stop :=
  match session dbCalls ctx with
  | .ok _ => none
  | .error reason => some reason

theorem eq_of_stopOf
    {ctx : ServerCtx DbWorld} {reason : Stop}
    (stops : stopOf ctx = some reason) :
    session dbCalls ctx = .error reason := by
  unfold stopOf at stops
  split at stops
  · cases stops
  · rename_i shape
    rw [shape, Option.some.inj stops]

/--
A query for type 0 looks up a table in front of the array, and a query with
operator 9 comes to the assertion.
-/
theorem lookups_improper :
    session dbCalls (querying 0 3) = .error .wild ∧
      session dbCalls (querying 1 9) = .error .operator :=
  ⟨eq_of_stopOf (by decide +kernel), eq_of_stopOf (by decide +kernel)⟩

end KcndbServer

end Kcn
