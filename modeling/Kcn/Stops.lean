import Kcn.Frame
import Kcn.FileRules

namespace Kcn

open Program

/-!
# Why the operations stop, and what they take

Whatever the files and the buffers hold, an operation on a file takes its
answers from the head of the trace.  It stops because it starves or because an
assertion of its buffer fails, and for no other reason.
-/

/-- The trace is what is left of a longer one. -/
theorem Trace.Clean.suffix
    {first second : Trace} (clean : Clean first)
    (later : second <:+ first) :
    Clean second :=
  fun event member => clean event (later.subset member)

theorem Trace.Torn.of_suffix
    {first second : Trace} (torn : Torn second)
    (later : second <:+ first) :
    Torn first := by
  obtain ⟨earlier, rfl⟩ := later
  exact torn.append_left earlier

namespace KcnBuf

variable {allowed : Stop → Prop}

theorem stops_reset : StopsFor allowed (reset 0) :=
  fun kb => wp_reset (holds_self kb) (Nat.zero_le _) fun _ _ => trivial

variable (assertion : allowed .assertion)

include assertion

theorem stops_forward (count : Nat) : StopsFor allowed (forward count) :=
  fun kb =>
    wp_forward (holds_self kb) (fun _ _ _ => trivial)
      fun _ => assertion

theorem stops_fetch (count : Nat) : StopsFor allowed (fetch count) :=
  .bind (.gets _) fun _ =>
    .bind (stops_forward assertion count) fun _ => .pure _

theorem stops_get16 : StopsFor allowed get16 :=
  .bind (stops_fetch assertion 2) fun _ => .pure _

theorem stops_get64 : StopsFor allowed get64 :=
  .bind (stops_fetch assertion 8) fun _ => .pure _

theorem stops_store (data : List UInt8) :
    StopsFor allowed (store data) :=
  fun kb =>
    wp_store (holds_self kb) (fun _ _ _ => trivial) fun _ => assertion

theorem stops_trimHead (count : Nat) :
    StopsFor allowed (trimHead count) := by
  intro kb
  unfold wp trimHead
  by_cases fits : count ≤ kb.len
  · simp only [fits, ↓reduceDIte]
  · simp only [fits, ↓reduceDIte]
    exact assertion

end KcnBuf

/-- The answers to come of an operation on a file. -/
def FileCtx.answers (ctx : FileCtx) : Trace :=
  ctx.env.trace

/-- The answers to come of an operation on a table. -/
def TableCtx.answers (ctx : TableCtx) : Trace :=
  ctx.env.trace

namespace KcndbFile

open FileCtx

variable {allowed : Stop → Prop} (starved : allowed .starved)

/-- An operation on the buffer takes no answers. -/
theorem consumes_buf
    {α : Type} {op : KcnBuf.BufOp α} (stops : StopsFor allowed op) :
    Consumes answers allowed (buf op) :=
  .zoom_other stops fun _ _ => rfl

include starved

theorem consumes_seekHead (off : Nat) :
    Consumes answers allowed (seekHead off) := by
  intro ctx
  refine wp_sysSeek starved ?_ ?_
  · intro env' _ shape
    exact ⟨[_], shape.symm⟩
  · intro event env' shape _
    exact ⟨[_], shape.symm⟩

theorem consumes_write : Consumes answers allowed write := by
  intro ctx
  refine wp_write starved ?_
  intro ok ctx' taken count written
  exact ⟨taken, written.took.trace_eq.symm⟩

theorem consumes_append : Consumes answers allowed append := by
  intro ctx
  refine wp_append starved ?_
  intro ok ctx' appended
  cases appended with
  | refused event shape _ _ =>
      exact ⟨[event], shape.symm⟩
  | written _ env' taken count _ shape written =>
      have later : env'.trace = taken ++ ctx'.env.trace :=
        written.took.trace_eq
      rw [later] at shape
      exact ⟨.seek none :: taken, shape.symm⟩

theorem consumes_ensure
    (assertion : allowed .assertion) (len : Nat) :
    Consumes answers allowed (ensure len) := by
  intro ctx
  refine wp_ensure starved (fun _ => assertion) ?_
  intro ok ctx' taken new ensured
  exact ⟨taken, ensured.grown.took.trace_eq.symm⟩

end KcndbFile

namespace KcndbDb

open TableCtx FileCtx KcndbFile

variable {allowed : Stop → Prop} (starved : allowed .starved)

/-- An operation on the locator file. -/
theorem consumes_onLoc
    {α : Type} {op : FileOp α}
    (consumes : Consumes FileCtx.answers allowed op) :
    Consumes TableCtx.answers allowed (onLoc op) :=
  .zoom consumes (fun _ => rfl) fun _ _ => rfl

/-- An operation on the table file, under the names of the table. -/
theorem consumes_onTable
    {α : Type} {op : FileOp α}
    (consumes :
      Consumes FileCtx.answers (fun reason => allowed reason.onTable)
        op) :
    Consumes TableCtx.answers allowed (onTable op) :=
  .zoom (.mapStop consumes) (fun _ => rfl) fun _ _ => rfl

section Locator

variable (assertion : allowed .assertion)

include starved assertion

theorem consumes_locWalk (loc : List UInt8) (rounds : Nat) :
    Consumes TableCtx.answers allowed (locWalk loc rounds) := by
  induction rounds with
  | zero =>
      exact .stop starved
  | succ rounds inductionHypothesis =>
      refine .bind
        (consumes_onLoc (consumes_buf (KcnBuf.stops_get64 assertion)))
        fun _ => .ite (.pure _)
          (.bind (consumes_onLoc (consumes_seekHead starved _))
            fun _ => .ite ?_ (.pure _))
      refine .bind (consumes_onLoc (consumes_buf KcnBuf.stops_reset))
        fun _ =>
          .bind (consumes_onLoc (consumes_ensure starved assertion _))
            fun _ => .ite ?_ (.pure _)
      refine .bind
        (consumes_onLoc (consumes_buf (KcnBuf.stops_get16 assertion)))
        fun _ =>
          .bind (consumes_onLoc (consumes_ensure starved assertion _))
            fun _ => .ite ?_ (.pure _)
      exact .bind (.gets _) fun _ => .ite (.pure _)
        (.bind
          (consumes_onLoc
            (consumes_buf (KcnBuf.stops_forward assertion _)))
          fun _ => inductionHypothesis)

theorem consumes_locFind (loc : List UInt8) :
    Consumes TableCtx.answers allowed (locFind loc) := by
  refine .bind (consumes_onLoc (consumes_buf KcnBuf.stops_reset))
    fun _ => .bind (consumes_onLoc (consumes_seekHead starved _))
      fun _ => .ite ?_ (.pure _)
  refine .bind (consumes_onLoc (consumes_ensure starved assertion _))
    fun _ => .ite ?_ (.pure _)
  exact .bind
    (consumes_onLoc (consumes_buf (KcnBuf.stops_forward assertion _)))
    fun _ => .bind (.gets _) fun _ =>
      consumes_locWalk starved assertion loc _

theorem consumes_locLink (loc : List UInt8) (last : UInt64) :
    Consumes TableCtx.answers allowed (locLink loc last) := by
  have stores (data : List UInt8) :
      Consumes TableCtx.answers allowed
        (onLoc (buf (KcnBuf.store data))) :=
    consumes_onLoc (consumes_buf (KcnBuf.stops_store assertion data))
  refine .bind (.gets _) fun _ => .bind (.gets _) fun _ =>
    .bind (consumes_onLoc (consumes_buf KcnBuf.stops_reset))
      fun _ => ?_
  refine .bind (stores _) fun _ => .bind (stores _) fun _ =>
    .bind (stores _) fun _ => .bind (.gets _) fun _ =>
      .bind (consumes_onLoc (consumes_append starved)) fun _ =>
        .ite ?_ (.pure _)
  refine .bind (.modify fun _ => rfl) fun _ =>
    .bind (stores _) fun _ =>
      .bind (consumes_onLoc (consumes_seekHead starved _)) fun _ =>
        .ite ?_ (.pure _)
  exact .bind (consumes_onLoc (consumes_write starved)) fun _ =>
    .ite (.pure _) (.pure _)

/-- `kcndb_db_loc_add` only touches the buffer of the locator file. -/
theorem consumes_locAdd (loc : List UInt8) :
    Consumes TableCtx.answers allowed (locAdd loc) := by
  refine .bind (consumes_locFind starved assertion loc) fun found => ?_
  cases found with
  | failed | found _ =>
      exact .pure _
  | tail last =>
      exact consumes_locLink starved assertion loc last

theorem consumes_locLookup (idx : UInt64) :
    Consumes TableCtx.answers allowed (locLookup idx) := by
  refine .bind (.gets _) fun _ => .ite
    (.bind (fun _ => List.suffix_refl _) fun _ => .pure _) ?_
  refine .bind (consumes_onLoc (consumes_buf KcnBuf.stops_reset))
    fun _ => .bind (consumes_onLoc (consumes_seekHead starved _))
      fun _ => .ite ?_ (.pure _)
  refine .bind (consumes_onLoc (consumes_ensure starved assertion _))
    fun _ => .ite ?_ (.pure _)
  refine .bind
    (consumes_onLoc (consumes_buf (KcnBuf.stops_get16 assertion)))
    fun _ => .bind (consumes_onLoc (consumes_ensure starved assertion _))
      fun _ => .ite ?_ (.pure _)
  exact .bind (.gets _) fun _ => .pure _

end Locator

section Table

variable (tableAssertion : allowed .tableAssertion)

include starved tableAssertion

theorem consumes_recordRead :
    Consumes TableCtx.answers allowed recordRead := by
  have gets64 :
      Consumes TableCtx.answers allowed
        (onTable (buf KcnBuf.get64)) :=
    consumes_onTable
      (consumes_buf (KcnBuf.stops_get64 (by exact tableAssertion)))
  have reads :
      Consumes TableCtx.answers allowed
        (onTable (KcndbFile.ensure recordsiz)) :=
    consumes_onTable
      (consumes_ensure (by exact starved) (by exact tableAssertion) _)
  have trims (count : Nat) :
      Consumes TableCtx.answers allowed
        (onTable (buf (KcnBuf.trimHead count))) :=
    consumes_onTable
      (consumes_buf
        (KcnBuf.stops_trimHead (by exact tableAssertion) count))
  refine .bind reads fun _ => .ite ?_ (.pure _)
  exact .bind gets64 fun _ => .bind gets64 fun _ =>
    .bind gets64 fun _ => .bind (.gets _) fun _ =>
      .bind (trims _) fun _ => .pure _

theorem consumes_recordReadLast :
    Consumes TableCtx.answers allowed recordReadLast :=
  .bind (.gets _) fun _ => .ite (.pure _)
    (.bind (consumes_onTable (consumes_seekHead (by exact starved) _))
      fun _ =>
        .ite (consumes_recordRead starved tableAssertion) (.pure _))

theorem consumes_recordAppend (kdr : KcndbDbRecord) :
    Consumes TableCtx.answers allowed (recordAppend kdr) := by
  have stores (data : List UInt8) :
      Consumes TableCtx.answers allowed
        (onTable (buf (KcnBuf.store data))) :=
    consumes_onTable
      (consumes_buf
        (KcnBuf.stops_store (by exact tableAssertion) data))
  exact .bind (stores _) fun _ => .bind (stores _) fun _ =>
    .bind (stores _) fun _ =>
      .bind (consumes_onTable (consumes_append (by exact starved)))
        fun _ => .ite
          (.bind (.modify fun _ => rfl) fun _ => .pure _) (.pure _)

theorem consumes_recordAddLocked
    (assertion : allowed .assertion) (kdr : KcndbDbRecord) :
    Consumes TableCtx.answers allowed (recordAddLocked kdr) := by
  refine .bind (consumes_recordReadLast starved tableAssertion) ?_
  intro last
  cases last with
  | none =>
      exact .pure _
  | some kdr0 =>
      refine .ite (.bind ?_ fun _ => .pure _) ?_
      · exact fun _ => List.suffix_refl _
      · refine .bind (consumes_locAdd starved assertion _) ?_
        intro found
        cases found with
        | none =>
            exact .pure _
        | some idx =>
            exact .bind (consumes_recordAppend starved tableAssertion _)
              fun _ => .pure _

end Table

end KcndbDb

end Kcn
