import Kcn.Db

namespace Kcn

open Program

/-!
# What the operations leave alone

A view of the state that depends neither on a file nor on the environment is
kept by every operation on that file.  The size of a buffer is kept by all
operations.
-/

namespace KcnBuf

theorem keeps_size_reset (headingspace : Nat) :
    Keeps size (reset headingspace) := by
  intro kb
  by_cases fits : headingspace ≤ kb.size <;> simp [wp, reset, fits]

theorem keeps_size_forward (count : Nat) :
    Keeps size (forward count) := by
  intro kb
  by_cases fits : count ≤ kb.trailingdata <;>
    simp [wp, forward, fits]

theorem keeps_size_trimHead (count : Nat) :
    Keeps size (trimHead count) := by
  intro kb
  by_cases fits : count ≤ kb.len <;> simp [wp, trimHead, fits]

theorem keeps_size_fetch (count : Nat) : Keeps size (fetch count) :=
  .bind (.gets _) fun _ =>
    .bind (keeps_size_forward count) fun _ => .pure _

theorem keeps_size_get16 : Keeps size get16 :=
  .bind (keeps_size_fetch 2) fun _ => .pure _

theorem keeps_size_get64 : Keeps size get64 :=
  .bind (keeps_size_fetch 8) fun _ => .pure _

theorem keeps_size_store (data : List UInt8) :
    Keeps size (store data) := by
  intro kb
  by_cases fits : max kb.ep (kb.cp + data.length) ≤ kb.size <;>
    simp only [wp, store, fits, ↓reduceDIte]

theorem keeps_size_fill (data : List UInt8) :
    Keeps size (fill data) := by
  intro kb
  by_cases fits : kb.ep + data.length ≤ kb.size <;>
    simp [wp, fill, fits]

theorem keeps_size_prepareRead : Keeps size prepareRead :=
  .bind (.gets _) fun _ =>
    .ite
      (.bind (.modify fun _ => rfl) fun _ =>
        .bind (.gets _) fun _ => .ite (.stop _) (.pure _))
      (.pure _)

end KcnBuf

namespace KcndbFile

open FileCtx

/-- The size of the buffer of a file. -/
def bufSize (ctx : FileCtx) : Nat :=
  ctx.file.kb.size

/-- What reading keeps: the bytes of the file and the size of its buffer. -/
def fixed (ctx : FileCtx) : List UInt8 × Nat :=
  (ctx.file.content, ctx.file.kb.size)

theorem bufSize_of_fixed
    {α : Type} {op : FileOp α} (keeps : Keeps fixed op) :
    Keeps bufSize op :=
  keeps.map Prod.snd

theorem keeps_buf
    {α : Type} {op : KcnBuf.BufOp α} (keeps : Keeps KcnBuf.size op) :
    Keeps fixed (buf op) := by
  intro ctx
  rw [buf, wp_zoom]
  refine wp_imp (keeps ctx.file.kb) ?_
  intro _ kb same
  exact congrArg (Prod.mk ctx.file.content) same

theorem keeps_sys {α : Type} (op : Program Stop Env α) :
    Keeps fixed (sys op) :=
  .zoom fun _ _ => rfl

theorem keeps_sysRead (space : Nat) : Keeps fixed (sysRead space) := by
  refine .bind (keeps_sys _) fun _ => .bind (keeps_sys _) fun event => ?_
  cases event with
  | read transfer =>
      cases transfer with
      | fail error =>
          exact .bind (keeps_sys _) fun _ => .pure _
      | full | short _ =>
          exact .bind (.gets _) fun _ =>
            .bind (.modify fun _ => rfl) fun _ => .pure _
  | openFile _ | lock _ | stat _ | seek _ | write _ | callback _ =>
      exact .stop _

theorem keeps_bufRead : Keeps fixed bufRead := by
  refine .bind (keeps_buf KcnBuf.keeps_size_prepareRead) fun _ =>
    .bind (.gets _) fun _ => .bind (keeps_sysRead _) fun result => ?_
  match result with
  | .error _ | .ok [] =>
      exact .pure _
  | .ok (_ :: _) =>
      exact .bind (keeps_buf (KcnBuf.keeps_size_fill _))
        fun _ => .pure _

theorem keeps_ensureLoop (len rounds : Nat) :
    Keeps fixed (ensureLoop len rounds) := by
  induction rounds with
  | zero =>
      exact .stop _
  | succ rounds inductionHypothesis =>
      exact .bind (.gets _) fun _ =>
        .ite
          (.bind keeps_bufRead fun _ =>
            .ite inductionHypothesis
              (.bind (keeps_sys _) fun _ => .pure _))
          (.pure _)

theorem keeps_ensure (len : Nat) : Keeps fixed (ensure len) :=
  .bind (.gets _) fun _ => keeps_ensureLoop _ _

theorem keeps_seekHead (off : Nat) : Keeps fixed (seekHead off) := by
  refine .bind (keeps_sys _) fun event => ?_
  match event with
  | .seek none =>
      exact .ite (.bind (.modify fun _ => rfl) fun _ => .pure _)
        (.bind (keeps_sys _) fun _ => .pure _)
  | .seek (some _) =>
      exact .bind (keeps_sys _) fun _ => .pure _
  | .openFile _ | .lock _ | .stat _ | .read _ | .write _
  | .callback _ =>
      exact .stop _

theorem keeps_sizeGet : Keeps fixed sizeGet := by
  refine .bind (keeps_sys _) fun event => ?_
  match event with
  | .stat none =>
      exact .bind (.gets _) fun _ => .pure _
  | .stat (some _) =>
      exact .bind (keeps_sys _) fun _ => .pure _
  | .openFile _ | .lock _ | .seek _ | .read _ | .write _
  | .callback _ =>
      exact .stop _

theorem keeps_sysWrite : Keeps bufSize sysWrite := by
  refine .bind (bufSize_of_fixed (keeps_sys _)) fun _ =>
    .bind (bufSize_of_fixed (keeps_sys _)) fun event => ?_
  cases event with
  | write transfer =>
      cases transfer with
      | fail error =>
          exact .bind (bufSize_of_fixed (keeps_sys _)) fun _ =>
            .pure _
      | full | short _ =>
          exact .bind (.gets _) fun _ =>
            .bind (.modify fun _ => rfl) fun _ => .pure _
  | openFile _ | lock _ | stat _ | seek _ | read _ | callback _ =>
      exact .stop _

theorem keeps_bufWrite : Keeps bufSize bufWrite := by
  refine .bind keeps_sysWrite fun result => ?_
  match result with
  | .error _ | .ok 0 =>
      exact .pure _
  | .ok (_ + 1) =>
      exact .bind
        (bufSize_of_fixed (keeps_buf (KcnBuf.keeps_size_trimHead _)))
        fun _ => .pure _

theorem keeps_writeLoop (rounds : Nat) :
    Keeps bufSize (writeLoop rounds) := by
  induction rounds with
  | zero =>
      exact .stop _
  | succ rounds inductionHypothesis =>
      exact .bind (.gets _) fun _ =>
        .ite
          (.bind keeps_bufWrite fun _ =>
            .ite inductionHypothesis (.pure _))
          (.bind
            (bufSize_of_fixed (keeps_buf (KcnBuf.keeps_size_reset 0)))
            fun _ => .pure _)

theorem keeps_write : Keeps bufSize write :=
  .bind (.gets _) fun _ => keeps_writeLoop _

theorem keeps_append : Keeps bufSize append :=
  .bind (.gets _) fun _ =>
    .bind (bufSize_of_fixed (keeps_seekHead _)) fun _ =>
      .ite keeps_write (.pure _)

end KcndbFile

namespace TableCtx

open KcndbFile

/-- The size of the buffer of the locator file. -/
def locBufSize (ctx : TableCtx) : Nat :=
  ctx.loc.kb.size

/-- The size of the buffer of the table file. -/
def tableBufSize (ctx : TableCtx) : Nat :=
  ctx.table.kb.size

theorem keeps_locBufSize
    {α : Type} {op : FileCtx.FileOp α} (keeps : Keeps bufSize op) :
    Keeps locBufSize (onLoc op) := by
  intro ctx
  rw [onLoc, wp_zoom]
  exact keeps (locLens.get ctx)

/-- What an operation that only reads the locator file keeps. -/
def locFixed (ctx : TableCtx) :
    Nat × KcndbDbBase × KcndbFile × List UInt8 × Nat :=
  (ctx.tid, ctx.base, ctx.table, fixed (locLens.get ctx))

theorem keeps_locFixed
    {α : Type} {op : FileCtx.FileOp α} (keeps : Keeps fixed op) :
    Keeps locFixed (onLoc op) := by
  intro ctx
  rw [onLoc, wp_zoom]
  refine wp_imp (keeps (locLens.get ctx)) ?_
  intro _ part same
  exact congrArg (fun rest => (ctx.tid, ctx.base, ctx.table, rest))
    same

end TableCtx

namespace KcndbDb

open TableCtx FileCtx KcndbFile

section Locator

variable {γ : Type} {view : TableCtx → γ}
  (reads : ∀ {α : Type} (op : FileOp α),
    Keeps fixed op → Keeps view (onLoc op))

include reads

theorem keeps_locWalk (loc : List UInt8) (rounds : Nat) :
    Keeps view (locWalk loc rounds) := by
  induction rounds with
  | zero =>
      exact .stop _
  | succ rounds inductionHypothesis =>
      refine .bind (reads _ (keeps_buf KcnBuf.keeps_size_get64))
        fun _ => .ite (.pure _) (.bind (reads _ (keeps_seekHead _))
          fun _ => .ite ?_ (.pure _))
      refine .bind (reads _ (keeps_buf (KcnBuf.keeps_size_reset _)))
        fun _ => .bind (reads _ (keeps_ensure _)) fun _ =>
          .ite ?_ (.pure _)
      refine .bind (reads _ (keeps_buf KcnBuf.keeps_size_get16))
        fun _ => .bind (reads _ (keeps_ensure _)) fun _ =>
          .ite ?_ (.pure _)
      exact .bind (.gets _) fun _ => .ite (.pure _)
        (.bind (reads _ (keeps_buf (KcnBuf.keeps_size_forward _)))
          fun _ => inductionHypothesis)

theorem keeps_locFind (loc : List UInt8) : Keeps view (locFind loc) := by
  refine .bind (reads _ (keeps_buf (KcnBuf.keeps_size_reset _)))
    fun _ => .bind (reads _ (keeps_seekHead _)) fun _ =>
      .ite ?_ (.pure _)
  refine .bind (reads _ (keeps_ensure _)) fun _ => .ite ?_ (.pure _)
  exact .bind (reads _ (keeps_buf (KcnBuf.keeps_size_forward _)))
    fun _ => .bind (.gets _) fun _ => keeps_locWalk reads loc _

theorem keeps_locLookup
    (quiet : ∀ {α : Type} (op : Program Stop Env α),
      Keeps view (TableCtx.sys op))
    (idx : UInt64) :
    Keeps view (locLookup idx) := by
  refine .bind (.gets _) fun _ =>
    .ite (.bind (quiet _) fun _ => .pure _) ?_
  refine .bind (reads _ (keeps_buf (KcnBuf.keeps_size_reset _)))
    fun _ => .bind (reads _ (keeps_seekHead _)) fun _ =>
      .ite ?_ (.pure _)
  refine .bind (reads _ (keeps_ensure _)) fun _ => .ite ?_ (.pure _)
  exact .bind (reads _ (keeps_buf KcnBuf.keeps_size_get16))
    fun _ => .bind (reads _ (keeps_ensure _)) fun _ =>
      .ite (.bind (.gets _) fun _ => .pure _) (.pure _)

end Locator

theorem keeps_locFixed_locFind (loc : List UInt8) :
    Keeps locFixed (locFind loc) :=
  keeps_locFind (fun _ keeps => keeps_locFixed keeps) loc

section Writing

variable {γ : Type} {view : TableCtx → γ}

theorem keeps_locLink
    (writes : ∀ {α : Type} (op : FileOp α),
      Keeps bufSize op → Keeps view (onLoc op))
    (resize : ∀ (ctx : TableCtx) (size : Nat),
      view { ctx with base := { ctx.base with kdbLocsize := size } } =
        view ctx)
    (loc : List UInt8) (last : UInt64) :
    Keeps view (locLink loc last) := by
  have stores (data : List UInt8) :
      Keeps view (onLoc (buf (KcnBuf.store data))) :=
    writes _ (bufSize_of_fixed
      (keeps_buf (KcnBuf.keeps_size_store data)))
  refine .bind (.gets _) fun _ => .bind (.gets _) fun _ =>
    .bind (writes _ (bufSize_of_fixed
      (keeps_buf (KcnBuf.keeps_size_reset _)))) fun _ => ?_
  refine .bind (stores _) fun _ => .bind (stores _) fun _ =>
    .bind (stores _) fun _ => .bind (.gets _) fun _ =>
      .bind (writes _ keeps_append) fun _ => .ite ?_ (.pure _)
  refine .bind (.modify fun ctx => resize ctx _) fun _ =>
    .bind (stores _) fun _ =>
      .bind (writes _ (bufSize_of_fixed (keeps_seekHead _)))
        fun _ => .ite ?_ (.pure _)
  exact .bind (writes _ keeps_write) fun _ => .ite (.pure _) (.pure _)

theorem keeps_locAdd
    (writes : ∀ {α : Type} (op : FileOp α),
      Keeps bufSize op → Keeps view (onLoc op))
    (resize : ∀ (ctx : TableCtx) (size : Nat),
      view { ctx with base := { ctx.base with kdbLocsize := size } } =
        view ctx)
    (loc : List UInt8) :
    Keeps view (locAdd loc) := by
  refine .bind
    (keeps_locFind (fun op keeps => writes op (bufSize_of_fixed keeps))
      loc)
    fun found => ?_
  cases found with
  | failed | found _ =>
      exact .pure _
  | tail last =>
      exact keeps_locLink writes resize loc last

theorem keeps_recordRead
    (reads : ∀ {α : Type} (op : FileOp α),
      Keeps fixed op → Keeps view (onTable op)) :
    Keeps view recordRead := by
  have gets64 : Keeps view (onTable (buf KcnBuf.get64)) :=
    reads _ (keeps_buf KcnBuf.keeps_size_get64)
  refine .bind (reads _ (keeps_ensure _)) fun _ => .ite ?_ (.pure _)
  exact .bind gets64 fun _ => .bind gets64 fun _ =>
    .bind gets64 fun _ => .bind (.gets _) fun _ =>
      .bind (reads _ (keeps_buf (KcnBuf.keeps_size_trimHead _)))
        fun _ => .pure _

theorem keeps_recordReadLast
    (reads : ∀ {α : Type} (op : FileOp α),
      Keeps fixed op → Keeps view (onTable op)) :
    Keeps view recordReadLast :=
  .bind (.gets _) fun _ => .ite (.pure _)
    (.bind (reads _ (keeps_seekHead _)) fun _ =>
      .ite (keeps_recordRead reads) (.pure _))

theorem keeps_recordAppend
    (writes : ∀ {α : Type} (op : FileOp α),
      Keeps bufSize op → Keeps view (onTable op))
    (resize : ∀ (ctx : TableCtx) (size : Nat),
      view {
          ctx with base := { ctx.base with kdbTablesize := size } } =
        view ctx)
    (kdr : KcndbDbRecord) :
    Keeps view (recordAppend kdr) := by
  have stores (data : List UInt8) :
      Keeps view (onTable (buf (KcnBuf.store data))) :=
    writes _ (bufSize_of_fixed
      (keeps_buf (KcnBuf.keeps_size_store data)))
  exact .bind (stores _) fun _ => .bind (stores _) fun _ =>
    .bind (stores _) fun _ => .bind (writes _ keeps_append) fun _ =>
      .ite (.bind (.modify fun ctx => resize ctx _) fun _ => .pure _)
        (.pure _)

end Writing

section Call

variable {γ : Type} {view : TableCtx → γ}
  (onLocs : ∀ {α : Type} (op : FileOp α),
    Keeps bufSize op → Keeps view (onLoc op))
  (onTables : ∀ {α : Type} (op : FileOp α),
    Keeps bufSize op → Keeps view (onTable op))
  (quiet : ∀ {α : Type} (op : Program Stop Env α),
    Keeps view (TableCtx.sys op))
  (resize : ∀ (ctx : TableCtx) (locsize tablesize : Nat),
    view
        { ctx with
          base := {
            ctx.base with
            kdbLocsize := locsize, kdbTablesize := tablesize
          } } =
      view ctx)

include onLocs resize in
theorem keeps_locInit : Keeps view locInit := by
  refine .bind (.gets _) fun _ => .ite (.pure _) ?_
  refine .bind
    (onLocs _ (bufSize_of_fixed
      (keeps_buf (KcnBuf.keeps_size_store _)))) fun _ => ?_
  refine .bind (onLocs _ keeps_append) fun _ => .ite ?_ (.pure _)
  exact .bind (.modify fun ctx => resize ctx _ _) fun _ => .pure _

include onLocs resize in
theorem keeps_initLocsize : Keeps view initLocsize := by
  refine .bind (.gets _) fun _ => .ite ?_ (.pure _)
  refine .bind (onLocs _ (bufSize_of_fixed keeps_sizeGet)) ?_
  intro size
  cases size with
  | none =>
      exact .pure _
  | some size =>
      exact .bind (.modify fun ctx => resize ctx _ _) fun _ => .pure _

include onTables resize in
theorem keeps_initTablesize : Keeps view initTablesize := by
  refine .bind (.gets _) fun _ => .ite ?_ (.pure _)
  refine .bind (onTables _ (bufSize_of_fixed keeps_sizeGet)) ?_
  intro size
  cases size with
  | none =>
      exact .pure _
  | some size =>
      exact .bind (.modify fun ctx => resize ctx _ _) fun _ => .pure _

include onLocs onTables resize in
theorem keeps_init : Keeps view init :=
  .bind (keeps_initLocsize onLocs resize) fun _ =>
    .ite
      (.bind (keeps_initTablesize onTables resize) fun _ =>
        .ite (keeps_locInit onLocs resize) (.pure _))
      (.pure _)

include onLocs onTables quiet resize

/-- What `kcndb_db_record_add` keeps while it has the lock. -/
theorem keeps_recordAddLocked (kdr : KcndbDbRecord) :
    Keeps view (recordAddLocked kdr) := by
  refine .bind
    (keeps_recordReadLast fun _ keeps =>
      onTables _ (bufSize_of_fixed keeps)) ?_
  intro last
  cases last with
  | none =>
      exact .pure _
  | some kdr0 =>
      refine .ite (.bind (quiet _) fun _ => .pure _) ?_
      refine .bind
        (keeps_locAdd (fun op keeps => onLocs op keeps)
          (fun ctx _ => resize ctx _ _) _) ?_
      intro found
      cases found with
      | none =>
          exact .pure _
      | some idx =>
          exact .bind
            (keeps_recordAppend (fun op keeps => onTables op keeps)
              (fun ctx _ => resize ctx _ _) _)
            fun _ => .pure _

variable
  (hands : ∀ (ctx : TableCtx) (kdr : KcndbDbRecord),
    view { ctx with delivered := ctx.delivered ++ [kdr] } = view ctx)

include hands

omit onTables resize in
theorem keeps_visit (ke : KcnEq) (kdr : KcndbDbRecord) :
    Keeps view (visit ke kdr) := by
  have skips : Keeps view (operatorSkips ke kdr.kdrVal) := by
    unfold operatorSkips
    split <;> first | exact .pure _ | exact .stop _
  refine .ite (.bind skips fun _ => .ite (.pure _) ?_) (.pure _)
  refine .bind
    (keeps_locLookup
      (fun op keeps => onLocs op (bufSize_of_fixed keeps))
      (fun op => quiet op) _) ?_
  intro found
  cases found with
  | none =>
      exact .pure _
  | some loc =>
      refine .bind ?_ fun _ => .ite (.pure _) (.pure _)
      refine .bind (.modify fun ctx => hands ctx _) fun _ =>
        .bind (quiet _) ?_
      intro event
      cases event with
      | callback accepted =>
          exact .pure _
      | openFile _ | lock _ | stat _ | seek _ | read _ | write _ =>
          exact .stop _

omit resize in
theorem keeps_searchLoop
    (ke : KcnEq) (maxnlocs rounds n : Nat) :
    Keeps view (searchLoop ke maxnlocs rounds n) := by
  induction rounds generalizing n with
  | zero =>
      exact .stop _
  | succ rounds inductionHypothesis =>
      refine .ite (.bind (keeps_recordRead fun _ keeps =>
        onTables _ (bufSize_of_fixed keeps)) ?_) (.pure _)
      intro result
      cases result with
      | none =>
          exact .bind (.gets _) fun _ => .ite (.pure _) (.pure _)
      | some kdr =>
          refine .bind
            (keeps_visit onLocs quiet hands ke kdr) ?_
          intro outcome
          cases outcome with
          | skipped | delivered =>
              exact inductionHypothesis _
          | failed =>
              exact .pure _

omit resize in
/-- What `kcndb_db_search` keeps while it has the lock. -/
theorem keeps_searchLocked (ke : KcnEq) (maxnlocs : Nat) :
    Keeps view (searchLocked ke maxnlocs) := by
  refine .bind (onTables _ (bufSize_of_fixed (keeps_seekHead _)))
    fun _ => .ite ?_ (.pure _)
  refine .bind
    (onTables _ (bufSize_of_fixed
      (keeps_buf (KcnBuf.keeps_size_reset _)))) fun _ => ?_
  refine .bind (.gets _) fun _ =>
    .bind (keeps_searchLoop onLocs onTables quiet hands _ _ _ _)
      ?_
  intro result
  cases result with
  | none =>
      exact .pure _
  | some n =>
      exact .ite (.bind (quiet _) fun _ => .pure _) (.pure _)

end Call

end KcndbDb

end Kcn
