import Kcn.Db
import Kcn.FileRules

namespace Kcn

open Program Bytes KcnBuf

/-!
# Records of a table file

The 24 bytes of a record, and one rule for each operation that reads or writes
records.  All operations leave the cursor of the buffer at its start, so that
a thread's buffer holds whole or partial records it has read and not used.
-/

/-- The bytes of a record in the table file. -/
def encodeRecord (kdr : KcndbDbRecord) : List UInt8 :=
  bytes64 kdr.kdrTime.toUInt64 ++ bytes64 kdr.kdrVal ++
    bytes64 kdr.kdrLocidx

/-- The record that the code takes from the first 24 bytes of a string. -/
def decodeRecord (bytes : List UInt8) : KcndbDbRecord where
  kdrTime := (word64 (bytes.take 8)).toInt64
  kdrVal := word64 ((bytes.drop 8).take 8)
  kdrLocidx := word64 ((bytes.drop 16).take 8)
  kdrLoc := []

@[simp] theorem length_encodeRecord (kdr : KcndbDbRecord) :
    (encodeRecord kdr).length = KcndbDb.recordsiz :=
  rfl

/-- A stored record is read back, without its locator. -/
theorem decodeRecord_encodeRecord
    (kdr : KcndbDbRecord) (rest : List UInt8) :
    decodeRecord (encodeRecord kdr ++ rest) =
      { kdr with kdrLoc := [] } := by
  have timeEq :
      (encodeRecord kdr ++ rest).take 8 =
        bytes64 kdr.kdrTime.toUInt64 :=
    rfl
  have valEq :
      ((encodeRecord kdr ++ rest).drop 8).take 8 =
        bytes64 kdr.kdrVal :=
    rfl
  have locidxEq :
      ((encodeRecord kdr ++ rest).drop 16).take 8 =
        bytes64 kdr.kdrLocidx :=
    rfl
  unfold decodeRecord
  rw [timeEq, valEq, locidxEq]
  simp

/-- Only the first 24 bytes matter. -/
theorem decodeRecord_take (bytes : List UInt8) :
    decodeRecord (bytes.take KcndbDb.recordsiz) =
      decodeRecord bytes := by
  simp [decodeRecord, KcndbDb.recordsiz, List.take_take,
    List.drop_take]

/-- What follows a record does not matter. -/
theorem decodeRecord_append
    {bytes : List UInt8} (enough : KcndbDb.recordsiz ≤ bytes.length)
    (rest : List UInt8) :
    decodeRecord (bytes ++ rest) = decodeRecord bytes := by
  rw [← decodeRecord_take, List.take_append_of_le_length enough,
    decodeRecord_take]

namespace TableCtx

/--
An operation that only reads from the table file: the bytes `new` at its
offset were used.
-/
structure ReadsTable
    (ctx : TableCtx) (taken : Trace) (new : List UInt8)
    (ctx' : TableCtx) : Prop where
  took : ctx.env.Took Event.IsRead taken ctx'.env
  frame : ctx' = { ctx with table := ctx'.table, env := ctx'.env }
  content_eq : ctx'.table.content = ctx.table.content
  off_eq : ctx'.table.off = ctx.table.off + new.length
  new_eq : new = slice ctx.table.content ctx.table.off new.length

/-- What `kcndb_db_record_read` did. -/
inductive RecordRead (ctx ctx' : TableCtx) :
    Option KcndbDbRecord → Prop where
  | read (taken : Trace) (new : List UInt8) (sp : Nat) :
      ctx.ReadsTable taken new ctx' →
      Trace.Clean taken →
      KcndbDb.recordsiz ≤ (ctx.table.kb.after ++ new).length →
      (KcndbDb.recordsiz ≤ ctx.table.kb.after.length → new = []) →
      ctx'.table.kb.Holds ctx.table.kb.size sp []
        ((ctx.table.kb.after ++ new).drop KcndbDb.recordsiz) →
      (sp = ctx.table.kb.sp + KcndbDb.recordsiz ∨
        sp = KcndbDb.recordsiz ∧
          ctx.table.kb.size <
            ctx.table.kb.sp + KcndbDb.recordsiz) →
      RecordRead ctx ctx'
        (some (decodeRecord (ctx.table.kb.after ++ new)))
  | ended (taken : Trace) (new : List UInt8) (sp : Nat) :
      ctx.ReadsTable taken new ctx' →
      Trace.Clean taken →
      ctx'.env.errno = Errno.eshutdown →
      ctx'.table.content.length ≤ ctx'.table.off →
      (ctx.table.kb.after ++ new).length < KcndbDb.recordsiz →
      ctx'.table.kb.Holds ctx.table.kb.size sp []
        (ctx.table.kb.after ++ new) →
      sp = ctx.table.kb.sp ∨ sp = 0 →
      RecordRead ctx ctx' none
  | failed (taken : Trace) (new : List UInt8) (sp : Nat) :
      ctx.ReadsTable taken new ctx' →
      ¬ Trace.Clean taken →
      ctx'.env.errno ≠ Errno.eshutdown →
      (ctx.table.kb.after ++ new).length < KcndbDb.recordsiz →
      ctx'.table.kb.Holds ctx.table.kb.size sp []
        (ctx.table.kb.after ++ new) →
      sp = ctx.table.kb.sp ∨ sp = 0 →
      RecordRead ctx ctx' none

end TableCtx

namespace KcndbDb

open TableCtx FileCtx KcndbFile

variable {halt : Stop → Prop} {ctx : TableCtx}

/-- Three `kcn_buf_get64` calls take a record apart. -/
theorem wp_fetchRecord
    {kb : KcnBuf} {size sp : Nat} {after : List UInt8}
    {post : UInt64 → UInt64 → UInt64 → KcnBuf → Prop}
    (holds : kb.Holds size sp [] after)
    (enough : recordsiz ≤ after.length)
    (next : ∀ kb',
      kb'.Holds size sp (after.take recordsiz)
        (after.drop recordsiz) →
      post (word64 (after.take 8)) (word64 ((after.drop 8).take 8))
        (word64 ((after.drop 16).take 8)) kb') :
    wp get64
      (fun time => wp get64
        (fun val => wp get64 (fun locidx => post time val locidx)
          halt)
        halt)
      halt kb := by
  unfold recordsiz at enough next
  simp only [get64, wp_bind, wp_pure]
  refine wp_fetch holds ?_ (by omega)
  intro _ kb₁ holds₁
  refine wp_fetch holds₁ ?_ (by simp; omega)
  intro _ kb₂ holds₂
  refine wp_fetch holds₂ ?_ (by simp; omega)
  intro _ kb₃ holds₃
  have split :
      after.take (8 + 8 + 8) =
        [] ++ after.take 8 ++ (after.drop 8).take 8 ++
          ((after.drop 8).drop 8).take 8 := by
    rw [List.nil_append, List.take_add, List.take_add,
      List.drop_drop]
  have rest :
      after.drop (8 + 8 + 8) = ((after.drop 8).drop 8).drop 8 := by
    simp [List.drop_drop]
  rw [← split, ← rest] at holds₃
  rw [List.drop_drop]
  exact next kb₃ holds₃

/-- `kcndb_db_record_read` -/
theorem wp_recordRead
    {post : Option KcndbDbRecord → TableCtx → Prop}
    (starved : halt .starved)
    (atStart : ctx.table.kb.before = [])
    (fits : recordsiz ≤ ctx.table.kb.size)
    (next : ∀ result ctx',
      RecordRead ctx ctx' result → post result ctx') :
    wp recordRead post halt ctx := by
  unfold recordRead
  simp only [wp_bind, onTable, wp_zoom, wp_mapStop]
  refine wp_ensure starved
    (fun short => absurd fits (Nat.not_le_of_lt short)) ?_
  intro ok file taken new ensured
  have grown := ensured.grown
  have holds :
      file.file.kb.Holds ctx.table.kb.size file.file.kb.sp []
        (ctx.table.kb.after ++ new) :=
    ⟨grown.size_eq, rfl, grown.before_eq.trans atStart,
      grown.after_eq⟩
  have lenEq := holds.len_eq
  have reads :
      ∀ kb env, env.trace = file.env.trace →
        ctx.ReadsTable taken new
          { ctx with
            table := { file.file with kb := kb }
            env := env } := by
    intro kb env same
    refine ⟨⟨?_, grown.took.kinds⟩, rfl, grown.content_eq,
      grown.off_eq, grown.new_eq⟩
    rw [same]
    exact grown.took.trace_eq
  have startOf := ensured.start
  cases ok with
  | true =>
      obtain ⟨clean, enough⟩ := ensured.enough rfl
      have sizeLe := holds.le_size
      simp only [List.length_nil, Nat.zero_add] at lenEq sizeLe
      rw [lenEq] at enough
      simp only [↓reduceIte, wp_bind, wp_gets, wp_pure, wp_zoom,
        wp_mapStop, FileCtx.buf, tableLens, kbLens]
      refine wp_fetchRecord holds enough ?_
      intro kb₁ holds₁
      have used :
          ((ctx.table.kb.after ++ new).take recordsiz).length =
            recordsiz := by
        rw [List.length_take, Nat.min_eq_left enough]
      rw [holds₁.headingdata_eq]
      refine wp_trimHead_headingdata holds₁ ?_
      intro kb₂ holds₂
      rw [used] at holds₂
      have stays :
          recordsiz ≤ ctx.table.kb.after.length → new = [] := by
        intro already
        refine ensured.stays ?_
        have whole := (holds_self ctx.table.kb).len_eq
        rw [atStart, List.length_nil, Nat.zero_add] at whole
        exact whole ▸ already
      refine next _ _
        (.read taken new _ (reads kb₂ _ rfl) clean enough stays holds₂
          ?_)
      rcases startOf with same | ⟨moved, beyond⟩
      · exact Or.inl (congrArg (· + recordsiz) same)
      · refine Or.inr ⟨?_, beyond⟩
        rw [moved, Nat.zero_add]
  | false =>
      simp only [Bool.false_eq_true, ↓reduceIte, wp_pure]
      have startOf := startOf.imp_right And.left
      have below : (ctx.table.kb.after ++ new).length < recordsiz := by
        simpa [lenEq] using ensured.below rfl
      rcases ensured.short rfl with
          ⟨clean, errnoEq, atEnd⟩ | ⟨unclean, errnoNe⟩
      · exact next none _
          (.ended taken new _ (reads _ _ rfl) clean errnoEq atEnd
            below holds startOf)
      · exact next none _
          (.failed taken new _ (reads _ _ rfl) unclean errnoNe below
            holds startOf)

end KcndbDb

namespace TableCtx

/-- What `kcndb_db_record_read_last` did. -/
inductive LastRead (ctx ctx' : TableCtx) :
    Option KcndbDbRecord → Prop where
  | empty :
      ctx.base.kdbTablesize < KcndbDb.recordsiz →
      ctx' = ctx →
      LastRead ctx ctx'
        (some {
          kdrTime := 0
          kdrVal := 0
          kdrLocidx := 0
          kdrLoc := []
        })
  | refused (event : Event) :
      KcndbDb.recordsiz ≤ ctx.base.kdbTablesize →
      ctx.env.trace = event :: ctx'.env.trace →
      (event = .seek none ∧
          offMax < ctx.base.kdbTablesize - KcndbDb.recordsiz ∨
        ∃ error, event = .seek (some error)) →
      ctx' = { ctx with env := ctx'.env } →
      LastRead ctx ctx' none
  | read (env' : Env) (result : Option KcndbDbRecord) :
      KcndbDb.recordsiz ≤ ctx.base.kdbTablesize →
      ctx.env.trace = .seek none :: env'.trace →
      RecordRead
        { ctx with
          table := {
            ctx.table with
            off := ctx.base.kdbTablesize - KcndbDb.recordsiz
          }
          env := env' }
        ctx' result →
      LastRead ctx ctx' result

/-- What the end of `kcndb_db_record_add` did with the record it stores. -/
structure RecordAppended
    (ctx : TableCtx) (kdr : KcndbDbRecord) (ctx' : TableCtx)
    (ok : Bool) : Prop where
  frame :
    ctx' = {
      ctx with
      base := ctx'.base, table := ctx'.table, env := ctx'.env
    }
  base_eq :
    ctx'.base =
      if ok then
        { ctx.base with
          kdbTablesize := ctx.base.kdbTablesize + KcndbDb.recordsiz }
      else
        ctx.base
  appended :
    ∃ kb,
      kb.Holds ctx.table.kb.size ctx.table.kb.sp (encodeRecord kdr)
        (ctx.table.kb.after.drop KcndbDb.recordsiz) ∧
      KcndbFile.Appended
        { file := { ctx.table with kb := kb }, env := ctx.env }
        { file := ctx'.table, env := ctx'.env } ok

end TableCtx

namespace KcndbDb

open TableCtx FileCtx KcndbFile

variable {halt : Stop → Prop} {ctx : TableCtx}

/-- `kcndb_db_record_read_last` -/
theorem wp_recordReadLast
    {post : Option KcndbDbRecord → TableCtx → Prop}
    (starved : halt .starved)
    (atStart : ctx.table.kb.before = [])
    (fits : recordsiz ≤ ctx.table.kb.size)
    (next : ∀ result ctx',
      LastRead ctx ctx' result → post result ctx') :
    wp recordReadLast post halt ctx := by
  unfold recordReadLast
  rw [wp_bind, wp_gets, wp_ite]
  refine ⟨?_, ?_⟩
  · intro small
    rw [wp_pure]
    exact next _ ctx (.empty small rfl)
  · intro large
    have large : recordsiz ≤ ctx.base.kdbTablesize :=
      Nat.le_of_not_lt large
    rw [wp_bind, onTable, wp_zoom, wp_mapStop]
    refine wp_sysSeek starved ?_ ?_
    · intro env' _ shape
      refine wp_recordRead starved atStart fits ?_
      intro result ctx' outcome
      exact next result ctx' (.read env' result large shape outcome)
    · intro event env' shape refusal
      exact next none _ (.refused event large shape refusal rfl)

/-- The three `kcn_buf_put64` calls and `kcndb_file_append`. -/
theorem wp_recordAppend
    {post : Bool → TableCtx → Prop} {kdr : KcndbDbRecord}
    (starved : halt .starved)
    (atStart : ctx.table.kb.before = [])
    (overflow :
      ctx.table.kb.size < ctx.table.kb.sp + recordsiz →
        halt .tableAssertion)
    (next : ∀ ok ctx',
      RecordAppended ctx kdr ctx' ok → post ok ctx') :
    wp (recordAppend kdr) post halt ctx := by
  have holds := holds_self ctx.table.kb
  rw [atStart] at holds
  unfold recordsiz at overflow
  unfold recordAppend
  simp only [wp_bind, onTable, wp_zoom, wp_mapStop, FileCtx.buf,
    put64, tableLens, kbLens]
  refine wp_store holds ?_ (fun short => overflow ?_)
  · intro fits₁ kb₁ holds₁
    refine wp_store holds₁ ?_ (fun short => overflow ?_)
    · intro fits₂ kb₂ holds₂
      refine wp_store holds₂ ?_ (fun short => overflow ?_)
      · intro fits₃ kb₃ holds₃
        have shape :
            kb₃.Holds ctx.table.kb.size ctx.table.kb.sp
              (encodeRecord kdr)
              (ctx.table.kb.after.drop recordsiz) := by
          simpa [encodeRecord, recordsiz, List.drop_drop]
            using holds₃
        refine wp_append starved ?_
        intro ok file appended
        cases ok with
        | true =>
            simp only [↓reduceIte, wp_bind, setBase, wp_modify,
              wp_pure]
            exact next true _ ⟨rfl, rfl, kb₃, shape, appended⟩
        | false =>
            simp only [Bool.false_eq_true, ↓reduceIte, wp_pure]
            exact next false _ ⟨rfl, rfl, kb₃, shape, appended⟩
      · simp at short ⊢
        omega
    · simp at short ⊢
      omega
  · simp at short ⊢
    omega

end KcndbDb

end Kcn
