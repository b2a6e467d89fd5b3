import Kcn.Db
import Kcn.Msg
import Kcn.Window

namespace Kcn

open Program Bytes KcnBuf

/-!
# The bytes of a locator file

A locator file starts with 256 slots of eight bytes.  An entry is a length, the
locator and a link of eight bytes; slots and links hold the offset of the next
entry, or zero.
-/

/-- The slot or link at an offset. -/
def slotAt (content : List UInt8) (off : Nat) : UInt64 :=
  word64 (slice content off 8)

/-- The length stored at the head of an entry. -/
def lenAt (content : List UInt8) (idx : Nat) : Nat :=
  (word16 (slice content idx 2)).toNat

/-- The locator of the entry at an offset. -/
def locAt (content : List UInt8) (idx : Nat) : List UInt8 :=
  slice content (idx + 2) (lenAt content idx)

/-- Where the entry at an offset keeps its link. -/
def linkOff (content : List UInt8) (idx : Nat) : Nat :=
  idx + 2 + lenAt content idx

/-- A locator with its length in front, as an entry stores it. -/
def encodeLoc (loc : List UInt8) : List UInt8 :=
  bytes16 (UInt16.ofNat loc.length) ++ loc

@[simp] theorem length_encodeLoc (loc : List UInt8) :
    (encodeLoc loc).length = 2 + loc.length := by
  simp [encodeLoc]

/-- The file has a complete entry with the given locator at an offset. -/
structure Entry
    (content : List UInt8) (idx : Nat) (loc : List UInt8) : Prop where
  short : loc.length ≤ kcnMsgMaxlocsiz
  stored : slice content idx (2 + loc.length) = encodeLoc loc
  inside : idx + 2 + loc.length + 8 ≤ content.length

namespace Entry

variable {content : List UInt8} {idx : Nat} {loc : List UInt8}

theorem lenAt_eq (entry : Entry content idx loc) :
    lenAt content idx = loc.length := by
  have short := entry.short
  have header := congrArg (List.take 2) entry.stored
  rw [slice, List.take_take, Nat.min_eq_left (by omega)] at header
  have size :
      (UInt16.ofNat loc.length).toNat = loc.length := by
    rw [UInt16.toNat_ofNat']
    have : kcnMsgMaxlocsiz < 2 ^ 16 := by decide
    omega
  have head :
      (encodeLoc loc).take 2 = bytes16 (UInt16.ofNat loc.length) :=
    rfl
  rw [lenAt, slice, header, head, word16_bytes16, size]

theorem locAt_eq (entry : Entry content idx loc) :
    locAt content idx = loc := by
  have stored := entry.stored
  rw [slice_add] at stored
  have inside := entry.inside
  rw [locAt, entry.lenAt_eq]
  exact
    (List.append_inj stored (by rw [length_slice]; simp; omega)).2

theorem linkOff_eq (entry : Entry content idx loc) :
    linkOff content idx = idx + 2 + loc.length := by
  rw [linkOff, entry.lenAt_eq]

/-- Entries only depend on their bytes. -/
theorem of_slice_eq
    {content' : List UInt8} (entry : Entry content idx loc)
    (same :
      slice content' idx (2 + loc.length) =
        slice content idx (2 + loc.length))
    (grown : content.length ≤ content'.length) :
    Entry content' idx loc :=
  ⟨entry.short, same.trans entry.stored,
    Nat.le_trans entry.inside grown⟩

/-- Appending to the file keeps the entry. -/
theorem append
    (entry : Entry content idx loc) (new : List UInt8) :
    Entry (content ++ new) idx loc := by
  have inside := entry.inside
  refine entry.of_slice_eq ?_ (by simp)
  rw [slice_append_left _ _ _ _ (by omega)]

/-- Storing elsewhere keeps the entry. -/
theorem overwrite
    (entry : Entry content idx loc) {off : Nat} {new : List UInt8}
    (within : off + new.length ≤ content.length)
    (disjoint : off + new.length ≤ idx) :
    Entry (overwrite content off new) idx loc := by
  refine entry.of_slice_eq ?_ ?_
  · rw [slice_overwrite_disjoint _ _ _ _ _ (by omega)
      (Or.inr disjoint)]
  · rw [length_overwrite _ _ _ (by omega)]
    omega

end Entry

namespace TableCtx

/-- An operation that only moved through the locator file. -/
structure LocReads (ctx : TableCtx) (taken : Trace) (ctx' : TableCtx) :
    Prop where
  trace_eq : ctx.env.trace = taken ++ ctx'.env.trace
  frame : ctx' = { ctx with loc := ctx'.loc, env := ctx'.env }
  content_eq : ctx'.loc.content = ctx.loc.content

theorem LocReads.trans
    {ctx ctx' ctx'' : TableCtx} {taken later : Trace}
    (first : ctx.LocReads taken ctx')
    (second : ctx'.LocReads later ctx'') :
    ctx.LocReads (taken ++ later) ctx'' where
  trace_eq := by
    rw [first.trace_eq, second.trace_eq, List.append_assoc]
  frame := by
    have outer := second.frame
    rw [first.frame] at outer
    exact outer
  content_eq := second.content_eq.trans first.content_eq

/-- The cursor is behind the length of the entry at an offset. -/
structure AtEntry
    (ctx : TableCtx) (idx : Nat) (len : UInt16)
    (before after : List UInt8) : Prop where
  len_eq : len.toNat = lenAt ctx.loc.content idx
  window : ctx.loc.Window idx before after
  before_length : before.length = 2

/-- As many bytes as an entry was asked for were read, and its length. -/
structure ReadEntry
    (ctx : TableCtx) (idx extra : Nat) (taken : Trace) (len : UInt16)
    (before after : List UInt8) (ctx' : TableCtx) : Prop where
  reads : ctx.LocReads taken ctx'
  atEntry : ctx'.AtEntry idx len before after
  enough :
    max 2 (lenAt ctx.loc.content idx + extra) ≤ 2 + after.length

/-- The bytes at the cursor are the locator, as far as they were read. -/
theorem AtEntry.stored
    {ctx : TableCtx} {idx : Nat} {len : UInt16}
    {before after : List UInt8}
    (atEntry : ctx.AtEntry idx len before after)
    (covered : lenAt ctx.loc.content idx ≤ after.length) :
    slice ctx.loc.kb.bytes ctx.loc.kb.cp
        (lenAt ctx.loc.content idx) =
      locAt ctx.loc.content idx := by
  have window := atEntry.window
  rw [window.holds.slice_after covered, window.take_after covered,
    atEntry.before_length]
  rfl

/-- What `kcndb_db_loc_lookup` did. -/
inductive LookedUp (ctx : TableCtx) (idx : UInt64) :
    Option (List UInt8) → TableCtx → Prop where
  | absent (ctx' : TableCtx) :
      ctx.base.kdbLocsize < idx.toNat →
      LookedUp ctx idx none ctx'
  | refused (ctx' : TableCtx) (event : Event) :
      ctx.env.trace = event :: ctx'.env.trace →
      (event = .seek none ∧ offMax < idx.toNat ∨
        ∃ error, event = .seek (some error)) →
      LookedUp ctx idx none ctx'
  | failed (ctx' : TableCtx) (taken : Trace) :
      ctx.env.trace = .seek none :: (taken ++ ctx'.env.trace) →
      ¬ Trace.Clean taken →
      LookedUp ctx idx none ctx'
  | ended (ctx' : TableCtx) (taken : Trace) :
      ctx.env.trace = .seek none :: (taken ++ ctx'.env.trace) →
      Trace.Clean taken →
      ctx.loc.content.length <
        idx.toNat + max 2 (lenAt ctx.loc.content idx.toNat) →
      LookedUp ctx idx none ctx'
  | found (ctx' : TableCtx) (taken : Trace) (loc : List UInt8) :
      idx.toNat ≤ ctx.base.kdbLocsize →
      idx.toNat ≤ offMax →
      ctx.env.trace = .seek none :: (taken ++ ctx'.env.trace) →
      (∀ event ∈ taken, event.IsRead) →
      Trace.Clean taken →
      idx.toNat + max 2 (lenAt ctx.loc.content idx.toNat) ≤
        ctx.loc.content.length →
      max 2 (lenAt ctx.loc.content idx.toNat) ≤
        Trace.moved
          (min kcndbFileBufsiz (ctx.loc.content.length - idx.toNat))
          taken →
      (2 + lenAt ctx.loc.content idx.toNat ≤
          Trace.moved
            (min kcndbFileBufsiz
              (ctx.loc.content.length - idx.toNat))
            taken →
        loc = locAt ctx.loc.content idx.toNat) →
      LookedUp ctx idx (some loc) ctx'

end TableCtx

namespace KcndbDb

open TableCtx KcndbFile

variable {halt : Stop → Prop} {ctx : TableCtx}

/-- A reset and a seek leave an empty window at the offset. -/
theorem wp_resetSeek
    {α : Type} {post : α → TableCtx → Prop} {off : Nat}
    {use : Bool → TableOp α}
    (starved : halt .starved)
    (sizeEq : ctx.loc.kb.size = kcndbFileBufsiz)
    (sought : ∀ ctx',
      off ≤ offMax →
      ctx.LocReads [.seek none] ctx' →
      ctx'.loc.Window off [] [] →
      wp (use true) post halt ctx')
    (refused : ∀ ctx' event,
      ctx.LocReads [event] ctx' →
      (event = .seek none ∧ offMax < off ∨
        ∃ error, event = .seek (some error)) →
      wp (use false) post halt ctx') :
    wp (do
        onLoc (FileCtx.buf (reset 0))
        let ok ← onLoc (seekHead off)
        use ok)
      post halt ctx := by
  simp only [wp_bind, onLoc, wp_zoom, FileCtx.buf]
  refine wp_reset (holds_self _) (Nat.zero_le _) ?_
  intro kb empty
  simp only [locLens, FileCtx.kbLens] at empty ⊢
  rw [sizeEq] at empty
  refine wp_sysSeek starved ?_ ?_
  · intro env fits shape
    exact sought _ fits ⟨shape, rfl, rfl⟩ ⟨empty, by simp, by simp⟩
  · intro event env shape refusal
    exact refused _ event ⟨shape, rfl, rfl⟩ refusal

/--
Reading an entry into an empty window: its length, and then as much as
`kcndb_file_ensure` is asked for.
-/
theorem wp_readEntry
    {α : Type} {post : α → TableCtx → Prop} {missing : α}
    {idx : Nat} (extra : Nat) {use : UInt16 → TableOp α}
    (window : ctx.loc.Window idx [] [])
    (starved : halt .starved)
    (overflow :
      kcndbFileBufsiz < lenAt ctx.loc.content idx + extra →
        halt .assertion)
    (read : ∀ ctx' taken len before after,
      ctx.ReadEntry idx extra taken len before after ctx' →
      (∀ event ∈ taken, event.IsRead) →
      Trace.Clean taken →
      2 + after.length =
        Trace.moved
          (min kcndbFileBufsiz (ctx.loc.content.length - idx)) taken →
      wp (use len) post halt ctx')
    (failed : ∀ ctx' taken,
      ctx.LocReads taken ctx' → ¬ Trace.Clean taken → post missing ctx')
    (ended : ∀ ctx' taken,
      ctx.LocReads taken ctx' → Trace.Clean taken →
      ctx.loc.content.length <
        idx + max 2 (lenAt ctx.loc.content idx + extra) →
      post missing ctx') :
    wp (do
        if ← onLoc (ensure 2) then
          let len ← onLoc (FileCtx.buf get16)
          if ← onLoc (ensure (len.toNat + extra)) then
            use len
          else
            pure missing
        else
          pure missing)
      post halt ctx := by
  simp only [wp_bind, onLoc, wp_zoom, FileCtx.buf]
  simp only [locLens, FileCtx.kbLens]
  refine wp_ensure_window window starved
    (fun beyond => absurd beyond (by decide)) ?_ ?_ ?_
  · intro ctx₁ taken new took clean contentEq window₁ enough amount
    simp only [List.nil_append, List.length_nil, Nat.zero_add,
      Nat.add_zero, Nat.sub_zero] at enough amount window₁
    simp only [↓reduceIte, wp_bind, wp_zoom]
    refine wp_window_get16 window₁ ?_ (by omega)
    intro _ kb window₂
    have lenEq :
        (word16 (slice ctx₁.file.content idx 2)).toNat =
          lenAt ctx.loc.content idx := by
      rw [contentEq]
      rfl
    have head : (new.take 2).length = 2 := by
      rw [List.length_take]
      omega
    have reads {later : Trace} {ctx₃ : FileCtx}
        (took₃ : ctx₁.env.Took Event.IsRead later ctx₃.env)
        (contentEq₃ : ctx₃.file.content = ctx₁.file.content) :
        ctx.LocReads (taken ++ later)
          { ctx with loc := ctx₃.file, env := ctx₃.env } :=
      ⟨(took.trans took₃).trace_eq, rfl, contentEq₃.trans contentEq⟩
    simp only [List.length_nil, Nat.add_zero, lenEq]
    refine wp_ensure_window window₂ starved overflow ?_ ?_ ?_
    · intro ctx₃ later new₃ took₃ clean₃ contentEq₃ window₃ enough₃
        amount₃
      simp only [List.nil_append, head] at window₃ enough₃ amount₃
      rw [if_pos rfl]
      have content₃ : ctx₃.file.content = ctx.loc.content :=
        contentEq₃.trans contentEq
      refine read _ (taken ++ later) _ _ _
        ⟨reads took₃ contentEq₃, ⟨?_, window₃, head⟩, by omega⟩
        (took.trans took₃).kinds
        (Trace.clean_append.mpr ⟨clean, clean₃⟩) ?_
      · simp only [content₃]
        exact lenEq
      · have limit :
            min (kcndbFileBufsiz - (2 + (new.length - 2)))
                (ctx₁.file.content.length -
                  (idx + (2 + (new.length - 2)))) =
              min kcndbFileBufsiz (ctx.loc.content.length - idx) -
                new.length := by
          rw [contentEq]
          simp only
          omega
        rw [List.length_drop, limit] at amount₃
        rw [Trace.moved_append, ← amount, ← amount₃,
          List.length_append, List.length_drop]
        omega
    · intro ctx₃ later took₃ clean₃ contentEq₃ beyond
      rw [if_neg Bool.false_ne_true, wp_pure]
      rw [contentEq] at beyond
      refine ended _ (taken ++ later) (reads took₃ contentEq₃)
        (Trace.clean_append.mpr ⟨clean, clean₃⟩) ?_
      simp only at beyond
      omega
    · intro ctx₃ later took₃ unclean contentEq₃
      rw [if_neg Bool.false_ne_true, wp_pure]
      exact failed _ (taken ++ later) (reads took₃ contentEq₃)
        fun both => unclean (Trace.clean_append.mp both).2
  · intro ctx₁ taken took clean contentEq beyond
    simp only [Bool.false_eq_true, ↓reduceIte, wp_pure]
    refine ended _ taken ⟨took.trace_eq, rfl, contentEq⟩ clean ?_
    simp only at beyond
    omega
  · intro ctx₁ taken took unclean contentEq
    simp only [Bool.false_eq_true, ↓reduceIte, wp_pure]
    exact failed _ taken ⟨took.trace_eq, rfl, contentEq⟩ unclean

/-- `kcndb_db_loc_lookup` -/
theorem wp_locLookup
    {post : Option (List UInt8) → TableCtx → Prop} {idx : UInt64}
    (starved : halt .starved)
    (overflow :
      kcndbFileBufsiz < lenAt ctx.loc.content idx.toNat →
        halt .assertion)
    (sizeEq : ctx.loc.kb.size = kcndbFileBufsiz)
    (next : ∀ result ctx',
      LookedUp ctx idx result ctx' → post result ctx') :
    wp (locLookup idx) post halt ctx := by
  unfold locLookup
  rw [wp_bind, wp_gets, wp_ite]
  refine ⟨?_, ?_⟩
  · intro beyond
    simp only [wp_bind, TableCtx.sys, wp_zoom, Env.setErrno,
      wp_modify, wp_pure]
    exact next none _ (.absent _ beyond)
  · intro known
    refine wp_resetSeek starved sizeEq ?_ ?_
    · intro ctx₁ fits sought window
      have contentEq := sought.content_eq
      rw [if_pos rfl]
      refine wp_readEntry 0 window starved ?_ ?_ ?_ ?_
      · rw [contentEq]
        exact overflow
      · intro ctx₂ taken len before after entry kinds clean total
        have reads := sought.trans entry.reads
        have inside := entry.atEntry.window.inside
        have enough := entry.enough
        have head := entry.atEntry.before_length
        rw [reads.content_eq] at inside
        rw [contentEq] at enough total
        rw [wp_bind, wp_gets, wp_pure, entry.atEntry.len_eq]
        refine next _ _
          (.found _ taken _ (Nat.le_of_not_lt known) fits
            reads.trace_eq kinds clean (by omega) (by omega) ?_)
        intro covered
        have stored := entry.atEntry.stored
        rw [reads.content_eq] at stored ⊢
        exact stored (by omega)
      · intro ctx₂ taken reads unclean
        exact next none _
          (.failed _ taken (sought.trans reads).trace_eq unclean)
      · intro ctx₂ taken reads clean beyond
        rw [contentEq] at beyond
        exact next none _
          (.ended _ taken (sought.trans reads).trace_eq clean beyond)
    · intro ctx₁ event reads refusal
      exact next none _ (.refused _ event reads.trace_eq refusal)

end KcndbDb

end Kcn
