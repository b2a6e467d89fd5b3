import Kcn.Chain

namespace Kcn

open Program Bytes KcnBuf

/-!
# Appending an entry to the locator file

The second half of `kcndb_db_loc_add`: the entry is appended to the file, the
cached size grows, and the offset of the entry is stored at the place that the
walk left behind.
-/

/-- A new entry: the locator with its length, and a link that ends the chain. -/
def entryBytes (loc : List UInt8) : List UInt8 :=
  encodeLoc loc ++ bytes64 0

@[simp] theorem length_entryBytes (loc : List UInt8) :
    (entryBytes loc).length = 2 + loc.length + 8 := by
  simp [entryBytes]

namespace TableCtx

/--
What appending an entry and storing its offset at `off` did.  It fails with
the file as it was, with the entry appended and its offset not stored, or
after a torn transfer.
-/
inductive Linked (ctx : TableCtx) (off : UInt64) (loc : List UInt8) :
    Option UInt64 → TableCtx → Prop where
  | torn (ctx' : TableCtx) :
      ctx.env.trace.Torn →
      Linked ctx off loc none ctx'
  | unwritten (ctx' : TableCtx) :
      ctx'.loc.content = ctx.loc.content →
      ctx'.base.kdbLocsize = ctx.base.kdbLocsize →
      Linked ctx off loc none ctx'
  | unpatched (ctx' : TableCtx) :
      ctx'.loc.content = ctx.loc.content ++ entryBytes loc →
      ctx'.base.kdbLocsize =
        ctx.base.kdbLocsize + (entryBytes loc).length →
      Linked ctx off loc none ctx'
  | linked (ctx' : TableCtx) :
      ctx'.loc.content =
        writeAt (ctx.loc.content ++ entryBytes loc) off.toNat
          (bytes64 (UInt64.ofNat ctx.base.kdbLocsize)) →
      ctx'.base.kdbLocsize =
        ctx.base.kdbLocsize + (entryBytes loc).length →
      Linked ctx off loc
        (some (UInt64.ofNat ctx.base.kdbLocsize)) ctx'

end TableCtx

namespace KcndbDb

open TableCtx KcndbFile

variable {ctx : TableCtx} {loc : List UInt8}

/-- The buffer once the new entry was put into it. -/
theorem wp_putEntry
    {halt : Stop → Prop} {kb : KcnBuf} {post : Unit → KcnBuf → Prop}
    (holds : kb.Holds kcndbFileBufsiz 0 [] [])
    (overflow :
      kcndbFileBufsiz < (entryBytes loc).length → halt .assertion)
    (next : ∀ kb',
      kb'.Holds kcndbFileBufsiz 0 (entryBytes loc) [] →
      post () kb') :
    wp (put16 (UInt16.ofNat loc.length))
      (fun _ => wp (put loc) (fun _ => wp (put64 0) post halt) halt)
      halt kb := by
  rw [length_entryBytes] at overflow
  refine wp_store holds ?_ (fun beyond => overflow ?_)
  · intro _ kb₁ holds₁
    refine wp_store holds₁ ?_ (fun beyond => overflow ?_)
    · intro _ kb₂ holds₂
      refine wp_store holds₂ ?_ (fun beyond => overflow ?_)
      · intro _ kb₃ holds₃
        refine next kb₃ ?_
        simpa [entryBytes, encodeLoc] using holds₃
      · simp at beyond
        omega
    · simp at beyond
      omega
  · simp at beyond
    omega

/--
The entry is put into the buffer and appended to the file: this fails with the
file as it was or after a torn transfer, or the buffer is empty afterwards.
-/
theorem wp_appendEntry
    {α : Type} {halt : Stop → Prop} {post : α → TableCtx → Prop}
    {missing : α} {use : Nat → TableOp α}
    (starved : halt .starved)
    (overflow :
      kcndbFileBufsiz < (entryBytes loc).length → halt .assertion)
    (sizeEq : ctx.loc.kb.size = kcndbFileBufsiz)
    (torn : ∀ ctx', ctx.env.trace.Torn → post missing ctx')
    (unwritten : ∀ ctx',
      (¬ Trace.Clean ctx.env.trace ∨ offMax < ctx.loc.content.length) →
      ctx'.loc.content = ctx.loc.content →
      ctx'.base = ctx.base →
      post missing ctx')
    (appended : ∀ ctx' taken,
      ctx.env.trace = taken ++ ctx'.env.trace →
      ctx'.loc.content = ctx.loc.content ++ entryBytes loc →
      ctx'.base = ctx.base →
      ctx'.loc.kb.Holds kcndbFileBufsiz 0 [] [] →
      wp (use (entryBytes loc).length) post halt ctx') :
    wp (do
        onLoc (FileCtx.buf (reset 0))
        onLoc (FileCtx.buf (put16 (UInt16.ofNat loc.length)))
        onLoc (FileCtx.buf (put loc))
        onLoc (FileCtx.buf (put64 0))
        let len ← gets fun ctx => ctx.loc.kb.len
        if ← onLoc append then
          use len
        else
          pure missing)
      post halt ctx := by
  simp only [wp_bind, wp_gets, onLoc, wp_zoom, FileCtx.buf]
  simp only [locLens, FileCtx.kbLens]
  refine wp_reset (holds_self _) (Nat.zero_le _) ?_
  intro kb empty
  rw [sizeEq] at empty
  refine wp_putEntry empty overflow ?_
  intro kb₁ holds₁
  have dataEq : kb₁.data = entryBytes loc := by
    rw [holds₁.data_eq, List.append_nil]
  have lenEq : kb₁.len = (entryBytes loc).length := by
    rw [← length_data, dataEq]
  refine wp_append starved ?_
  intro ok ctx₂ done
  cases done with
  | refused event shape refusal fileEq =>
      simp only [Bool.false_eq_true, ↓reduceIte, wp_pure]
      refine unwritten _ ?_ (by rw [fileEq]) rfl
      rcases refusal with ⟨_, beyond⟩ | ⟨error, rfl⟩
      · exact Or.inr beyond
      · have shape : ctx.env.trace = _ := shape
        rw [shape]
        exact Or.inl (by simp [Trace.Clean, Event.Fails])
  | written ok env₁ taken count _ shape written =>
      have start : ctx.env.trace = [.seek none] ++ env₁.trace := shape
      cases ok with
      | false =>
          simp only [Bool.false_eq_true, ↓reduceIte, wp_pure]
          rcases written.unchanged_or_torn with same | tornLater
          · refine unwritten _ (Or.inl ?_) (by rw [same]) rfl
            rw [start, written.took.trace_eq]
            exact fun clean => (written.failed rfl).1
              (Trace.clean_append.mp (Trace.clean_append.mp clean).2).1
          · refine torn _ ?_
            rw [start]
            exact tornLater.append_left _
      | true =>
          obtain ⟨_, countEq, drained⟩ := written.done rfl
          simp only [holds₁.size_eq] at drained
          rw [if_pos rfl, lenEq]
          refine appended _ ([.seek none] ++ taken) ?_ ?_ rfl drained
          · rw [start, written.took.trace_eq, List.append_assoc]
          · rw [written.content_eq, countEq]
            simp only
            rw [← length_data, List.take_length, dataEq,
              writeAt_length]

/-- A new offset is stored in the file, from an empty buffer. -/
theorem wp_storeOffset
    {halt : Stop → Prop} {post : Option UInt64 → TableCtx → Prop}
    {off : Nat} {idx : UInt64}
    (starved : halt .starved)
    (drained : ctx.loc.kb.Holds kcndbFileBufsiz 0 [] [])
    (torn : ∀ ctx', ctx.env.trace.Torn → post none ctx')
    (unstored : ∀ ctx',
      (¬ Trace.Clean ctx.env.trace ∨ offMax < off) →
      ctx'.loc.content = ctx.loc.content →
      ctx'.base = ctx.base →
      post none ctx')
    (stored : ∀ ctx',
      ctx'.loc.content = writeAt ctx.loc.content off (bytes64 idx) →
      ctx'.base = ctx.base →
      post (some idx) ctx') :
    wp (do
        onLoc (FileCtx.buf (put64 idx))
        if ← onLoc (seekHead off) then
          if ← onLoc write then
            pure (some idx)
          else
            pure none
        else
          pure none)
      post halt ctx := by
  simp only [wp_bind, onLoc, wp_zoom, FileCtx.buf]
  simp only [locLens, FileCtx.kbLens]
  refine wp_store drained ?_ ?_
  · intro _ kb holds
    simp only [List.nil_append, List.drop_nil] at holds
    refine wp_sysSeek starved ?_ ?_
    · intro env₁ _ shape
      have start : ctx.env.trace = [.seek none] ++ env₁.trace := shape
      simp only [↓reduceIte, wp_bind, wp_zoom]
      refine wp_write starved ?_
      intro ok ctx₂ taken count written
      cases ok with
      | false =>
          simp only [Bool.false_eq_true, ↓reduceIte, wp_pure]
          rcases written.unchanged_or_torn with same | tornLater
          · refine unstored _ (Or.inl ?_) (by rw [same]) rfl
            rw [start, written.took.trace_eq]
            exact fun clean => (written.failed rfl).1
              (Trace.clean_append.mp (Trace.clean_append.mp clean).2).1
          · refine torn _ ?_
            rw [start]
            exact tornLater.append_left _
      | true =>
          simp only [↓reduceIte, wp_pure]
          have contentEq := written.content_eq
          rw [(written.done rfl).2.1] at contentEq
          simp only at contentEq
          rw [← length_data, List.take_length, holds.data_eq,
            List.append_nil] at contentEq
          exact stored _ contentEq rfl
    · intro event env₁ shape refusal
      simp only [Bool.false_eq_true, ↓reduceIte, wp_pure]
      refine unstored _ ?_ rfl rfl
      rcases refusal with ⟨_, beyond⟩ | ⟨error, rfl⟩
      · exact Or.inr beyond
      · have shape : ctx.env.trace = _ := shape
        rw [shape]
        exact Or.inl (by simp [Trace.Clean, Event.Fails])
  · intro beyond
    rw [List.length_nil, length_bytes64] at beyond
    exact absurd beyond (by decide)

/-- The append of `kcndb_db_loc_add` and the store of the new offset. -/
theorem wp_locLink_cases
    {halt : Stop → Prop} {post : Option UInt64 → TableCtx → Prop}
    {last : UInt64}
    (starved : halt .starved)
    (overflow :
      kcndbFileBufsiz < (entryBytes loc).length → halt .assertion)
    (sizeEq : ctx.loc.kb.size = kcndbFileBufsiz)
    (torn : ∀ ctx', ctx.env.trace.Torn → post none ctx')
    (unwritten : ∀ ctx',
      (¬ Trace.Clean ctx.env.trace ∨ offMax < ctx.loc.content.length) →
      ctx'.loc.content = ctx.loc.content →
      ctx'.base.kdbLocsize = ctx.base.kdbLocsize →
      post none ctx')
    (unpatched : ∀ ctx',
      (¬ Trace.Clean ctx.env.trace ∨
        offMax <
          (last + UInt64.ofNat ctx.loc.kb.headingdata - 8).toNat) →
      ctx'.loc.content = ctx.loc.content ++ entryBytes loc →
      ctx'.base.kdbLocsize =
        ctx.base.kdbLocsize + (entryBytes loc).length →
      post none ctx')
    (linked : ∀ ctx',
      ctx'.loc.content =
        writeAt (ctx.loc.content ++ entryBytes loc)
          (last + UInt64.ofNat ctx.loc.kb.headingdata - 8).toNat
          (bytes64 (UInt64.ofNat ctx.base.kdbLocsize)) →
      ctx'.base.kdbLocsize =
        ctx.base.kdbLocsize + (entryBytes loc).length →
      post (some (UInt64.ofNat ctx.base.kdbLocsize)) ctx') :
    wp (locLink loc last) post halt ctx := by
  unfold locLink
  rw [wp_bind, wp_gets, wp_bind, wp_gets]
  refine wp_appendEntry starved overflow sizeEq torn ?_ ?_
  · intro ctx' reasons same base
    exact unwritten ctx' reasons same (by rw [base])
  · intro ctx₁ taken shape contentEq baseEq drained
    rw [wp_bind, setBase, wp_modify]
    refine wp_storeOffset starved drained ?_ ?_ ?_
    · intro ctx' tornLater
      refine torn ctx' ?_
      rw [shape]
      exact tornLater.append_left _
    · intro ctx' reasons same base
      refine unpatched ctx' (reasons.imp_left ?_)
        (same.trans contentEq) (by rw [base, baseEq])
      rw [shape]
      exact fun unclean clean =>
        unclean (Trace.clean_append.mp clean).2
    · intro ctx' stored base
      rw [contentEq] at stored
      exact linked ctx' stored (by rw [base, baseEq])

/-- What `kcndb_db_loc_add` does after its loop. -/
theorem wp_locLink
    {last : UInt64}
    (sizeEq : ctx.loc.kb.size = kcndbFileBufsiz) :
    wp (locLink loc last)
      (Linked ctx
        (last + UInt64.ofNat ctx.loc.kb.headingdata - 8) loc)
      (fun _ => True) ctx :=
  wp_locLink_cases trivial (fun _ => trivial) sizeEq
    (fun ctx' torn => .torn ctx' torn)
    (fun ctx' _ content locsize => .unwritten ctx' content locsize)
    (fun ctx' _ content locsize => .unpatched ctx' content locsize)
    fun ctx' content locsize => .linked ctx' content locsize

end KcndbDb

end Kcn
