import Kcn.LocAdd

namespace Kcn

open Program Bytes KcnBuf

/-!
# Calls that get their answers

The rules so far allow a call to starve.  Here the next answers are known, so
that a call can be shown to return: seeks succeed, and one read fills the
window.
-/

/-- No answer is an error, and no read is cut short. -/
def Trace.Undisturbed (trace : Trace) : Prop :=
  Trace.Clean trace ∧ ∀ event ∈ trace, event.ReadsFull

namespace Trace

theorem Undisturbed.tail
    {event : Event} {rest : Trace}
    (undisturbed : Undisturbed (event :: rest)) :
    Undisturbed rest := by
  obtain ⟨clean, full⟩ := undisturbed
  exact ⟨fun event member => clean event (by simp [member]),
    fun event member => full event (by simp [member])⟩

theorem Undisturbed.of_append_right
    {first second : Trace} (undisturbed : Undisturbed (first ++ second)) :
    Undisturbed second := by
  obtain ⟨clean, full⟩ := undisturbed
  exact ⟨(clean_append.mp clean).2,
    fun event member => full event (by simp [member])⟩

/-- Reads that are not cut short move all there is if they move something. -/
theorem Undisturbed.moved_eq
    {first second : Trace} (undisturbed : Undisturbed (first ++ second))
    {limit : Nat} (some : 0 < moved limit first) :
    moved limit first = limit := by
  obtain ⟨clean, full⟩ := undisturbed
  rcases moved_of_full (clean_append.mp clean).1
      (fun event member => full event (by simp [member])) limit with
    none | all
  · omega
  · exact all

end Trace

namespace Env

variable {halt : Stop → Prop} {env : Env} {rest : Trace}

theorem wp_next_answered
    {post : Event → Env → Prop} {event : Event}
    (answer : env.trace = event :: rest)
    (answered : post event { env with trace := rest }) :
    wp next post halt env := by
  unfold wp next
  rw [answer]
  exact answered

/-- A call that is not interrupted is not repeated. -/
theorem wp_skip_answered
    {post : Unit → Env → Prop} {event interrupted : Event}
    (answer : env.trace = event :: rest)
    (fresh : event ≠ interrupted)
    (answered : post () env) :
    wp (skip interrupted) post halt env := by
  rw [skip, wp_modify, answer, List.head?_cons,
    if_neg (by simpa using fresh)]
  exact answered

end Env

namespace KcndbFile

open FileCtx

variable {halt : Stop → Prop} {ctx : FileCtx} {rest : Trace}
  {base : Nat} {before after : List UInt8}

theorem wp_sysSeek_answered
    {post : Bool → FileCtx → Prop} {off : Nat}
    (answer : ctx.env.trace = .seek none :: rest)
    (fits : off ≤ offMax)
    (next :
      post true
        { file := { ctx.file with off := off }
          env := { ctx.env with trace := rest } }) :
    wp (sysSeek off) post halt ctx := by
  unfold sysSeek
  rw [wp_bind, sys, wp_zoom]
  refine Env.wp_next_answered answer ?_
  simp only [fits, ↓reduceIte, wp_bind, wp_modify, wp_pure]
  exact next

/-- A read that moves bytes as told. -/
theorem wp_sysRead_answered
    {post : Except Errno (List UInt8) → FileCtx → Prop} {space : Nat}
    {transfer : Transfer}
    (answer : ctx.env.trace = .read transfer :: rest)
    (succeeds : ∀ error, transfer ≠ .fail error)
    (next :
      let here :=
        slice ctx.file.content ctx.file.off
          (transfer.amount
            (min space (ctx.file.content.length - ctx.file.off)))
      post (.ok here)
        { file := { ctx.file with off := ctx.file.off + here.length }
          env := { ctx.env with trace := rest } }) :
    wp (sysRead space) post halt ctx := by
  have fresh : Event.read transfer ≠ .read (.fail .eintr) := by
    simpa using succeeds .eintr
  unfold sysRead
  rw [wp_bind, sys, wp_zoom]
  refine Env.wp_skip_answered answer fresh ?_
  rw [wp_bind, sys, wp_zoom]
  refine Env.wp_next_answered answer ?_
  cases transfer with
  | fail error =>
      exact absurd rfl (succeeds error)
  | full | short count =>
      simp only [wp_bind, wp_gets, wp_modify, wp_pure]
      exact next

/-- Nothing is read where enough is in the buffer. -/
theorem wp_ensure_enough
    {post : Bool → FileCtx → Prop} {len : Nat}
    (enough : len ≤ ctx.file.kb.len)
    (next : post true ctx) :
    wp (ensure len) post halt ctx := by
  unfold ensure
  rw [wp_bind, wp_gets]
  unfold ensureLoop
  rw [wp_bind, wp_gets, wp_ite]
  exact ⟨fun missing => absurd enough (Nat.not_le_of_lt missing),
    fun _ => next⟩

/-- One read that moves enough widens an empty window. -/
theorem wp_ensure_answered
    {post : Bool → FileCtx → Prop} {len : Nat} {transfer : Transfer}
    (window : ctx.file.Window base [] [])
    (answer : ctx.env.trace = .read transfer :: rest)
    (positive : 0 < len)
    (enough :
      len ≤ transfer.amount
        (min kcndbFileBufsiz (ctx.file.content.length - base)))
    (next : ∀ ctx',
      ctx'.env = { ctx.env with trace := rest } →
      ctx'.file.content = ctx.file.content →
      ctx'.file.Window base []
        (slice ctx.file.content base
          (transfer.amount
            (min kcndbFileBufsiz (ctx.file.content.length - base)))) →
      ctx'.file.kb.bytes =
        overwrite ctx.file.kb.bytes 0
          (slice ctx.file.content base
            (transfer.amount
              (min kcndbFileBufsiz (ctx.file.content.length - base)))) →
      post true ctx') :
    wp (ensure len) post halt ctx := by
  have sizeEq := window.holds.size_eq
  have lenEq := window.holds.len_eq
  have spaceEq := window.holds.trailingspace_eq
  have offEq := window.off_eq
  simp only [List.length_nil, Nat.add_zero, Nat.sub_zero]
    at lenEq spaceEq offEq
  have positiveSpace : kcndbFileBufsiz ≠ 0 := by decide
  have succeeds : ∀ error, transfer ≠ .fail error := by
    rintro error rfl
    exact absurd enough (Nat.not_le_of_lt positive)
  unfold ensure
  rw [wp_bind, wp_gets, answer]
  unfold ensureLoop
  rw [wp_bind, wp_gets, if_pos (by omega), wp_bind]
  unfold bufRead prepareRead
  simp only [wp_bind, buf, wp_zoom, wp_gets, kbLens]
  rw [spaceEq, if_neg positiveSpace, wp_pure]
  refine wp_sysRead_answered answer succeeds ?_
  simp only
  rw [spaceEq, offEq]
  have most :=
    transfer.amount_le
      (min kcndbFileBufsiz (ctx.file.content.length - base))
  revert enough next most
  generalize
    transfer.amount
      (min kcndbFileBufsiz (ctx.file.content.length - base)) = amount
  intro enough next most
  have hereLength :
      (slice ctx.file.content base amount).length = amount := by
    rw [length_slice]
    omega
  cases here : slice ctx.file.content base amount with
  | nil =>
      rw [here, List.length_nil] at hereLength
      omega
  | cons byte bytes =>
      rw [here] at hereLength
      simp only [wp_bind, wp_zoom]
      refine wp_fill window.holds ?_ ?_
      · simp only [List.length_nil, Nat.zero_add]
        omega
      · intro kb holds memory
        rw [List.nil_append] at holds
        simp only [wp_pure, ↓reduceIte, List.length_cons]
        unfold ensureLoop
        have lenEq' := holds.len_eq
        rw [List.length_nil, Nat.zero_add, hereLength] at lenEq'
        rw [wp_bind, wp_gets, if_neg (by simp only; omega), wp_pure]
        rw [← here] at holds
        have epEq : ctx.file.kb.ep = 0 := window.holds.ep_eq
        refine next _ rfl rfl ⟨holds, ?_, ?_⟩ ?_
        · simp only [List.nil_append, List.length_nil, Nat.zero_add]
          rw [here, hereLength, here]
        · simp only [List.length_nil, Nat.zero_add]
          rw [here, List.length_cons]
        · rw [here, ← epEq]
          exact memory

/-- One write that moves all the data. -/
theorem wp_write_answered
    {post : Bool → FileCtx → Prop}
    (answer : ctx.env.trace = .write .full :: rest)
    (nonempty : 0 < ctx.file.kb.len)
    (next : ∀ ctx',
      ctx'.env = { ctx.env with trace := rest } →
      ctx'.file.content =
        writeAt ctx.file.content ctx.file.off ctx.file.kb.data →
      ctx'.file.kb.Holds ctx.file.kb.size 0 [] [] →
      post true ctx') :
    wp write post halt ctx := by
  obtain ⟨count, countEq⟩ :=
    Nat.exists_eq_succ_of_ne_zero (Nat.pos_iff_ne_zero.mp nonempty)
  have dataLength := length_data ctx.file.kb
  unfold write
  rw [wp_bind, wp_gets, answer]
  unfold writeLoop
  rw [wp_bind, wp_gets, if_pos nonempty, wp_bind]
  unfold bufWrite sysWrite
  simp only [wp_bind, sys, wp_zoom]
  refine Env.wp_skip_answered answer (by simp) ?_
  refine Env.wp_next_answered answer ?_
  simp only [wp_bind, wp_gets, wp_modify, wp_pure, Transfer.amount,
    envLens]
  rw [List.take_of_length_le dataLength.le, dataLength, countEq]
  simp only [wp_bind, buf, wp_zoom, wp_pure]
  refine wp_trimHead_data (by exact countEq.ge) ?_
  intro kb sizeEq dataEq
  have sizeEq : kb.size = ctx.file.kb.size := sizeEq
  have dataEq : kb.data = ctx.file.kb.data.drop (count + 1) := dataEq
  rw [List.drop_of_length_le (dataLength.trans countEq).le] at dataEq
  have empty : kb.len = 0 := by
    rw [← length_data, dataEq, List.length_nil]
  rw [if_pos trivial, List.length_cons]
  unfold writeLoop
  rw [wp_bind, wp_gets, if_neg (by simp only [kbLens, empty]; omega)]
  simp only [wp_bind, buf, wp_zoom, wp_pure]
  refine wp_reset (holds_self _) (Nat.zero_le _) ?_
  intro kb' holds
  have holds : kb'.Holds kb.size 0 [] [] := holds
  rw [sizeEq] at holds
  exact next _ rfl rfl holds

/-- An append that seeks and writes once. -/
theorem wp_append_answered
    {post : Bool → FileCtx → Prop}
    (answer : ctx.env.trace = .seek none :: .write .full :: rest)
    (fits : ctx.file.content.length ≤ offMax)
    (nonempty : 0 < ctx.file.kb.len)
    (next : ∀ ctx',
      ctx'.env = { ctx.env with trace := rest } →
      ctx'.file.content = ctx.file.content ++ ctx.file.kb.data →
      ctx'.file.kb.Holds ctx.file.kb.size 0 [] [] →
      post true ctx') :
    wp append post halt ctx := by
  unfold append
  rw [wp_bind, wp_gets, wp_bind]
  refine wp_sysSeek_answered answer fits ?_
  rw [if_pos rfl]
  refine wp_write_answered rfl (by exact nonempty) ?_
  intro ctx' envEq contentEq holds
  rw [writeAt_length] at contentEq
  exact next ctx' envEq contentEq holds

end KcndbFile

namespace KcndbDb

open TableCtx KcndbFile

variable {halt : Stop → Prop} {ctx : TableCtx} {rest : Trace}
  {base : Nat} {before after loc : List UInt8}

/-- Reading an entry with one read that moves enough. -/
theorem wp_readEntry_answered
    {α : Type} {post : α → TableCtx → Prop} {missing : α}
    {idx : Nat} (extra : Nat) {use : UInt16 → TableOp α}
    {transfer : Transfer}
    (window : ctx.loc.Window idx [] [])
    (answer : ctx.env.trace = .read transfer :: rest)
    (enough :
      max 2 (lenAt ctx.loc.content idx + extra) ≤ transfer.amount
        (min kcndbFileBufsiz (ctx.loc.content.length - idx)))
    (read : ∀ ctx' len before after,
      ctx.ReadEntry idx extra [.read transfer] len before after ctx' →
      ctx'.env.trace = rest →
      2 + after.length = transfer.amount
        (min kcndbFileBufsiz (ctx.loc.content.length - idx)) →
      wp (use len) post halt ctx') :
    wp (do
        if ← onLoc (ensure 2) then
          let len ← onLoc (FileCtx.buf get16)
          if ← onLoc (ensure (len.toNat + extra)) then
            use len
          else
            pure missing
        else
          pure missing)
      post halt ctx := by
  simp only [wp_bind, onLoc, wp_zoom, FileCtx.buf]
  simp only [locLens, FileCtx.kbLens]
  have most :=
    transfer.amount_le
      (min kcndbFileBufsiz (ctx.loc.content.length - idx))
  refine wp_ensure_answered window answer (by decide)
    (Nat.le_trans (Nat.le_max_left _ _) enough) ?_
  simp only
  revert enough most read
  generalize
    transfer.amount
      (min kcndbFileBufsiz (ctx.loc.content.length - idx)) = amount
  intro enough read most ctx₁ envEq contentEq window₁ _
  have length : (slice ctx.loc.content idx amount).length = amount := by
    rw [length_slice]
    omega
  have traceEq : ctx₁.env.trace = rest := congrArg Env.trace envEq
  simp only [↓reduceIte, wp_bind, wp_zoom]
  refine wp_window_get16 window₁ ?_ (by omega)
  intro _ kb window₂
  have lenEq :
      (word16 (slice ctx₁.file.content idx 2)).toNat =
        lenAt ctx.loc.content idx := by
    rw [contentEq]
    rfl
  have head :
      ((slice ctx.loc.content idx amount).take 2).length = 2 := by
    rw [List.length_take]
    omega
  have filled : kb.len = _ := window₂.holds.len_eq
  rw [List.nil_append] at window₂ filled
  rw [head, List.length_drop, length] at filled
  have total :
      2 + ((slice ctx.loc.content idx amount).drop 2).length =
        amount := by
    rw [List.length_drop, length]
    omega
  simp only [List.length_nil, Nat.add_zero, lenEq]
  refine wp_ensure_enough (by simp only; omega) ?_
  rw [if_pos rfl]
  refine read _ _ _ _ ⟨⟨?_, rfl, contentEq⟩, ⟨?_, window₂, head⟩, ?_⟩
    traceEq total
  · rw [answer, ← traceEq]
    rfl
  · simp only [contentEq]
    rfl
  · rw [total]
    exact enough

/--
One round of the loop at a slot or link that leads to an entry, where one read
moves at least eight bytes more than its locator has.
-/
theorem wp_locWalk_entry_answered
    {post : WalkEnd → TableCtx → Prop} {rounds : Nat} {idx : UInt64}
    {stored : List UInt8} {transfer : Transfer}
    (window : ctx.loc.Window base before after)
    (room : 8 ≤ after.length)
    (slot : slotAt ctx.loc.content (base + before.length) = idx)
    (nonzero : idx ≠ 0)
    (entry : Entry ctx.loc.content idx.toNat stored)
    (bounded : ctx.loc.content.length ≤ offMax)
    (answer : ctx.env.trace = .seek none :: .read transfer :: rest)
    (enough :
      stored.length + 8 ≤ transfer.amount
        (min kcndbFileBufsiz (ctx.loc.content.length - idx.toNat)))
    (found : sameLoc stored loc = true → ∀ ctx',
      ctx'.env.trace = rest →
      ctx'.loc.content = ctx.loc.content →
      post (.found idx) ctx')
    (next : sameLoc stored loc = false → ∀ ctx' before' after',
      ctx'.env.trace = rest →
      ctx'.loc.content = ctx.loc.content →
      ctx'.loc.Window idx.toNat before' after' →
      before'.length = 2 + stored.length →
      before'.length + after'.length =
        transfer.amount
          (min kcndbFileBufsiz (ctx.loc.content.length - idx.toNat)) →
      wp (locWalk loc rounds) post halt ctx') :
    wp (locWalk loc (rounds + 1)) post halt ctx := by
  have inside := entry.inside
  have lenEq := entry.lenAt_eq
  unfold locWalk
  rw [wp_bind]
  refine wp_readSlot window (fun missing => by omega) ?_
  intro _ ctx₁ first window₁
  have contentEq := first.content_eq
  rw [first.trace_eq] at answer
  rw [slot, if_neg nonzero, wp_bind, onLoc, wp_zoom]
  refine wp_sysSeek_answered answer (by omega) ?_
  rw [if_pos rfl, wp_bind, onLoc, FileCtx.buf, wp_zoom, wp_zoom]
  refine wp_reset (holds_self _) (Nat.zero_le _) ?_
  intro kb empty
  simp only [locLens, FileCtx.kbLens, window₁.holds.size_eq] at empty
  have window₂ :
      ({ content := ctx₁.loc.content, off := idx.toNat,
         kb := kb } : KcndbFile).Window idx.toNat [] [] :=
    ⟨empty, by simp, by simp⟩
  refine wp_readEntry_answered 8 window₂ rfl ?_ ?_
  · simp only [locLens, FileCtx.kbLens, contentEq, lenEq]
    omega
  · intro ctx₂ len before₂ after₂ read traceEq total
    have same : ctx₂.loc.content = ctx.loc.content :=
      read.reads.content_eq.trans contentEq
    have enough₂ := read.enough
    simp only [locLens, FileCtx.kbLens, contentEq] at enough₂ total
    refine wp_matchEntry read.atEntry ?_ ?_ ?_
    · rw [same]
      omega
    · intro matched
      rw [same, entry.locAt_eq] at matched
      exact found matched ctx₂ traceEq same
    · intro unmatched ctx₃ before' after' last window' length' total'
      rw [same, entry.locAt_eq] at unmatched
      rw [same, lenEq] at length'
      exact next unmatched ctx₃ before' after'
        (last.trace_eq.symm.trans traceEq)
        (last.content_eq.trans same) window' length'
        (total'.trans total)

/-- The end of a chain is found without an answer. -/
theorem wp_locWalk_ends
    {post : WalkEnd → TableCtx → Prop} {rounds : Nat}
    (window : ctx.loc.Window base before after)
    (room : 8 ≤ after.length)
    (slot : slotAt ctx.loc.content (base + before.length) = 0)
    (tail : ∀ ctx',
      ctx'.env.trace = ctx.env.trace →
      ctx'.loc.content = ctx.loc.content →
      ctx'.base = ctx.base →
      ctx'.loc.kb.size = kcndbFileBufsiz →
      ctx'.loc.kb.headingdata = before.length + 8 →
      post (.tail 0) ctx') :
    wp (locWalk loc (rounds + 1)) post halt ctx := by
  unfold locWalk
  rw [wp_bind]
  refine wp_readSlot window (fun missing => by omega) ?_
  intro _ ctx' reads window'
  have heading := window'.holds.headingdata_eq
  rw [List.length_append, List.length_take, Nat.min_eq_left room]
    at heading
  rw [slot, if_pos rfl, wp_pure]
  refine tail ctx' reads.trace_eq.symm reads.content_eq ?_
    window'.holds.size_eq heading
  rw [reads.frame]

/-- The answers with which a slot is read, and those for one entry. -/
def oneRead : Trace :=
  [.seek none, .read .full]

/--
The loop at a slot that is vacant or leads to one entry returns with the
answers for one read.
-/
theorem wp_locWalk_answered
    {post : WalkEnd → TableCtx → Prop} {buckets : Buckets}
    {h rounds : Nat}
    (indexed : Indexed ctx.loc.content buckets)
    (bound : h < locHashsiz)
    (bounded : ctx.loc.content.length ≤ offMax)
    (window : ctx.loc.Window base before after)
    (offEq : slotOff h = base + before.length)
    (enough : 8 ≤ after.length)
    (more : buckets h ≠ none → 0 < rounds)
    (answer :
      ctx.env.trace = if buckets h = none then [] else oneRead)
    (next : ∀ result ctx',
      ctx'.env.trace = [] →
      (∀ idx stored, buckets h = some (idx, stored) →
        sameLoc stored loc = true → result = .found idx) →
      post result ctx') :
    wp (locWalk loc (rounds + 1)) post halt ctx := by
  cases bucket : buckets h with
  | none =>
      have slot := indexed.vacant h bound bucket
      rw [offEq] at slot
      rw [if_pos bucket] at answer
      refine wp_locWalk_ends window enough slot ?_
      intro ctx' traceEq _ _ _ _
      exact next _ _ (traceEq.trans answer) (by simp [bucket])
  | some entry =>
      obtain ⟨idx, stored⟩ := entry
      have taken := indexed.taken h bound idx stored bucket
      have slot := taken.slot
      have inside := taken.entry.inside
      have short := taken.entry.short
      have small : 2 + kcnMsgMaxlocsiz + 8 ≤ kcndbFileBufsiz := by
        decide
      have nonzero : idx ≠ 0 := by
        rintro rfl
        exact absurd taken.behind (by decide)
      rw [offEq] at slot
      rw [if_neg (by simp [bucket])] at answer
      refine wp_locWalk_entry_answered window enough slot nonzero
        taken.entry bounded answer ?_ ?_ ?_
      · simp only [Transfer.amount]
        omega
      · intro _ ctx' traceEq _
        refine next _ _ traceEq ?_
        intro idx' stored' same _
        rw [bucket] at same
        obtain ⟨rfl, rfl⟩ := Prod.mk.inj (Option.some.inj same)
        rfl
      · intro unmatched ctx' before' after' traceEq contentEq window'
          heading total
        obtain ⟨rounds, rfl⟩ :=
          Nat.exists_eq_succ_of_ne_zero
            (Nat.pos_iff_ne_zero.mp (more (by simp [bucket])))
        refine wp_locWalk_ends window' ?_ ?_ ?_
        · simp only [Transfer.amount] at total
          omega
        · rw [contentEq, heading, ← Nat.add_assoc]
          exact taken.last
        · intro ctx'' traceEq' _ _ _ _
          refine next _ _ (traceEq'.trans traceEq) ?_
          intro idx' stored' same matched
          rw [bucket] at same
          obtain ⟨rfl, rfl⟩ := Prod.mk.inj (Option.some.inj same)
          rw [unmatched] at matched
          cases matched

/-- `kcndb_db_loc_add` up to its loop, with one read that moves `amount`. -/
theorem wp_locFind_answered
    {post : WalkEnd → TableCtx → Prop} {transfer : Transfer}
    (answer : ctx.env.trace = .seek none :: .read transfer :: rest)
    (sizeEq : ctx.loc.kb.size = kcndbFileBufsiz)
    (enough :
      8 ≤ transfer.amount (min kcndbFileBufsiz ctx.loc.content.length))
    (short :
      transfer.amount (min kcndbFileBufsiz ctx.loc.content.length) <
          slotOff (locHash loc) →
        halt .assertion)
    (walk : ∀ ctx' before after,
      ctx'.env.trace = rest →
      ctx'.loc.content = ctx.loc.content →
      ctx'.base = ctx.base →
      ctx'.loc.Window 0 before after →
      before.length = slotOff (locHash loc) →
      before.length + after.length =
        transfer.amount (min kcndbFileBufsiz ctx.loc.content.length) →
      wp (locWalk loc (rest.length + 1)) post halt ctx') :
    wp (locFind loc) post halt ctx := by
  unfold locFind
  simp only [wp_bind, onLoc, wp_zoom, FileCtx.buf]
  simp only [locLens, FileCtx.kbLens]
  refine wp_reset (holds_self _) (Nat.zero_le _) ?_
  intro kb empty
  simp only [sizeEq] at empty
  have window :
      ({ content := ctx.loc.content, off := 0,
         kb := kb } : KcndbFile).Window 0 [] [] :=
    ⟨empty, by simp, by simp⟩
  refine wp_sysSeek_answered answer (Nat.zero_le _) ?_
  simp only [↓reduceIte, wp_bind, wp_zoom]
  have most :=
    transfer.amount_le (min kcndbFileBufsiz ctx.loc.content.length)
  refine wp_ensure_answered window rfl (by decide) (by exact enough) ?_
  simp only [Nat.sub_zero]
  revert enough short walk most
  generalize
    transfer.amount (min kcndbFileBufsiz ctx.loc.content.length) = amount
  intro enough short walk most ctx₂ envEq contentEq window₂ _
  have length : (slice ctx.loc.content 0 amount).length = amount := by
    rw [length_slice]
    omega
  have slotEq :
      locIndexsiz * kcnStrHash loc locHashsiz = slotOff (locHash loc) :=
    rfl
  have traceEq : ctx₂.env.trace = rest := congrArg Env.trace envEq
  simp only [↓reduceIte, wp_bind, wp_gets, wp_zoom]
  refine wp_window_forward window₂ ?_ ?_
  · intro covered kb₃ window₃
    rw [traceEq]
    refine walk _ _ _ traceEq contentEq rfl window₃ ?_ ?_
    · rw [List.nil_append, List.length_take, Nat.min_eq_left covered]
      rfl
    · rw [List.nil_append, List.length_take, Nat.min_eq_left covered,
        List.length_drop]
      omega
  · intro missing
    rw [length, slotEq] at missing
    exact short missing

/-- The answers with which an entry is appended and its offset stored. -/
def linkAnswers : Trace :=
  [.seek none, .write .full, .seek none, .write .full]

/-- `kcndb_db_loc_add` after its loop returns. -/
theorem wp_locLink_answered
    {post : Option UInt64 → TableCtx → Prop} {last : UInt64}
    (answer : ctx.env.trace = linkAnswers)
    (sizeEq : ctx.loc.kb.size = kcndbFileBufsiz)
    (short : loc.length ≤ kcnMsgMaxlocsiz)
    (bounded : ctx.loc.content.length ≤ offMax)
    (fits :
      (last + UInt64.ofNat ctx.loc.kb.headingdata - 8).toNat ≤ offMax)
    (next : ∀ idx ctx', ctx'.env.trace = [] → post (some idx) ctx') :
    wp (locLink loc last) post halt ctx := by
  have block : 2 + kcnMsgMaxlocsiz + 8 ≤ kcndbFileBufsiz := by decide
  have entryLength := length_entryBytes loc
  unfold locLink
  simp only [wp_bind, wp_gets, onLoc, wp_zoom, FileCtx.buf]
  simp only [locLens, FileCtx.kbLens]
  refine wp_reset (holds_self _) (Nat.zero_le _) ?_
  intro kb empty
  rw [sizeEq] at empty
  refine wp_putEntry empty (fun beyond => by omega) ?_
  intro kb₁ holds₁
  have lenEq := holds₁.len_eq
  have nonempty : 0 < kb₁.len := by
    rw [lenEq, entryLength]
    omega
  refine wp_append_answered answer bounded nonempty ?_
  intro ctx₂ envEq _ drained
  have traceEq : ctx₂.env.trace = [.seek none, .write .full] :=
    congrArg Env.trace envEq
  simp only [holds₁.size_eq] at drained
  simp only [↓reduceIte, wp_bind, setBase, wp_modify, wp_zoom]
  refine wp_store drained ?_ ?_
  · intro _ kb₃ holds₃
    refine wp_sysSeek_answered traceEq fits ?_
    simp only [↓reduceIte, wp_bind, wp_zoom]
    have lenEq₃ := holds₃.len_eq
    have nonempty₃ : 0 < kb₃.len := by
      rw [lenEq₃]
      simp
    refine wp_write_answered rfl (by exact nonempty₃) ?_
    intro ctx₄ envEq₄ _ _
    rw [if_pos rfl, wp_pure]
    exact next _ _ (congrArg Env.trace envEq₄)
  · intro beyond
    rw [List.length_nil, length_bytes64] at beyond
    exact absurd beyond (by decide)

/-- The answers with which the walk for a hash returns. -/
def walkAnswers (buckets : Buckets) (h : Nat) : Trace :=
  oneRead ++ if buckets h = none then [] else oneRead

theorem undisturbed_walkAnswers (buckets : Buckets) (h : Nat) :
    (walkAnswers buckets h).Undisturbed := by
  unfold walkAnswers
  split <;>
    simp [Trace.Undisturbed, Trace.Clean, oneRead, Event.Fails,
      Event.ReadsFull]

/-- The walk for any locator returns, with at most two reads. -/
theorem locFind_returns
    {buckets : Buckets}
    (indexed : Indexed ctx.loc.content buckets)
    (sizeEq : ctx.loc.kb.size = kcndbFileBufsiz)
    (bounded : ctx.loc.content.length ≤ offMax)
    (answer : ctx.env.trace = walkAnswers buckets (locHash loc)) :
    ∃ result ctx',
      locFind loc ctx = .ok (result, ctx') ∧
      ctx'.env.trace = [] ∧
      ∀ idx stored, buckets (locHash loc) = some (idx, stored) →
        sameLoc stored loc = true → result = .found idx := by
  apply wp_returns
  have bound := locHash_lt loc
  have inside := slotOff_inside bound
  have slots := indexed.slots
  have room : locIndextablesiz ≤ kcndbFileBufsiz := by decide
  have table : 8 ≤ locIndextablesiz := by decide
  refine wp_locFind_answered answer sizeEq ?_ ?_ ?_
  · simp only [Transfer.amount]
    omega
  · intro missing
    simp only [Transfer.amount] at missing
    omega
  · intro ctx₂ before after traceEq contentEq _ window₂ heading total
    have indexed₂ : Indexed ctx₂.loc.content buckets := by
      rw [contentEq]
      exact indexed
    simp only [Transfer.amount] at total
    refine wp_locWalk_answered indexed₂ bound ?_ window₂ ?_ ?_ ?_
      traceEq ?_
    · rw [contentEq]
      exact bounded
    · rw [heading, Nat.zero_add]
    · omega
    · intro taken
      rw [if_neg taken]
      decide
    · intro result ctx' done found
      exact ⟨done, found⟩

end KcndbDb

/-- The entry at `idx` is its own successor and is not that of `loc`. -/
structure Circular
    (content loc : List UInt8) (idx : UInt64) : Prop where
  nonzero : idx ≠ 0
  inside :
    idx.toNat + (lenAt content idx.toNat + 10) ≤ content.length
  room : lenAt content idx.toNat + 10 ≤ kcndbFileBufsiz
  bounded : content.length ≤ offMax
  unmatched : sameLoc (locAt content idx.toNat) loc = false
  link : slotAt content (linkOff content idx.toNat) = idx

namespace KcndbDb

open TableCtx KcndbFile

variable {ctx : TableCtx} {content loc : List UInt8} {idx : UInt64}

/-- The loop follows a circular entry until it has no answers any more. -/
theorem wp_locWalk_circular
    (circular : Circular content loc idx)
    (contentEq : ctx.loc.content = content)
    {base : Nat} {before after : List UInt8}
    (window : ctx.loc.Window base before after)
    (slot : slotAt content (base + before.length) = idx)
    (enough : 8 ≤ after.length)
    (undisturbed : ctx.env.trace.Undisturbed)
    (rounds : Nat) :
    wp (locWalk loc rounds) (fun _ _ => False) (· = .starved) ctx := by
  have inside := circular.inside
  have room := circular.room
  have bounded := circular.bounded
  induction rounds generalizing ctx base before after with
  | zero =>
      rfl
  | succ rounds inductionHypothesis =>
      rw [← contentEq] at slot
      refine wp_locWalk_round window slot rfl (by omega) ?_
        (fun zero => absurd zero circular.nonzero) ?_ ?_ ?_
      · rw [contentEq]
        omega
      · intro _ ctx' taken reads reasons
        rw [reads.trace_eq] at undisturbed
        rw [contentEq] at reasons
        rcases reasons with unclean | far | short
        · exact unclean (Trace.clean_append.mp undisturbed.1).1
        · omega
        · omega
      · intro _ ctx' taken reads matched
        rw [contentEq, circular.unmatched] at matched
        cases matched
      · intro _ ctx' reads before' after' _ moved clean window' heading
          total
        rw [moved.trace_eq] at undisturbed
        rw [contentEq] at heading total
        have later : Trace.Undisturbed (reads ++ ctx'.env.trace) :=
          undisturbed.tail
        have all := later.moved_eq (by rw [← total]; omega)
        refine inductionHypothesis
          (moved.content_eq.trans contentEq) window' ?_ (by omega)
          later.of_append_right
        rw [heading, ← Nat.add_assoc]
        exact circular.link

/-- Nor does the call return for a slot that leads to a circular entry. -/
theorem wp_locFind_circular
    (circular : Circular ctx.loc.content loc idx)
    (slot : slotAt ctx.loc.content (slotOff (locHash loc)) = idx)
    (slots : locIndextablesiz ≤ ctx.loc.content.length)
    (sizeEq : ctx.loc.kb.size = kcndbFileBufsiz)
    (undisturbed : ctx.env.trace.Undisturbed) :
    wp (locFind loc) (fun _ _ => False) (· = .starved) ctx := by
  have offset := slotOff_inside (locHash_lt loc)
  have tableFits : locIndextablesiz ≤ kcndbFileBufsiz := by decide
  have slotsPositive : 8 ≤ locIndextablesiz := by decide
  have same :
      locIndexsiz * kcnStrHash loc locHashsiz =
        slotOff (locHash loc) :=
    rfl
  unfold locFind
  refine wp_resetSeek rfl sizeEq ?_ ?_
  · intro ctx₁ _ sought window
    have contentEq := sought.content_eq
    rw [sought.trace_eq] at undisturbed
    have undisturbed := undisturbed.of_append_right
    rw [if_pos rfl, wp_bind, onLoc, wp_zoom]
    refine wp_ensure_window window rfl
      (fun beyond => absurd beyond (by decide)) ?_ ?_ ?_
    · intro ctx₂ taken new took _ contentEq₂ window₂ large amount
      have content₂ : ctx₂.file.content = ctx.loc.content :=
        contentEq₂.trans contentEq
      have later : Trace.Undisturbed (taken ++ ctx₂.env.trace) := by
        rw [← took.trace_eq]
        exact undisturbed
      have size : ctx₁.loc.content.length = ctx.loc.content.length :=
        congrArg List.length contentEq
      simp only [locLens, List.nil_append, List.length_nil,
        Nat.zero_add, Nat.add_zero, Nat.sub_zero, locIndexsiz, size]
        at large amount
      have all := later.moved_eq (by rw [← amount]; omega)
      rw [if_pos rfl, wp_bind]
      refine wp_locForward window₂ ?_ ?_
      · intro missing
        rw [same, List.nil_append] at missing
        omega
      · intro enough ctx₃ last window₃
        rw [List.nil_append] at enough
        rw [wp_bind, wp_gets]
        refine wp_locWalk_circular circular
          (last.content_eq.trans content₂) window₃ ?_ ?_ ?_ _
        · rw [List.nil_append, List.nil_append, List.length_take,
            Nat.min_eq_left enough, Nat.zero_add]
          exact slot
        · rw [List.nil_append, List.length_drop, same]
          omega
        · rw [← List.nil_append ctx₃.env.trace, ← last.trace_eq]
          exact later.of_append_right
    · intro ctx₂ taken took _ _ short
      rw [Nat.zero_add] at short
      have short : ctx₁.loc.content.length < locIndexsiz := short
      rw [contentEq] at short
      simp only [locIndexsiz] at short
      omega
    · intro ctx₂ taken took unclean _
      have later : Trace.Clean (taken ++ ctx₂.env.trace) := by
        rw [← took.trace_eq]
        exact undisturbed.1
      exact absurd (Trace.clean_append.mp later).1 unclean
  · intro ctx₁ event reads refusal
    rw [reads.trace_eq] at undisturbed
    rcases refusal with ⟨_, beyond⟩ | ⟨error, rfl⟩
    · exact absurd beyond (Nat.not_lt_of_le (Nat.zero_le _))
    · exact absurd (undisturbed.1 _ List.mem_cons_self)
        (by simp [Event.Fails])

end KcndbDb

end Kcn
