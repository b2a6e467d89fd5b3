import Kcn.Frame
import Kcn.Locator

namespace Kcn

open Program Bytes KcnBuf

/-!
# Walking and extending the chains

`kcndb_db_loc_add` in two halves: the walk from a slot to an entry that the
code takes for the locator or to the end of the chain, and the append with the
store of the new offset.
-/

/-- The code takes the stored locator for the given one. -/
def sameLoc (stored loc : List UInt8) : Bool :=
  loc.length == stored.length && strncmpEq loc.length stored loc

theorem strncmpEq_take
    (count : Nat) (left right : List UInt8) :
    strncmpEq count (left.take count) right =
      strncmpEq count left right := by
  induction count generalizing left right with
  | zero =>
      rfl
  | succ count inductionHypothesis =>
      cases left with
      | nil =>
          rfl
      | cons first lefts =>
          cases right with
          | nil =>
              rfl
          | cons other rights =>
              simp [strncmpEq, inductionHypothesis]

theorem strncmpEq_self (bytes : List UInt8) :
    strncmpEq bytes.length bytes bytes = true := by
  induction bytes with
  | nil =>
      rfl
  | cons byte rest inductionHypothesis =>
      simp [strncmpEq, inductionHypothesis]

theorem sameLoc_self (loc : List UInt8) : sameLoc loc loc = true := by
  simp [sameLoc, strncmpEq_self]

/-- The comparison in the loop, in terms of the stored locator. -/
theorem locMatches_eq_sameLoc
    {memory loc : List UInt8} {len : UInt16}
    (enough : len.toNat ≤ memory.length) :
    KcndbDb.locMatches memory loc len =
      sameLoc (memory.take len.toNat) loc := by
  unfold KcndbDb.locMatches sameLoc
  rw [List.length_take, Nat.min_eq_left enough]
  by_cases size : loc.length = len.toNat
  · rw [← size, strncmpEq_take]
  · have different : (loc.length == len.toNat) = false := by
      simpa using size
    rw [different, Bool.false_and, Bool.false_and]

namespace KcndbDb

open TableCtx KcndbFile

variable {halt : Stop → Prop} {ctx : TableCtx}
  {base : Nat} {before after loc : List UInt8}

/-- The slot or link at the cursor is read. -/
theorem wp_readSlot
    {post : UInt64 → TableCtx → Prop}
    (window : ctx.loc.Window base before after)
    (short : after.length < 8 → halt .assertion)
    (next : 8 ≤ after.length → ∀ ctx',
      ctx.LocReads [] ctx' →
      ctx'.loc.Window base (before ++ after.take 8) (after.drop 8) →
      post (slotAt ctx.loc.content (base + before.length)) ctx') :
    wp (onLoc (FileCtx.buf get64)) post halt ctx := by
  rw [onLoc, wp_zoom, FileCtx.buf, wp_zoom]
  simp only [locLens, FileCtx.kbLens]
  refine wp_window_get64 window ?_ short
  intro enough kb window₁
  exact next enough _ ⟨rfl, rfl, rfl⟩ window₁

/-- The cursor passes bytes that were read. -/
theorem wp_locForward
    {post : Unit → TableCtx → Prop} {count : Nat}
    (window : ctx.loc.Window base before after)
    (short : after.length < count → halt .assertion)
    (next : count ≤ after.length → ∀ ctx',
      ctx.LocReads [] ctx' →
      ctx'.loc.Window base (before ++ after.take count)
        (after.drop count) →
      post () ctx') :
    wp (onLoc (FileCtx.buf (forward count))) post halt ctx := by
  rw [onLoc, wp_zoom, FileCtx.buf, wp_zoom]
  simp only [locLens, FileCtx.kbLens]
  refine wp_window_forward window ?_ short
  intro enough kb window₁
  exact next enough _ ⟨rfl, rfl, rfl⟩ window₁

/-- A seek and a reset leave an empty window at the offset. -/
theorem wp_seekReset
    {α : Type} {post : α → TableCtx → Prop} {missing : α} {off : Nat}
    {use : TableOp α}
    (starved : halt .starved)
    (sizeEq : ctx.loc.kb.size = kcndbFileBufsiz)
    (sought : ∀ ctx',
      off ≤ offMax →
      ctx.LocReads [.seek none] ctx' →
      ctx'.loc.Window off [] [] →
      wp use post halt ctx')
    (refused : ∀ ctx' taken,
      ctx.LocReads taken ctx' →
      (¬ Trace.Clean taken ∨ offMax < off) →
      post missing ctx') :
    wp (do
        if ← onLoc (seekHead off) then
          onLoc (FileCtx.buf (reset 0))
          use
        else
          pure missing)
      post halt ctx := by
  simp only [wp_bind, onLoc, wp_zoom, FileCtx.buf]
  simp only [locLens, FileCtx.kbLens]
  refine wp_sysSeek starved ?_ ?_
  · intro env fits shape
    simp only [↓reduceIte, wp_bind, wp_zoom]
    refine wp_reset (holds_self _) (Nat.zero_le _) ?_
    intro kb empty
    simp only [sizeEq] at empty
    exact sought _ fits ⟨shape, rfl, rfl⟩ ⟨empty, by simp, by simp⟩
  · intro event env shape refusal
    simp only [Bool.false_eq_true, ↓reduceIte, wp_pure]
    refine refused _ [event] ⟨shape, rfl, rfl⟩ ?_
    rcases refusal with ⟨_, beyond⟩ | ⟨error, rfl⟩
    · exact Or.inr beyond
    · exact Or.inl (by simp [Trace.Clean, Event.Fails])

/--
What the loop does with an entry that it read: it is taken for that of the
locator, or the cursor moves to its link.
-/
theorem wp_matchEntry
    {post : WalkEnd → TableCtx → Prop} {rounds : Nat} {idx : UInt64}
    {len : UInt16}
    (atEntry : ctx.AtEntry idx.toNat len before after)
    (covered : lenAt ctx.loc.content idx.toNat ≤ after.length)
    (found :
      sameLoc (locAt ctx.loc.content idx.toNat) loc = true →
        post (.found idx) ctx)
    (next : sameLoc (locAt ctx.loc.content idx.toNat) loc = false →
      ∀ ctx' before' after',
        ctx.LocReads [] ctx' →
        ctx'.loc.Window idx.toNat before' after' →
        before'.length = 2 + lenAt ctx.loc.content idx.toNat →
        before'.length + after'.length = 2 + after.length →
        wp (locWalk loc rounds) post halt ctx') :
    wp (do
        let memory ← gets fun ctx =>
          ctx.loc.kb.bytes.drop ctx.loc.kb.cp
        if locMatches memory loc len then
          pure (.found idx)
        else
          onLoc (FileCtx.buf (forward len.toNat))
          locWalk loc rounds)
      post halt ctx := by
  have holds := atEntry.window.holds
  have cursor := holds.cp_eq
  have filled := holds.ep_eq
  have room := ctx.loc.kb.ep_le_size
  have memoryLength := ctx.loc.kb.length_bytes
  have lenEq := atEntry.len_eq
  have memory :
      (ctx.loc.kb.bytes.drop ctx.loc.kb.cp).take len.toNat =
        locAt ctx.loc.content idx.toNat := by
    rw [lenEq]
    exact atEntry.stored covered
  rw [wp_bind, wp_gets, locMatches_eq_sameLoc
    (by rw [lenEq, List.length_drop]; omega), memory, wp_ite]
  refine ⟨found, ?_⟩
  intro unmatched
  rw [wp_bind]
  refine wp_locForward atEntry.window (by omega) ?_
  intro _ ctx' reads window
  refine next (by simpa using unmatched) ctx' _ _ reads window ?_ ?_
  · rw [List.length_append, atEntry.before_length, lenEq,
      List.length_take, Nat.min_eq_left covered]
  · rw [List.length_append, atEntry.before_length, Nat.add_assoc,
      ← List.length_append, List.take_append_drop]

/--
One round of the loop, with the cursor at a slot or link: the chain ends, an
entry is found, reading fails, or the cursor moves to the link of the next
entry.
-/
theorem wp_locWalk_round
    {post : WalkEnd → TableCtx → Prop} {rounds : Nat} {idx : UInt64}
    (window : ctx.loc.Window base before after)
    (slot : slotAt ctx.loc.content (base + before.length) = idx)
    (starved : halt .starved)
    (short : after.length < 8 → halt .assertion)
    (overflow :
      kcndbFileBufsiz < lenAt ctx.loc.content idx.toNat + 8 →
        halt .assertion)
    (tail : idx = 0 → ∀ ctx',
      ctx.LocReads [] ctx' →
      ctx'.loc.kb.headingdata = before.length + 8 →
      post (.tail 0) ctx')
    (failed : idx ≠ 0 → ∀ ctx' taken,
      ctx.LocReads taken ctx' →
      (¬ Trace.Clean taken ∨ offMax < idx.toNat ∨
        ctx.loc.content.length <
          idx.toNat + (lenAt ctx.loc.content idx.toNat + 8)) →
      post .failed ctx')
    (found : idx ≠ 0 → ∀ ctx' taken,
      ctx.LocReads taken ctx' →
      sameLoc (locAt ctx.loc.content idx.toNat) loc = true →
      post (.found idx) ctx')
    (next : idx ≠ 0 → ∀ ctx' reads before' after',
      sameLoc (locAt ctx.loc.content idx.toNat) loc = false →
      ctx.LocReads (.seek none :: reads) ctx' →
      Trace.Clean reads →
      ctx'.loc.Window idx.toNat before' after' →
      before'.length = 2 + lenAt ctx.loc.content idx.toNat →
      before'.length + after'.length =
        Trace.moved
          (min kcndbFileBufsiz (ctx.loc.content.length - idx.toNat))
          reads →
      wp (locWalk loc rounds) post halt ctx') :
    wp (locWalk loc (rounds + 1)) post halt ctx := by
  unfold locWalk
  rw [wp_bind]
  refine wp_readSlot window short ?_
  intro enough ctx₁ first window₁
  have heading := window₁.holds.headingdata_eq
  rw [List.length_append, List.length_take,
    Nat.min_eq_left enough] at heading
  rw [slot, wp_ite]
  refine ⟨?_, ?_⟩
  · rintro rfl
    exact tail rfl _ first heading
  · intro nonzero
    refine wp_seekReset starved window₁.holds.size_eq ?_ ?_
    · intro ctx₂ _ sought window₂
      have moved := first.trans sought
      have contentEq := moved.content_eq
      refine wp_readEntry 8 window₂ starved ?_ ?_ ?_ ?_
      · rw [contentEq]
        exact overflow
      · intro ctx₃ taken len before₃ after₃ entry _ clean total
        have reads := moved.trans entry.reads
        have same := reads.content_eq
        have enough₃ := entry.enough
        rw [contentEq] at enough₃ total
        refine wp_matchEntry entry.atEntry ?_ ?_ ?_
        · rw [same]
          omega
        · intro matched
          rw [same] at matched
          exact found nonzero _ _ reads matched
        · intro unmatched ctx₄ before' after' last window' length'
            total'
          rw [same] at unmatched length'
          have reads' := reads.trans last
          rw [List.append_nil] at reads'
          exact next nonzero ctx₄ taken before' after' unmatched
            reads' clean window' length' (total'.trans total)
      · intro ctx₃ taken reads unclean
        refine failed nonzero ctx₃ _ (moved.trans reads) (Or.inl ?_)
        exact fun all => unclean (Trace.clean_append.mp all).2
      · intro ctx₃ taken reads _ beyond
        rw [contentEq] at beyond
        refine failed nonzero ctx₃ _ (moved.trans reads)
          (Or.inr (Or.inr ?_))
        omega
    · intro ctx₂ taken reads reasons
      refine failed nonzero ctx₂ _ (first.trans reads) ?_
      exact reasons.imp id Or.inl

end KcndbDb

/--
From the slot or link at an offset the entries at `idxs` follow one another,
and then the chain ends.
-/
inductive Chain (content : List UInt8) : Nat → List UInt64 → Prop where
  | ends {off : Nat} :
      slotAt content off = 0 →
      Chain content off []
  | leads {off : Nat} {idx : UInt64} {rest : List UInt64}
      (loc : List UInt8) :
      slotAt content off = idx →
      idx ≠ 0 →
      Entry content idx.toNat loc →
      Chain content (linkOff content idx.toNat) rest →
      Chain content off (idx :: rest)

/-- How the walk along the entries at `idxs` ends, and where it leaves the cursor. -/
def Walked
    (content loc : List UInt8) (heading : Nat) (idxs : List UInt64)
    (ctx' : TableCtx) : KcndbDb.WalkEnd → Prop
  | .failed => True
  | .found idx =>
      idx ∈ idxs ∧ sameLoc (locAt content idx.toNat) loc = true
  | .tail last =>
      last = 0 ∧
        (∀ idx ∈ idxs, sameLoc (locAt content idx.toNat) loc = false) ∧
        ctx'.loc.kb.headingdata =
          (match idxs.getLast? with
            | none => heading
            | some idx => 2 + lenAt content idx.toNat) + 8

namespace KcndbDb

open TableCtx KcndbFile

variable {halt : Stop → Prop} {ctx : TableCtx} {base : Nat}
  {before after loc : List UInt8}

/-- The loop of `kcndb_db_loc_add` along a chain. -/
theorem wp_locWalk
    {content : List UInt8} {off rounds : Nat} {idxs : List UInt64}
    (chain : Chain content off idxs)
    (contentEq : ctx.loc.content = content)
    (window : ctx.loc.Window base before after)
    (offEq : off = base + before.length) :
    wp (locWalk loc rounds)
      (fun result ctx' =>
        ∃ taken, ctx.LocReads taken ctx' ∧
          Walked content loc before.length idxs ctx' result)
      (fun _ => True) ctx := by
  induction chain generalizing ctx base before after rounds with
  | ends slot =>
      cases rounds with
      | zero =>
          trivial
      | succ rounds =>
          rw [← contentEq, offEq] at slot
          refine wp_locWalk_round window slot trivial
            (fun _ => trivial) (fun _ => trivial) ?_
            (fun nonzero => absurd rfl nonzero)
            (fun nonzero => absurd rfl nonzero)
            (fun nonzero => absurd rfl nonzero)
          intro _ ctx' reads heading
          exact ⟨[], reads, rfl, by simp, heading⟩
  | @leads off idx rest stored slot nonzero entry later
      inductionHypothesis =>
      cases rounds with
      | zero =>
          trivial
      | succ rounds =>
          rw [← contentEq, offEq] at slot
          refine wp_locWalk_round window slot trivial
            (fun _ => trivial) (fun _ => trivial)
            (fun zero => absurd zero nonzero) ?_ ?_ ?_
          · intro _ ctx' taken reads _
            exact ⟨taken, reads, trivial⟩
          · intro _ ctx' taken reads matched
            rw [contentEq] at matched
            exact ⟨taken, reads, by simp, matched⟩
          · intro _ ctx' reads before' after' unmatched moved clean
              window' heading total
            rw [contentEq] at unmatched heading
            have contentEq' : ctx'.loc.content = content :=
              moved.content_eq.trans contentEq
            refine wp_imp
              (inductionHypothesis contentEq' window' ?_) ?_
            · rw [heading, linkOff, Nat.add_assoc]
            · rintro result ctx'' ⟨taken, moved', walked⟩
              refine ⟨_, moved.trans moved', ?_⟩
              cases result with
              | failed =>
                  trivial
              | found other =>
                  exact ⟨List.mem_cons_of_mem _ walked.1, walked.2⟩
              | tail last =>
                  obtain ⟨lastEq, none, headingEq⟩ := walked
                  refine ⟨lastEq, ?_, ?_⟩
                  · simpa using ⟨unmatched, none⟩
                  · rw [headingEq, heading]
                    cases rest with
                    | nil =>
                        rfl
                    | cons next others =>
                        simp [List.getLast?_cons]

/-- `kcndb_db_loc_add` up to the end of its loop, which starts at a slot. -/
theorem wp_locFind_walk
    {post : WalkEnd → TableCtx → Prop}
    (starved : halt .starved)
    (forward : locIndexsiz * kcnStrHash loc locHashsiz ≠ 0 →
      halt .assertion)
    (sizeEq : ctx.loc.kb.size = kcndbFileBufsiz)
    (failed : ∀ ctx' taken,
      ctx.LocReads taken ctx' →
      (¬ Trace.Clean taken ∨ ctx.loc.content.length < locIndexsiz) →
      post .failed ctx')
    (walk : ∀ ctx' taken before after rounds,
      ctx.LocReads taken ctx' →
      ctx'.loc.Window 0 before after →
      before.length = locIndexsiz * kcnStrHash loc locHashsiz →
      locIndexsiz ≤ before.length + after.length →
      wp (locWalk loc rounds) post halt ctx') :
    wp (locFind loc) post halt ctx := by
  unfold locFind
  refine wp_resetSeek starved sizeEq ?_ ?_
  · intro ctx₁ _ sought window
    have contentEq := sought.content_eq
    rw [if_pos rfl]
    rw [wp_bind, onLoc, wp_zoom]
    have reads {taken : Trace} {ctx₂ : FileCtx}
        (took : ctx₁.env.Took Event.IsRead taken ctx₂.env)
        (same : ctx₂.file.content = ctx₁.loc.content) :
        ctx.LocReads (.seek none :: taken) (locLens.set ctx₁ ctx₂) :=
      sought.trans ⟨took.trace_eq, rfl, same⟩
    refine wp_ensure_window window starved
      (fun beyond => absurd beyond (by decide)) ?_ ?_ ?_
    · intro ctx₂ taken new took _ same window₂ enough₂ _
      rw [List.length_nil, Nat.zero_add] at enough₂
      rw [if_pos rfl, wp_bind]
      refine wp_locForward window₂ ?_ ?_
      · intro missing
        exact forward (Nat.ne_zero_of_lt missing)
      · intro enough ctx₃ last window₃
        have moved := (reads took same).trans last
        rw [List.append_nil] at moved
        rw [wp_bind, wp_gets]
        refine walk ctx₃ _ _ _ _ moved window₃ ?_ ?_
        · rw [List.nil_append, List.length_take,
            Nat.min_eq_left enough]
        · rw [List.nil_append, ← List.length_append,
            List.take_append_drop]
          exact enough₂
    · intro ctx₂ taken took _ same beyond
      rw [if_neg Bool.false_ne_true, wp_pure]
      refine failed _ _ (reads took same) (Or.inr ?_)
      rw [Nat.zero_add] at beyond
      rw [← contentEq]
      exact beyond
    · intro ctx₂ taken took unclean same
      rw [if_neg Bool.false_ne_true, wp_pure]
      refine failed _ _ (reads took same) (Or.inl ?_)
      exact fun all => unclean fun event member =>
        all event (List.mem_cons_of_mem _ member)
  · intro ctx₁ event reads refusal
    rw [if_neg Bool.false_ne_true, wp_pure]
    refine failed ctx₁ [event] reads (Or.inl ?_)
    rcases refusal with ⟨_, beyond⟩ | ⟨error, rfl⟩
    · exact absurd beyond (Nat.not_lt_of_le (Nat.zero_le _))
    · simp [Trace.Clean, Event.Fails]

/-- `kcndb_db_loc_add` up to the end of its loop. -/
theorem wp_locFind
    {idxs : List UInt64}
    (chain :
      Chain ctx.loc.content
        (locIndexsiz * kcnStrHash loc locHashsiz) idxs)
    (sizeEq : ctx.loc.kb.size = kcndbFileBufsiz) :
    wp (locFind loc)
      (fun result ctx' =>
        ∃ taken, ctx.LocReads taken ctx' ∧
          Walked ctx.loc.content loc
            (locIndexsiz * kcnStrHash loc locHashsiz) idxs ctx'
            result)
      (fun _ => True) ctx := by
  refine wp_locFind_walk trivial (fun _ => trivial) sizeEq ?_ ?_
  · intro ctx' taken reads _
    exact ⟨taken, reads, trivial⟩
  · intro ctx' taken before after rounds first window heading _
    refine wp_imp (wp_locWalk chain first.content_eq window ?_) ?_
    · rw [heading, Nat.zero_add]
    · rintro result ctx'' ⟨later, moved, walked⟩
      rw [heading] at walked
      exact ⟨_, first.trans moved, walked⟩

/-- Where the loop leaves the cursor at the end of a chain, in any file. -/
def EndsWithin (content : List UInt8) (ctx' : TableCtx) : WalkEnd → Prop
  | .tail last =>
      last = 0 ∧ 8 ≤ ctx'.loc.kb.headingdata ∧
        ctx'.loc.kb.headingdata ≤ content.length
  | .failed | .found _ => True

/-- With less than a link behind the cursor the loop meets an assertion. -/
theorem wp_locWalk_cut
    {post : WalkEnd → TableCtx → Prop}
    (window : ctx.loc.Window base before after)
    (cut : after.length < 8) (assertion : halt .assertion) (rounds : Nat) :
    wp (locWalk loc (rounds + 1)) post halt ctx := by
  unfold locWalk
  rw [wp_bind]
  exact wp_readSlot window (fun _ => assertion) fun more =>
    absurd more (Nat.not_le_of_lt cut)

/-- The loop of `kcndb_db_loc_add` in a file with any bytes. -/
theorem wp_locWalk_within
    {rounds : Nat} (window : ctx.loc.Window base before after) :
    wp (locWalk loc rounds)
      (fun result ctx' =>
        ∃ taken, ctx.LocReads taken ctx' ∧
          EndsWithin ctx.loc.content ctx' result)
      (fun _ => True) ctx := by
  induction rounds generalizing ctx base before after with
  | zero =>
      trivial
  | succ rounds inductionHypothesis =>
      by_cases enough : 8 ≤ after.length
      · have inside := window.inside (by omega)
        refine wp_locWalk_round window rfl trivial (fun _ => trivial)
          (fun _ => trivial) ?_ ?_ ?_ ?_
        · intro _ ctx' reads heading
          exact ⟨[], reads, rfl, by omega, by omega⟩
        · intro _ ctx' taken reads _
          exact ⟨taken, reads, trivial⟩
        · intro _ ctx' taken reads _
          exact ⟨taken, reads, trivial⟩
        · intro _ ctx' reads before' after' _ moved _ window' _ _
          refine wp_imp (inductionHypothesis window') ?_
          rintro result ctx'' ⟨taken, moved', ends⟩
          rw [moved.content_eq] at ends
          exact ⟨_, moved.trans moved', ends⟩
      · exact wp_locWalk_cut window (Nat.lt_of_not_le enough) trivial _

/-- `kcndb_db_loc_add` up to the end of its loop, in a file with any bytes. -/
theorem wp_locFind_within
    (sizeEq : ctx.loc.kb.size = kcndbFileBufsiz) :
    wp (locFind loc)
      (fun result ctx' =>
        ∃ taken, ctx.LocReads taken ctx' ∧
          EndsWithin ctx.loc.content ctx' result)
      (fun _ => True) ctx := by
  refine wp_locFind_walk trivial (fun _ => trivial) sizeEq ?_ ?_
  · intro ctx' taken reads _
    exact ⟨taken, reads, trivial⟩
  · intro ctx' taken before after rounds first window _ _
    refine wp_imp (wp_locWalk_within window) ?_
    rintro result ctx'' ⟨later, moved, ends⟩
    rw [first.content_eq] at ends
    exact ⟨_, first.trans moved, ends⟩

end KcndbDb

end Kcn
