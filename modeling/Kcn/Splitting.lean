import Kcn.Finding
import Kcn.LocRuns

namespace Kcn

open Program Bytes KcnBuf KcndbFile KcndbDb

/-!
# Reads that return less than fits

`kcndb_file_ensure` reads until the buffer has as many bytes as its callers ask
for.  They ask for too few, so that in most cases what `kcndb_db_loc_add` and
`kcndb_db_loc_lookup` do depends on how much each read returns.
-/

/-- The answer does not fail, and no write is cut short. -/
def Event.Splits (event : Event) : Prop :=
  ¬ event.Fails ∧ ∀ count, event ≠ .write (.short count)

/-- No call fails; reads may return any number of bytes from one on. -/
def Trace.Splitting (trace : Trace) : Prop :=
  ∀ event ∈ trace, event.Splits

theorem Trace.Splitting.clean {trace : Trace}
    (splitting : Trace.Splitting trace) :
    Trace.Clean trace :=
  fun event member => (splitting event member).1

/--
With full reads the program returns, and whatever the reads return, it meets no
assertion and shows the same.
-/
def Independent
    {α β : Type} (program : TableCtx.TableOp α)
    (shows : α → TableCtx → β) (ctx : TableCtx) : Prop :=
  ∃ trace value ctx',
    Trace.Favourable trace ∧
      program (TableCtx.traceLens.set ctx trace) = .ok (value, ctx') ∧
      ∀ split, Trace.Splitting split →
        wp program (fun value' ctx'' => shows value' ctx'' = shows value ctx')
          (· = .starved) (TableCtx.traceLens.set ctx split)

namespace KcnBuf

theorem keeps_bytes_reset (headingspace : Nat) :
    Keeps bytes (reset headingspace) := by
  intro kb
  by_cases fits : headingspace ≤ kb.size <;> simp [wp, reset, fits]

theorem keeps_bytes_get16 : Keeps bytes get16 := by
  refine .bind (.bind (.gets _) fun _ => .bind ?_ fun _ => .pure _)
    fun _ => .pure _
  intro kb
  by_cases fits : 2 ≤ kb.trailingdata <;> simp [wp, forward, fits]

end KcnBuf

namespace LocTable

/-- All chains of the file end, and their entries are complete. -/
structure WellFormed (s : LocTable) : Prop where
  locsize_eq : s.locsize = s.content.length
  slots : locIndextablesiz ≤ s.content.length
  chains : ∀ h, h < locHashsiz →
    ∃ idxs, Chain s.content (slotOff h) idxs
  bounded : s.content.length ≤ offMax

/-- What `kcndb_db_loc_add` returns and leaves of the file. -/
def shownAdd (result : Option UInt64) (ctx : TableCtx) :
    Option UInt64 × LocTable :=
  (result, { content := ctx.loc.content, locsize := ctx.base.kdbLocsize })

/-- What `kcndb_db_loc_lookup` returns and leaves of the file. -/
def shownLookup (result : Option (List UInt8)) (ctx : TableCtx) :
    Option (List UInt8) × List UInt8 :=
  (result, ctx.loc.content)

/-- Adding the locator does not depend on what the reads return. -/
def AddIndependent (s : LocTable) (loc : List UInt8) : Prop :=
  ∀ ctx, s.Seen ctx → Independent (locAdd loc) shownAdd ctx

/-- Nor does looking up the index. -/
def LookupIndependent (s : LocTable) (idx : UInt64) : Prop :=
  ∀ ctx, s.Seen ctx → Independent (locLookup idx) shownLookup ctx

/-- The first slot is vacant or leads to an entry taken for the locator. -/
def FirstFits (s : LocTable) (loc : List UInt8) : Prop :=
  slotAt s.content 0 = 0 ∨
    sameLoc (locAt s.content (slotAt s.content 0).toNat) loc = true

/-- What adding a locator to a fitting first slot comes to. -/
def firstAdded (s : LocTable) (loc : List UInt8) :
    Option UInt64 × LocTable :=
  if slotAt s.content 0 = 0 then
    (some (UInt64.ofNat s.locsize),
      { content :=
          writeAt (s.content ++ entryBytes loc) 0
            (bytes64 (UInt64.ofNat s.locsize))
        locsize := s.locsize + (entryBytes loc).length })
  else
    (some (slotAt s.content 0), s)

variable {s : LocTable} {ctx : TableCtx} {loc : List UInt8}

theorem Seen.set (seen : s.Seen ctx) (trace : Trace) :
    s.Seen (TableCtx.traceLens.set ctx trace) :=
  ⟨seen.content_eq, seen.locsize_eq, seen.size_eq⟩

/-- The first slot of a well-formed file, if it is not vacant. -/
theorem WellFormed.first (wellFormed : s.WellFormed)
    (taken : slotAt s.content 0 ≠ 0) :
    ∃ stored, Entry s.content (slotAt s.content 0).toNat stored := by
  obtain ⟨idxs, chain⟩ := wellFormed.chains 0 (by decide)
  have zero : slotOff 0 = 0 := rfl
  rw [zero] at chain
  cases chain with
  | ends slot =>
      exact absurd slot taken
  | leads stored slot nonzero entry _ =>
      rw [slot]
      exact ⟨stored, entry⟩

/-- An entry is shorter than a block. -/
theorem entry_room {content stored : List UInt8} {idx : Nat}
    (entry : Entry content idx stored) :
    2 + stored.length + 8 ≤ kcndbFileBufsiz := by
  have short := entry.short
  have block : 2 + kcnMsgMaxlocsiz + 8 ≤ kcndbFileBufsiz := by decide
  omega

/-- In a vacant first slot the offset of the new entry is stored. -/
theorem wp_locLink_first
    (bounded : s.content.length ≤ offMax)
    (short : loc.length ≤ kcnMsgMaxlocsiz)
    (vacant : slotAt s.content 0 = 0)
    (contentEq : ctx.loc.content = s.content)
    (locsizeEq : ctx.base.kdbLocsize = s.locsize)
    (sizeEq : ctx.loc.kb.size = kcndbFileBufsiz)
    (heading : ctx.loc.kb.headingdata = 8)
    (clean : Trace.Clean ctx.env.trace) :
    wp (locLink loc 0)
      (fun result ctx' => shownAdd result ctx' = s.firstAdded loc)
      (· = .starved) ctx := by
  have block : 2 + kcnMsgMaxlocsiz + 8 ≤ kcndbFileBufsiz := by decide
  have place :
      ((0 : UInt64) + UInt64.ofNat ctx.loc.kb.headingdata - 8).toNat =
        0 := by
    rw [heading]
    rfl
  refine wp_locLink_cases rfl ?_ sizeEq ?_ ?_ ?_ ?_
  · intro beyond
    rw [length_entryBytes] at beyond
    omega
  · intro ctx' torn
    exact absurd torn clean.not_torn
  · intro ctx' reasons _ _
    rcases reasons with unclean | beyond
    · exact absurd clean unclean
    · rw [contentEq] at beyond
      omega
  · intro ctx' reasons _ _
    rcases reasons with unclean | beyond
    · exact absurd clean unclean
    · rw [place] at beyond
      omega
  · intro ctx' content' locsize'
    rw [place, contentEq, locsizeEq] at content'
    rw [locsizeEq] at locsize'
    rw [firstAdded, if_pos vacant, shownAdd, content', locsize',
      locsizeEq]

/-- The entry that a first slot leads to is taken for the locator. -/
theorem wp_locWalk_first
    {base rounds : Nat} {before after : List UInt8}
    (wellFormed : s.WellFormed)
    (taken : slotAt s.content 0 ≠ 0) (fits : s.FirstFits loc)
    (contentEq : ctx.loc.content = s.content)
    (window : ctx.loc.Window base before after)
    (slot : slotAt s.content (base + before.length) = slotAt s.content 0)
    (enough : 8 ≤ after.length)
    (clean : Trace.Clean ctx.env.trace) :
    wp (locWalk loc (rounds + 1))
      (fun result ctx' =>
        result = .found (slotAt s.content 0) ∧
          ∃ later, ctx.LocReads later ctx')
      (· = .starved) ctx := by
  obtain ⟨stored, entry⟩ := wellFormed.first taken
  have bounded := wellFormed.bounded
  have lenEq := entry.lenAt_eq
  have inside := entry.inside
  have room := entry_room entry
  have matched := fits.resolve_left taken
  rw [← contentEq] at slot
  refine wp_locWalk_round window slot rfl (by omega) ?_ ?_ ?_ ?_ ?_
  · intro beyond
    rw [contentEq, lenEq] at beyond
    omega
  · intro zero
    rw [contentEq] at zero
    exact absurd zero taken
  · intro _ ctx' later reads reasons
    rw [reads.trace_eq] at clean
    rw [contentEq, lenEq] at reasons
    rcases reasons with unclean | far | beyond
    · exact absurd (Trace.clean_append.mp clean).1 unclean
    · omega
    · omega
  · intro _ ctx' later reads _
    rw [contentEq]
    exact ⟨rfl, later, reads⟩
  · intro _ ctx' later before' after' unmatched
    rw [contentEq, matched] at unmatched
    cases unmatched

/-- Where the first slot fits, how reads are split makes no difference. -/
theorem wp_locAdd_first
    (wellFormed : s.WellFormed) (seen : s.Seen ctx)
    (short : loc.length ≤ kcnMsgMaxlocsiz)
    (hash : locHash loc = 0) (fits : s.FirstFits loc)
    (clean : Trace.Clean ctx.env.trace) :
    wp (locAdd loc)
      (fun result ctx' => shownAdd result ctx' = s.firstAdded loc)
      (· = .starved) ctx := by
  have hash : kcnStrHash loc locHashsiz = 0 := hash
  have contentEq := seen.content_eq
  have slots := wellFormed.slots
  have table : locIndexsiz ≤ locIndextablesiz := by decide
  unfold locAdd
  rw [wp_bind]
  refine wp_locFind_walk rfl ?_ seen.size_eq ?_ ?_
  · intro nonzero
    rw [hash] at nonzero
    exact absurd rfl nonzero
  · intro ctx₁ taken reads reasons
    rw [reads.trace_eq] at clean
    rcases reasons with unclean | beyond
    · exact absurd (Trace.clean_append.mp clean).1 unclean
    · rw [contentEq] at beyond
      omega
  · intro ctx₁ taken before after rounds reads window heading enough
    rw [hash, Nat.mul_zero] at heading
    rw [heading, Nat.zero_add] at enough
    have enough : 8 ≤ after.length := enough
    have content₁ := reads.content_eq.trans contentEq
    have later : Trace.Clean ctx₁.env.trace := by
      rw [reads.trace_eq] at clean
      exact (Trace.clean_append.mp clean).2
    have slot :
        slotAt s.content (0 + before.length) = slotAt s.content 0 := by
      rw [heading]
    cases rounds with
    | zero =>
        rfl
    | succ rounds =>
        by_cases vacant : slotAt s.content 0 = 0
        · refine wp_locWalk_ends window enough ?_ ?_
          · rw [content₁, slot, vacant]
          · intro ctx₂ traceEq content₂ baseEq sizeEq heading₂
            rw [heading, Nat.zero_add] at heading₂
            refine wp_locLink_first wellFormed.bounded short vacant
              (content₂.trans content₁) ?_ sizeEq heading₂
              (traceEq ▸ later)
            rw [baseEq, reads.frame]
            exact seen.locsize_eq
        · refine wp_imp (wp_locWalk_first wellFormed vacant fits content₁
            window slot enough later) ?_
          rintro _ ctx₂ ⟨rfl, taken₂, reads₂⟩
          have moved := reads.trans reads₂
          have locsizeEq : ctx₂.base.kdbLocsize = s.locsize := by
            rw [moved.frame]
            exact seen.locsize_eq
          change shownAdd _ _ = _
          rw [firstAdded, if_neg vacant, shownAdd, locsizeEq,
            moved.content_eq, contentEq]

/-- Where the first slot fits, the call returns if its reads are full. -/
theorem locAdd_first_returns
    (wellFormed : s.WellFormed) (seen : s.Seen ctx)
    (short : loc.length ≤ kcnMsgMaxlocsiz)
    (hash : locHash loc = 0) (fits : s.FirstFits loc) :
    ∃ trace, Trace.Favourable trace ∧ Trace.Clean trace ∧
      ∃ result ctx',
        locAdd loc (TableCtx.traceLens.set ctx trace) =
          .ok (result, ctx') := by
  have contentEq := seen.content_eq
  have bounded := wellFormed.bounded
  have slots := wellFormed.slots
  have table : 8 ≤ locIndextablesiz := by decide
  have block : 8 ≤ kcndbFileBufsiz := by decide
  have zero : slotOff 0 = 0 := rfl
  let later : Trace :=
    if slotAt s.content 0 = 0 then linkAnswers else oneRead
  have favourable : Trace.Favourable (oneRead ++ later) := by
    unfold later
    split <;>
      simp [Trace.Favourable, oneRead, linkAnswers, Event.Favours,
        Event.Fails, Event.ReadsFull]
  have full :
      Transfer.amount
          (min kcndbFileBufsiz
            (TableCtx.traceLens.set ctx
              (oneRead ++ later)).loc.content.length) .full =
        min kcndbFileBufsiz s.content.length := by
    rw [← contentEq]
    rfl
  refine ⟨oneRead ++ later, favourable, favourable.clean, ?_⟩
  have returns :
      wp (locAdd loc) (fun _ _ => True) (fun _ => False)
        (TableCtx.traceLens.set ctx (oneRead ++ later)) := by
    unfold locAdd
    rw [wp_bind]
    refine wp_locFind_answered rfl seen.size_eq ?_ ?_ ?_
    · rw [full]
      omega
    · intro missing
      rw [hash, zero] at missing
      exact absurd missing (Nat.not_lt_zero _)
    · intro ctx₁ before after traceEq contentEq₁ baseEq window heading
        total
      rw [full] at total
      rw [hash, zero] at heading
      have contentEq₁ : ctx₁.loc.content = s.content :=
        contentEq₁.trans contentEq
      have enough : 8 ≤ after.length := by omega
      have slotEq :
          slotAt ctx₁.loc.content (0 + before.length) =
            slotAt s.content 0 := by
        rw [heading, contentEq₁]
      by_cases vacant : slotAt s.content 0 = 0
      · refine wp_locWalk_ends window enough (slotEq.trans vacant) ?_
        intro ctx₂ traceEq₂ contentEq₂ _ sizeEq headingEq
        rw [heading, Nat.zero_add] at headingEq
        refine wp_locLink_answered ?_ sizeEq short ?_ ?_
          fun _ _ _ => trivial
        · rw [traceEq₂, traceEq]
          exact if_pos vacant
        · rw [contentEq₂, contentEq₁]
          exact bounded
        · rw [headingEq]
          exact Nat.zero_le _
      · obtain ⟨stored, entry⟩ := wellFormed.first vacant
        have matched := fits.resolve_left vacant
        rw [entry.locAt_eq] at matched
        have inside := entry.inside
        have room := entry_room entry
        have answer : ctx₁.env.trace = .seek none :: .read .full :: [] :=
          traceEq.trans (if_neg vacant)
        refine wp_locWalk_entry_answered window enough slotEq vacant
          (by rw [contentEq₁]; exact entry)
          (by rw [contentEq₁]; exact bounded) answer ?_ ?_ ?_
        · rw [contentEq₁]
          simp only [Transfer.amount]
          omega
        · intro _ _ _ _
          trivial
        · intro unmatched
          rw [matched] at unmatched
          cases unmatched
  obtain ⟨result, ctx', ran, _⟩ := wp_returns returns
  exact ⟨result, ctx', ran⟩

/-- Where the first slot fits, adding is independent. -/
theorem addIndependent_first
    (wellFormed : s.WellFormed)
    (short : loc.length ≤ kcnMsgMaxlocsiz)
    (hash : locHash loc = 0) (fits : s.FirstFits loc) :
    s.AddIndependent loc := by
  intro ctx seen
  obtain ⟨trace, favourable, clean, result, ctx', ran⟩ :=
    locAdd_first_returns wellFormed seen short hash fits
  have shown :=
    wp_ok (wp_locAdd_first wellFormed (seen.set trace) short hash fits
      clean) ran
  refine ⟨trace, result, ctx', favourable, ran, fun split splitting => ?_⟩
  rw [shown]
  exact wp_locAdd_first wellFormed (seen.set split) short hash fits
    splitting.clean

/-- A call that meets an assertion with some reads is not independent. -/
theorem not_independent
    {α β : Type} {program : TableCtx.TableOp α} {shows : α → TableCtx → β}
    {split : Trace} (splitting : Trace.Splitting split)
    (fails :
      wp program (fun _ _ => False) (· = .assertion)
        (TableCtx.traceLens.set ctx split)) :
    ¬ Independent program shows ctx := by
  rintro ⟨_, _, _, _, _, same⟩
  obtain ⟨reason, starved, assertion⟩ :=
    wp_clash (same split splitting) fails
  rw [starved] at assertion
  cases assertion

/-- A first read of one slot only does not reach any other slot. -/
theorem wp_locAdd_shortSlot
    (wellFormed : s.WellFormed) (seen : s.Seen ctx)
    (hash : locHash loc ≠ 0) :
    wp (locAdd loc) (fun _ _ => False) (· = .assertion)
      (TableCtx.traceLens.set ctx [.seek none, .read (.short 8)]) := by
  have slots := wellFormed.slots
  have table : 8 ≤ locIndextablesiz := by decide
  have block : 8 ≤ kcndbFileBufsiz := by decide
  have contentEq := seen.content_eq
  have amount :
      Transfer.amount
          (min kcndbFileBufsiz
            (TableCtx.traceLens.set ctx
              [.seek none, .read (.short 8)]).loc.content.length)
          (.short 8) = 8 := by
    have same :
        (TableCtx.traceLens.set ctx
          [.seek none, .read (.short 8)]).loc.content = s.content :=
      contentEq
    rw [same]
    simp only [Transfer.amount]
    omega
  have far : 8 ≤ slotOff (locHash loc) := by
    unfold slotOff locIndexsiz
    omega
  unfold locAdd
  rw [wp_bind]
  refine wp_locFind_answered rfl seen.size_eq (by rw [amount])
    (fun _ => rfl) ?_
  intro ctx₁ before after _ _ _ window heading total
  rw [amount] at total
  refine wp_locWalk_cut window ?_ ?_ 0
  · omega
  · rfl

/-- A read of an entry without its header's worth leaves its link cut off. -/
theorem wp_locAdd_shortEntry
    {stored : List UInt8}
    (wellFormed : s.WellFormed) (seen : s.Seen ctx)
    (hash : locHash loc = 0) (taken : slotAt s.content 0 ≠ 0)
    (entry : Entry s.content (slotAt s.content 0).toNat stored)
    (unmatched : sameLoc stored loc = false) :
    wp (locAdd loc) (fun _ _ => False) (· = .assertion)
      (TableCtx.traceLens.set ctx
        (oneRead ++ [.seek none, .read (.short (stored.length + 8))])) := by
  have slots := wellFormed.slots
  have bounded := wellFormed.bounded
  have table : 8 ≤ locIndextablesiz := by decide
  have block : 8 ≤ kcndbFileBufsiz := by decide
  have zero : slotOff 0 = 0 := rfl
  have contentEq := seen.content_eq
  have inside := entry.inside
  have room := entry_room entry
  have full :
      Transfer.amount
          (min kcndbFileBufsiz
            (TableCtx.traceLens.set ctx
              (oneRead ++
                [.seek none,
                  .read (.short (stored.length + 8))])).loc.content.length)
          .full =
        min kcndbFileBufsiz s.content.length := by
    rw [← contentEq]
    rfl
  unfold locAdd
  rw [wp_bind]
  refine wp_locFind_answered rfl seen.size_eq ?_ ?_ ?_
  · rw [full]
    omega
  · intro _
    rfl
  · intro ctx₁ before after traceEq contentEq₁ _ window heading total
    rw [full] at total
    rw [hash, zero] at heading
    have contentEq₁ : ctx₁.loc.content = s.content :=
      contentEq₁.trans contentEq
    have slotEq :
        slotAt ctx₁.loc.content (0 + before.length) =
          slotAt s.content 0 := by
      rw [heading, contentEq₁]
    have amount :
        Transfer.amount
            (min kcndbFileBufsiz
              (ctx₁.loc.content.length - (slotAt s.content 0).toNat))
            (.short (stored.length + 8)) =
          stored.length + 8 := by
      rw [contentEq₁]
      simp only [Transfer.amount]
      omega
    refine wp_locWalk_entry_answered window (by omega) slotEq taken
      (by rw [contentEq₁]; exact entry)
      (by rw [contentEq₁]; exact bounded) traceEq ?_ ?_ ?_
    · rw [amount]
    · intro matched
      rw [unmatched] at matched
      cases matched
    · intro _ ctx₂ before' after' _ _ window' heading' total'
      rw [amount] at total'
      refine wp_locWalk_cut window' ?_ ?_ 1
      · omega
      · rfl

/-- Adding is independent of the reads exactly where the first slot fits. -/
theorem addIndependent_iff
    (wellFormed : s.WellFormed)
    (short : loc.length ≤ kcnMsgMaxlocsiz) :
    s.AddIndependent loc ↔ locHash loc = 0 ∧ s.FirstFits loc := by
  constructor
  · intro independent
    obtain ⟨ctx, seen⟩ : ∃ ctx, s.Seen ctx :=
      ⟨s.fresh [], rfl, rfl, List.length_replicate⟩
    have here := independent ctx seen
    have hash : locHash loc = 0 := by
      by_contra other
      refine not_independent ?_
        (wp_locAdd_shortSlot wellFormed seen other) here
      simp [Trace.Splitting, Event.Splits, Event.Fails]
    refine ⟨hash, ?_⟩
    by_contra unfit
    have taken : slotAt s.content 0 ≠ 0 := fun zero => unfit (Or.inl zero)
    obtain ⟨stored, entry⟩ := wellFormed.first taken
    have unmatched : sameLoc stored loc = false := by
      rw [← entry.locAt_eq]
      exact Bool.eq_false_iff.mpr fun same => unfit (Or.inr same)
    refine not_independent ?_
      (wp_locAdd_shortEntry wellFormed seen hash taken entry unmatched)
      here
    simp [Trace.Splitting, Event.Splits, Event.Fails, oneRead]
  · rintro ⟨hash, fits⟩
    exact addIndependent_first wellFormed short hash fits

/-! ### Looking up -/

variable {idx : UInt64} {stored : List UInt8}

/-- An entry is found if it has no bytes or if the reads are full. -/
theorem wp_locLookup_entry
    (wellFormed : s.WellFormed) (seen : s.Seen ctx)
    (entry : Entry s.content idx.toNat stored)
    (clean : Trace.Clean ctx.env.trace)
    (covered : stored = [] ∨ ∀ event ∈ ctx.env.trace, event.ReadsFull) :
    wp (locLookup idx)
      (fun result ctx' =>
        shownLookup result ctx' = (some stored, s.content))
      (· = .starved) ctx := by
  have contentEq := seen.content_eq
  have locsizeEq := seen.locsize_eq.trans wellFormed.locsize_eq
  have bounded := wellFormed.bounded
  have inside := entry.inside
  have room := entry_room entry
  have lenEq : lenAt ctx.loc.content idx.toNat = stored.length := by
    rw [contentEq]
    exact entry.lenAt_eq
  have resolves :
      Resolves ctx.base.kdbLocsize ctx.loc.content idx := by
    rw [Resolves, locsizeEq, lenEq, contentEq]
    omega
  have lookedUp :
      wp (locLookup idx)
        (fun result ctx' => ctx.LookedUp idx result ctx')
        (· = .starved) ctx := by
    refine wp_locLookup rfl ?_ seen.size_eq fun _ _ outcome => outcome
    intro beyond
    rw [lenEq] at beyond
    omega
  refine wp_imp ((keeps_lookup idx).wp lookedUp) ?_
  rintro result ctx' ⟨outcome, kept⟩
  simp only [TableCtx.locFixed, KcndbFile.fixed, TableCtx.locLens,
    Prod.mk.injEq] at kept
  have contentEq' : ctx'.loc.content = s.content :=
    kept.1.2.2.2.1.trans contentEq
  rw [shownLookup, contentEq']
  cases result with
  | none =>
      rcases lookedUp_none outcome with unclean | unresolved
      · exact absurd clean unclean
      · exact absurd resolves unresolved
  | some loc =>
      cases outcome with
      | found _ taken _ _ _ shape _ cleanTaken _ moved exact =>
          have covers :
              2 + stored.length ≤
                Trace.moved
                  (min kcndbFileBufsiz
                    (ctx.loc.content.length - idx.toNat)) taken := by
            rw [lenEq] at moved
            rcases covered with rfl | full
            · simpa using moved
            · refine moved_covers cleanTaken ?_ (by omega) ?_
              · intro event member
                exact full event (by rw [shape]; simp [member])
              · rw [contentEq]
                omega
          have locEq := exact (by rw [lenEq]; exact covers)
          rw [locEq, contentEq, entry.locAt_eq]

/-- With full reads the call returns. -/
theorem locLookup_returns
    (wellFormed : s.WellFormed) (seen : s.Seen ctx)
    (entry : Entry s.content idx.toNat stored) :
    ∃ trace, Trace.Favourable trace ∧ ∃ result ctx',
      locLookup idx (TableCtx.traceLens.set ctx trace) =
        .ok (result, ctx') := by
  have bounded := wellFormed.bounded
  have inside := entry.inside
  have room := entry_room entry
  have lenEq : lenAt ctx.loc.content idx.toNat = stored.length := by
    rw [seen.content_eq]
    exact entry.lenAt_eq
  have feasible :
      Feasible TableCtx.traceLens Event.Favours (locLookup idx)
        (fun _ _ => True) ctx :=
    feasible_locLookup seen.size_eq (by omega) (by omega)
  obtain ⟨taken, result, ctx', favourable, _, runs⟩ := feasible
  exact ⟨taken ++ [], by simpa [Trace.Favourable] using favourable,
    result, _, runs []⟩

/--
A read that returns as many bytes as the locator has is taken for enough, and
the end of the locator is then what was in the buffer before.
-/
theorem wp_locLookup_stale
    {byte : UInt8}
    (wellFormed : s.WellFormed) (seen : s.Seen ctx)
    (entry : Entry s.content idx.toNat stored)
    (nonempty : stored ≠ [])
    (memory : ctx.loc.kb.bytes = List.replicate kcndbFileBufsiz byte) :
    wp (locLookup idx)
      (fun result _ => ∃ loc,
        result = some loc ∧ loc[stored.length - 1]? = some byte)
      (fun _ => False)
      (TableCtx.traceLens.set ctx
        [.seek none, .read (.short (max 2 stored.length))]) := by
  have contentEq := seen.content_eq
  have sizeEq := seen.size_eq
  have locsizeEq := seen.locsize_eq.trans wellFormed.locsize_eq
  have bounded := wellFormed.bounded
  have inside := entry.inside
  have room := entry_room entry
  have positive := List.length_pos_iff.mpr nonempty
  have amount :
      Transfer.amount
          (min kcndbFileBufsiz (ctx.loc.content.length - idx.toNat))
          (.short (max 2 stored.length)) =
        max 2 stored.length := by
    rw [contentEq]
    simp only [Transfer.amount]
    omega
  unfold locLookup
  rw [wp_bind, wp_gets, wp_ite]
  refine ⟨fun beyond => ?_, fun _ => ?_⟩
  · simp only [TableCtx.traceLens, locsizeEq] at beyond
    omega
  · simp only [wp_bind, TableCtx.onLoc, wp_zoom, FileCtx.buf]
    simp only [TableCtx.locLens, FileCtx.kbLens, TableCtx.traceLens]
    have cleared :
        wp (reset 0)
          (fun _ kb => kb.Holds kcndbFileBufsiz 0 [] []) (fun _ => False)
          ctx.loc.kb := by
      rw [← sizeEq]
      exact wp_reset (holds_self _) (Nat.zero_le _) fun _ holds => holds
    refine wp_imp ((keeps_bytes_reset 0).wp cleared) ?_
    rintro _ kb₁ ⟨empty, same₁⟩
    refine wp_sysSeek_answered rfl (by rw [contentEq] at *; omega) ?_
    simp only [↓reduceIte, wp_bind, wp_zoom]
    have window₁ :
        ({ content := ctx.loc.content, off := idx.toNat,
           kb := kb₁ } : KcndbFile).Window idx.toNat [] [] :=
      ⟨empty, by simp, by simp⟩
    refine wp_ensure_answered window₁ rfl (by decide) ?_ ?_
    · rw [amount]
      omega
    rw [amount]
    intro ctx₂ _ contentEq₂ window₂ memory₂
    simp only at contentEq₂ window₂ memory₂
    have data :
        (slice ctx.loc.content idx.toNat (max 2 stored.length)).length =
          max 2 stored.length := by
      rw [length_slice, contentEq]
      omega
    have header :
        (word16 (slice ctx₂.file.content (idx.toNat + 0) 2)).toNat =
          stored.length := by
      rw [contentEq₂, contentEq]
      exact entry.lenAt_eq
    generalize slice ctx.loc.content idx.toNat (max 2 stored.length) = new
      at window₂ memory₂ data
    simp only [↓reduceIte, wp_bind, wp_zoom]
    have word :
        wp get16
          (fun len kb => len.toNat = stored.length ∧
            kb.Holds kcndbFileBufsiz 0 (new.take 2) (new.drop 2))
          (fun _ => False) ctx₂.file.kb :=
      wp_window_get16 window₂
        (fun _ kb window => ⟨header, window.holds⟩)
        fun short => absurd short (by omega)
    refine wp_imp ((keeps_bytes_get16).wp word) ?_
    rintro len kb₃ ⟨⟨lenEq, holds₃⟩, same₃⟩
    have total := holds₃.len_eq
    have cursor := holds₃.cp_eq
    rw [List.length_take, data] at cursor
    rw [← List.length_append, List.take_append_drop, data] at total
    have memoryLength := kb₃.length_bytes
    refine wp_ensure_enough (by rw [lenEq, total]; omega) ?_
    simp only [↓reduceIte, wp_bind, wp_gets]
    refine ⟨_, rfl, ?_⟩
    rw [getElem?_slice, if_pos (by omega), same₃, memory₂,
      getElem?_overwrite _ _ _ _ (Nat.zero_le _), if_neg (by omega),
      same₁, memory]
    exact List.getElem?_replicate_of_lt (by omega)

/-- Looking up is independent of the reads exactly if there is no locator. -/
theorem lookupIndependent_iff
    (wellFormed : s.WellFormed)
    (entry : Entry s.content idx.toNat stored) :
    s.LookupIndependent idx ↔ stored = [] := by
  constructor
  · intro independent
    by_contra nonempty
    -- the buffer ends in a byte that the locator does not end in
    obtain ⟨last, lastEq⟩ : ∃ last, stored[stored.length - 1]? = some last :=
      ⟨_, List.getElem?_eq_getElem
        (Nat.sub_lt (List.length_pos_iff.mpr nonempty) Nat.one_pos)⟩
    obtain ⟨ctx, seen, memory⟩ :
        ∃ ctx, s.Seen ctx ∧
          ctx.loc.kb.bytes =
            List.replicate kcndbFileBufsiz (last + 1) := by
      refine ⟨{ s.fresh [] with
        loc := {
          content := s.content
          off := 0
          kb := KcnBuf.new (List.replicate kcndbFileBufsiz (last + 1))
        } }, ⟨rfl, rfl, List.length_replicate⟩, rfl⟩
    obtain ⟨trace, result, ctx', favourable, ran, same⟩ :=
      independent ctx seen
    have shown :=
      wp_ok (wp_locLookup_entry wellFormed (seen.set trace) entry
        favourable.clean (Or.inr favourable.full)) ran
    obtain ⟨result', ctx'', ran', loc, rfl, ends⟩ :=
      wp_returns
        (wp_locLookup_stale wellFormed seen entry nonempty memory)
    have shown' := wp_ok (same _ (by
      simp [Trace.Splitting, Event.Splits, Event.Fails])) ran'
    rw [shown, shownLookup, Prod.mk.injEq, Option.some.injEq] at shown'
    rw [shown'.1, lastEq, Option.some.injEq] at ends
    exact absurd ends (by simp)
  · rintro rfl ctx seen
    obtain ⟨trace, favourable, result, ctx', ran⟩ :=
      locLookup_returns wellFormed seen entry
    have shown :=
      wp_ok (wp_locLookup_entry wellFormed (seen.set trace) entry
        favourable.clean (Or.inl rfl)) ran
    refine ⟨trace, result, ctx', favourable, ran,
      fun split splitting => ?_⟩
    rw [shown]
    exact wp_locLookup_entry wellFormed (seen.set split) entry
      splitting.clean (Or.inl rfl)

/-! ### Files of runs -/

/-- A file that the locators of a run are logged in is well formed. -/
theorem Log.wellFormed
    {calls : List LocCall} {buckets : Buckets}
    (log : Log calls s buckets) :
    s.WellFormed :=
  ⟨log.locsize_eq, log.indexed.slots,
    fun _ bound => ⟨_, log.indexed.chain bound⟩, log.bounded⟩

/--
For every well-formed file: adding a locator does not depend on what the reads
return exactly if its bucket is the first one, which is vacant or leads to an
entry for it; looking up an entry does not exactly if its locator is empty.
-/
theorem reads_independent (wellFormed : s.WellFormed) :
    (∀ loc : List UInt8, loc.length ≤ kcnMsgMaxlocsiz →
        (s.AddIndependent loc ↔ locHash loc = 0 ∧ s.FirstFits loc)) ∧
      ∀ (idx : UInt64) (stored : List UInt8),
        Entry s.content idx.toNat stored →
          (s.LookupIndependent idx ↔ stored = []) :=
  ⟨fun _ short => addIndependent_iff wellFormed short,
    fun _ _ entry => lookupIndependent_iff wellFormed entry⟩

/-- A file with two entries to which `reads_independent` applies. -/
theorem reads_independent_two :
    ∃ s, Run Adds initial [⟨[1], some 2048⟩, ⟨[2], some 2059⟩] s ∧
      s.AddIndependent [169] ∧ ¬ s.AddIndependent [1] ∧
      ¬ s.LookupIndependent 2048 := by
  obtain ⟨s, run⟩ := run_two
  obtain ⟨buckets, log⟩ := logged_run run separate_two.allAlike
  obtain ⟨added, lookedUp⟩ := reads_independent log.wellFormed
  have first : locHash [1] = 83 := by decide
  have second : locHash [2] = 84 := by decide
  refine ⟨s, run, (added [169] (by decide)).mpr ⟨by decide, Or.inl ?_⟩,
    ?_, ?_⟩
  · refine log.indexed.vacant 0 (by decide) ?_
    by_contra taken
    obtain ⟨⟨idx, loc⟩, bucket⟩ := Option.ne_none_iff_exists'.mp taken
    obtain ⟨hash, call, member, rfl⟩ := log.stored 0 idx loc bucket
    rcases List.mem_pair.mp member with rfl | rfl
    · rw [first] at hash
      cases hash
    · rw [second] at hash
      cases hash
  · rw [added [1] (by decide), first]
    simp
  · obtain ⟨stored, bucket, _⟩ :=
      log.added ⟨[1], some 2048⟩ (by simp) 2048 rfl
    have taken :=
      log.indexed.taken _ (by rw [first]; decide) 2048 stored bucket
    rw [lookedUp 2048 stored taken.entry]
    rintro rfl
    exact absurd taken.hash (by decide)

/-- In a new file the first read may end before the slot of a locator. -/
theorem reads_not_independent :
    initial.WellFormed ∧ ¬ initial.AddIndependent [1] := by
  refine ⟨log_initial.wellFormed, fun independent => ?_⟩
  have hash :=
    ((addIndependent_iff log_initial.wellFormed (by decide)).mp
      independent).1
  exact absurd hash (by decide)

end LocTable

end Kcn
