import Kcn.LocAdd

namespace Kcn

open Program Bytes KcnBuf KcndbDb

/-!
# Entries behind the index

The offset of a new entry is stored in the index, even where the chain of the
locator was not empty, so nothing behind the index is ever written again.  An
entry that a record refers to stays there as long as the walks only pass
complete entries.
-/

/--
The entries that the walk for a locator comes to: they are complete and stand
behind the index, one that is taken for the locator is that of the locator,
and a new offset would be stored in the index.
-/
structure LeadsAlong
    (content loc : List UInt8) (idxs : List UInt64) : Prop where
  chain : Chain content (slotOff (locHash loc)) idxs
  behind : ∀ idx ∈ idxs, locIndextablesiz ≤ idx.toNat
  exact : ∀ idx ∈ idxs,
    sameLoc (locAt content idx.toNat) loc = true →
      locAt content idx.toNat = loc
  inside :
    (∀ idx ∈ idxs, sameLoc (locAt content idx.toNat) loc = false) →
      ∀ last ∈ idxs.getLast?,
        2 + lenAt content last.toNat + 8 ≤ locIndextablesiz

/-- The walk for a locator is not misled. -/
def Leads (content loc : List UInt8) : Prop :=
  ∃ idxs, LeadsAlong content loc idxs

/-- A vacant slot leads to no other locator. -/
theorem leads_of_vacant
    {content loc : List UInt8}
    (vacant : slotAt content (slotOff (locHash loc)) = 0) :
    Leads content loc :=
  ⟨[], .ends vacant, by simp, by simp, by simp⟩

/-- A slot that leads to the entry of the locator at once. -/
theorem Taken.leads
    {content loc stored : List UInt8} {idx : UInt64}
    (taken : Taken content (locHash loc) idx stored)
    (own : stored = loc) :
    Leads content loc := by
  have locEq : locAt content idx.toNat = loc :=
    taken.entry.locAt_eq.trans own
  refine ⟨[idx], taken.chain, ?_, ?_, ?_⟩
  · simpa using taken.behind
  · simpa using fun _ => locEq
  · intro unmatched
    have missed := unmatched idx List.mem_cons_self
    rw [locEq, sameLoc_self] at missed
    cases missed

theorem Chain.entry
    {content : List UInt8} {off : Nat} {idxs : List UInt64}
    (chain : Chain content off idxs) :
    ∀ idx ∈ idxs, ∃ loc, Entry content idx.toNat loc := by
  induction chain with
  | ends _ =>
      simp
  | leads loc _ _ entry _ inductionHypothesis =>
      intro idx member
      rcases List.mem_cons.mp member with rfl | later
      · exact ⟨loc, entry⟩
      · exact inductionHypothesis idx later

/-- A complete entry of a file that is not too long is at hand. -/
theorem Entry.reached
    {content loc : List UInt8} {idx : Nat} (entry : Entry content idx loc)
    (bounded : content.length ≤ offMax) :
    ¬ (offMax < idx ∨
      content.length < idx + (lenAt content idx + 8)) := by
  have lenEq := entry.lenAt_eq
  have inside := entry.inside
  omega

/-- Where the walk found nothing, the place before the cursor is in the index. -/
theorem LeadsAlong.heading_inside
    {content loc : List UInt8} {idxs : List UInt64}
    (leads : LeadsAlong content loc idxs)
    (unmatched : ∀ idx ∈ idxs,
      sameLoc (locAt content idx.toNat) loc = false) :
    (match idxs.getLast? with
      | none => locIndexsiz * locHash loc
      | some idx => 2 + lenAt content idx.toNat) + 8 ≤
        locIndextablesiz := by
  cases last : idxs.getLast? with
  | none =>
      exact slotOff_inside (locHash_lt loc)
  | some idx =>
      exact leads.inside unmatched idx last

/-- The file did not shrink, and the entries behind the index are kept. -/
structure HeapKept (content content' : List UInt8) : Prop where
  length_le : content.length ≤ content'.length
  entry : ∀ idx loc,
    locIndextablesiz ≤ idx → Entry content idx loc →
      Entry content' idx loc

namespace HeapKept

variable {content content' content'' : List UInt8}

theorem refl (content : List UInt8) : HeapKept content content :=
  ⟨Nat.le_refl _, fun _ _ _ entry => entry⟩

theorem of_eq (same : content' = content) : HeapKept content content' :=
  same ▸ refl content

theorem trans
    (first : HeapKept content content')
    (second : HeapKept content' content'') :
    HeapKept content content'' :=
  ⟨Nat.le_trans first.length_le second.length_le,
    fun idx loc behind entry =>
      second.entry idx loc behind (first.entry idx loc behind entry)⟩

/-- Appending keeps the entries. -/
theorem append (content new : List UInt8) :
    HeapKept content (content ++ new) := by
  refine ⟨?_, fun _ _ _ entry => entry.append new⟩
  rw [List.length_append]
  exact Nat.le_add_right _ _

/-- Storing in the index keeps the entries. -/
theorem patch
    {off : Nat} {new : List UInt8}
    (slots : locIndextablesiz ≤ content.length)
    (within : off + new.length ≤ locIndextablesiz) :
    HeapKept content (overwrite content off new) := by
  refine ⟨?_, ?_⟩
  · rw [length_overwrite _ _ _ (by omega)]
    omega
  · intro idx loc behind entry
    exact entry.overwrite (by omega) (by omega)

end HeapKept

namespace TableCtx

/-- The locator file has its index, and its cached size is right. -/
structure LocReady (ctx : TableCtx) : Prop where
  size_eq : ctx.loc.kb.size = kcndbFileBufsiz
  slots : locIndextablesiz ≤ ctx.loc.content.length
  locsize : ctx.base.kdbLocsize = ctx.loc.content.length
  bounded : ctx.loc.content.length ≤ offMax

/-- The entries are kept, and the cached size is right again. -/
structure LocKept (ctx ctx' : TableCtx) : Prop where
  heap : HeapKept ctx.loc.content ctx'.loc.content
  locsize : ctx'.base.kdbLocsize = ctx'.loc.content.length

/--
What `kcndb_db_loc_add` did: it returns the index of an entry of the locator,
or an answer was an error.
-/
inductive LocStored
    (ctx : TableCtx) (loc : List UInt8) :
    Option UInt64 → TableCtx → Prop where
  | torn (ctx' : TableCtx) :
      ctx.env.trace.Torn →
      LocStored ctx loc none ctx'
  | failed (ctx' : TableCtx) :
      ¬ ctx.env.trace.Clean →
      ctx.LocKept ctx' →
      LocStored ctx loc none ctx'
  | stored (ctx' : TableCtx) (idx : UInt64) :
      ctx.LocKept ctx' →
      locIndextablesiz ≤ idx.toNat →
      Entry ctx'.loc.content idx.toNat loc →
      LocStored ctx loc (some idx) ctx'

end TableCtx

namespace KcndbDb

open TableCtx

variable {ctx : TableCtx} {loc : List UInt8}

/-- Along complete entries the loop only fails where an answer is an error. -/
theorem wp_locWalk_fails
    {content : List UInt8} {off base rounds : Nat}
    {idxs : List UInt64} {before after : List UInt8}
    (chain : Chain content off idxs)
    (bounded : content.length ≤ offMax)
    (contentEq : ctx.loc.content = content)
    (window : ctx.loc.Window base before after)
    (offEq : off = base + before.length) :
    wp (locWalk loc rounds)
      (fun result _ => result = .failed → ¬ ctx.env.trace.Clean)
      (fun _ => True) ctx := by
  induction chain generalizing ctx base before after rounds with
  | ends slot =>
      cases rounds with
      | zero =>
          trivial
      | succ rounds =>
          rw [← contentEq, offEq] at slot
          refine wp_locWalk_round window slot trivial
            (fun _ => trivial) (fun _ => trivial) ?_
            (fun nonzero => absurd rfl nonzero)
            (fun nonzero => absurd rfl nonzero)
            (fun nonzero => absurd rfl nonzero)
          intro _ _ _ _ fails
          cases fails
  | @leads off idx rest stored slot nonzero entry later
      inductionHypothesis =>
      cases rounds with
      | zero =>
          trivial
      | succ rounds =>
          rw [← contentEq, offEq] at slot
          refine wp_locWalk_round window slot trivial
            (fun _ => trivial) (fun _ => trivial)
            (fun zero => absurd zero nonzero) ?_ ?_ ?_
          · intro _ ctx' taken reads reason _ clean
            rw [contentEq] at reason
            rcases reason with unclean | beyond
            · rw [reads.trace_eq] at clean
              exact unclean (Trace.clean_append.mp clean).1
            · exact entry.reached bounded beyond
          · intro _ _ _ _ _ fails
            cases fails
          · intro _ ctx' reads before' after' _ moved _ window' heading _
            rw [contentEq] at heading
            refine wp_imp
              (inductionHypothesis (moved.content_eq.trans contentEq)
                window' ?_) ?_
            · rw [heading, linkOff, Nat.add_assoc]
            · intro result _ unclean fails clean
              rw [moved.trace_eq] at clean
              exact unclean fails (Trace.clean_append.mp clean).2

/-- So does the part of `kcndb_db_loc_add` up to the end of its loop. -/
theorem wp_locFind_fails
    {idxs : List UInt64} (ready : ctx.LocReady)
    (chain : Chain ctx.loc.content (slotOff (locHash loc)) idxs) :
    wp (locFind loc)
      (fun result _ => result = .failed → ¬ ctx.env.trace.Clean)
      (fun _ => True) ctx := by
  have slots := ready.slots
  refine wp_locFind_walk trivial (fun _ => trivial) ready.size_eq ?_ ?_
  · intro ctx' taken reads reason _ clean
    rcases reason with unclean | short
    · rw [reads.trace_eq] at clean
      exact unclean (Trace.clean_append.mp clean).1
    · unfold locIndextablesiz locHashsiz at slots
      omega
  · intro ctx' taken before after rounds first window heading _
    refine wp_imp
      (wp_locWalk_fails chain ready.bounded first.content_eq window ?_)
      ?_
    · rw [heading, Nat.zero_add]
      rfl
    · intro result _ unclean fails clean
      rw [first.trace_eq] at clean
      exact unclean fails (Trace.clean_append.mp clean).2

/-- Appending an entry and storing its offset in the index. -/
theorem entry_linked
    {content : List UInt8} {off : Nat}
    (idx : UInt64)
    (short : loc.length ≤ kcnMsgMaxlocsiz)
    (slots : locIndextablesiz ≤ content.length)
    (within : off + 8 ≤ locIndextablesiz) :
    HeapKept content
        (overwrite (content ++ entryBytes loc) off (bytes64 idx)) ∧
      Entry
        (overwrite (content ++ entryBytes loc) off (bytes64 idx))
        content.length loc := by
  have appended := HeapKept.append content (entryBytes loc)
  have patched :
      HeapKept (content ++ entryBytes loc)
        (overwrite (content ++ entryBytes loc) off (bytes64 idx)) :=
    .patch (Nat.le_trans slots appended.length_le) within
  exact ⟨appended.trans patched,
    patched.entry _ _ slots (Indexed.entry_appended short)⟩

/-- `kcndb_db_loc_add` along complete entries. -/
theorem wp_locAdd_stores
    (ready : ctx.LocReady) (leads : Leads ctx.loc.content loc)
    (short : loc.length ≤ kcnMsgMaxlocsiz) :
    wp (locAdd loc) (LocStored ctx loc) (fun _ => True) ctx := by
  obtain ⟨idxs, along⟩ := leads
  have chain := along.chain
  have sizes : Keeps locBufSize (locFind loc) :=
    keeps_locFind
      (fun _ keeps =>
        keeps_locBufSize (KcndbFile.bufSize_of_fixed keeps))
      loc
  have finds :=
    wp_and (wp_locFind chain ready.size_eq)
      (wp_locFind_fails ready chain)
  unfold locAdd
  refine wp_seq
    (wp_mono (sizes.wp finds) (fun _ _ both => both)
      fun _ _ => trivial) ?_
  rintro found ctx₁ ⟨⟨⟨taken, moved, walked⟩, fails⟩, sameSize⟩
  have baseEq : ctx₁.base = ctx.base := by
    rw [moved.frame]
  have unchanged : ctx.LocKept ctx₁ := by
    refine ⟨.of_eq moved.content_eq, ?_⟩
    rw [baseEq, moved.content_eq]
    exact ready.locsize
  cases found with
  | failed =>
      exact .failed _ (fails rfl) unchanged
  | found idx =>
      obtain ⟨member, matched⟩ := walked
      obtain ⟨stored, entry⟩ := chain.entry idx member
      have locEq : stored = loc :=
        entry.locAt_eq.symm.trans (along.exact idx member matched)
      refine .stored _ idx unchanged (along.behind idx member) ?_
      rw [moved.content_eq, ← locEq]
      exact entry
  | tail last =>
      obtain ⟨rfl, unmatched, heading⟩ := walked
      have within := along.heading_inside unmatched
      have headingEq :
          ctx₁.loc.kb.headingdata =
            (match idxs.getLast? with
              | none => locIndexsiz * locHash loc
              | some idx => 2 + lenAt ctx.loc.content idx.toNat) + 8 :=
        heading
      rw [← headingEq] at within
      have least : 8 ≤ ctx₁.loc.kb.headingdata := by
        rw [headingEq]
        exact Nat.le_add_left _ _
      have slots := ready.slots
      have bounded := ready.bounded
      have far : offMax < 2 ^ 64 := by decide
      have table : locIndextablesiz ≤ offMax := by decide
      have placeEq :=
        patchOff_heading least (by omega)
      have lengths := length_entryBytes loc
      have idxEq :
          (UInt64.ofNat ctx₁.base.kdbLocsize).toNat =
            ctx.loc.content.length := by
        rw [baseEq, ready.locsize, UInt64.toNat_ofNat',
          Nat.mod_eq_of_lt (by omega)]
      have uncleanOf :
          ¬ ctx₁.env.trace.Clean → ¬ ctx.env.trace.Clean := by
        intro unclean clean
        rw [moved.trace_eq] at clean
        exact unclean (Trace.clean_append.mp clean).2
      refine wp_locLink_cases trivial (fun _ => trivial)
        (sameSize.trans ready.size_eq) ?_ ?_ ?_ ?_
      · intro ctx₂ torn
        refine .torn _ ?_
        rw [moved.trace_eq]
        exact torn.append_left _
      · intro ctx₂ reason contentEq locsizeEq
        rw [moved.content_eq] at reason contentEq
        rw [baseEq] at locsizeEq
        refine .failed _ (uncleanOf (reason.resolve_right (by omega)))
          ⟨.of_eq contentEq, ?_⟩
        rw [locsizeEq, contentEq]
        exact ready.locsize
      · intro ctx₂ reason contentEq locsizeEq
        rw [placeEq] at reason
        rw [moved.content_eq] at contentEq
        rw [baseEq] at locsizeEq
        refine .failed _ (uncleanOf (reason.resolve_right (by omega)))
          ⟨?_, ?_⟩
        · rw [contentEq]
          exact .append _ _
        · rw [locsizeEq, contentEq, List.length_append, ready.locsize]
      · intro ctx₂ contentEq locsizeEq
        rw [placeEq, moved.content_eq, writeAt_inside _ _ _
          (by rw [List.length_append]; omega)] at contentEq
        rw [baseEq] at locsizeEq
        obtain ⟨kept, entry⟩ :=
          entry_linked (UInt64.ofNat ctx₁.base.kdbLocsize) short slots
            (show ctx₁.loc.kb.headingdata - 8 + 8 ≤ _ by omega)
        rw [← contentEq] at kept entry
        refine .stored _ _ ⟨kept, ?_⟩ (by rw [idxEq]; exact slots) ?_
        · rw [locsizeEq, contentEq, length_overwrite _ _ _
            (by rw [List.length_append]; omega), List.length_append,
            length_bytes64, ready.locsize]
          omega
        · rw [idxEq]
          exact entry

/-- `kcndb_db_loc_lookup` of a complete entry. -/
theorem wp_locLookup_entry
    {idx : UInt64} (ready : ctx.LocReady)
    (entry : Entry ctx.loc.content idx.toNat loc)
    (undisturbed : Trace.Clean ctx.env.trace ∧
      ∀ event ∈ ctx.env.trace, event.ReadsFull) :
    wp (locLookup idx) (fun result _ => result = some loc)
      (· = .starved) ctx := by
  have lenEq := entry.lenAt_eq
  have inside := entry.inside
  have short := entry.short
  have bounded := ready.bounded
  have block : 2 + kcnMsgMaxlocsiz ≤ kcndbFileBufsiz := by decide
  refine wp_locLookup rfl (fun beyond => by omega) ready.size_eq ?_
  obtain ⟨clean, full⟩ := undisturbed
  intro result ctx' looked
  cases looked with
  | absent _ absent =>
      rw [ready.locsize] at absent
      omega
  | refused _ event shape refusal =>
      rcases refusal with ⟨_, beyond⟩ | ⟨error, rfl⟩
      · omega
      · have fails := clean (.seek (some error)) (by
          rw [shape]
          exact List.mem_cons_self)
        exact absurd (by simp [Event.Fails]) fails
  | failed _ taken shape unclean =>
      refine absurd (fun event member => clean event ?_) unclean
      rw [shape]
      simp [member]
  | ended _ taken _ _ beyond =>
      omega
  | found _ taken found _ _ shape _ taken_clean _ least exact =>
      have all :=
        Trace.moved_of_full taken_clean
          (fun event member => full event (by
            rw [shape]
            simp [member]))
          (min kcndbFileBufsiz (ctx.loc.content.length - idx.toNat))
      rw [exact (by omega), entry.locAt_eq]

end KcndbDb

end Kcn
