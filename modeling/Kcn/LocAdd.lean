import Kcn.Index

namespace Kcn

open Program Bytes KcnBuf KcndbDb

/-!
# Adding a locator

`kcndb_db_loc_add` on a file without collisions: it finds the entry of the
bucket, or it appends an entry and stores its offset in the vacant slot.
-/

namespace TableCtx

/-- The cached size of the locator file is right, and so is its index. -/
structure LocSound (ctx : TableCtx) (buckets : Buckets) : Prop where
  indexed : Indexed ctx.loc.content buckets
  locsize : ctx.base.kdbLocsize = ctx.loc.content.length

/-- The bucket of a locator is vacant or has an entry taken for it. -/
def LocFits (buckets : Buckets) (loc : List UInt8) : Prop :=
  ∀ idx stored,
    buckets (locHash loc) = some (idx, stored) →
      sameLoc stored loc = true

/-- What `kcndb_db_loc_add` did. -/
inductive LocAdded
    (ctx : TableCtx) (buckets : Buckets) (loc : List UInt8) :
    Option UInt64 → TableCtx → Prop where
  | torn (ctx' : TableCtx) :
      ctx.env.trace.Torn →
      LocAdded ctx buckets loc none ctx'
  | unchanged (ctx' : TableCtx) :
      ctx'.loc.content = ctx.loc.content →
      ctx'.base.kdbLocsize = ctx.base.kdbLocsize →
      LocAdded ctx buckets loc none ctx'
  | unpatched (ctx' : TableCtx) :
      ctx'.loc.content = ctx.loc.content ++ entryBytes loc →
      ctx'.base.kdbLocsize =
        ctx.base.kdbLocsize + (entryBytes loc).length →
      LocAdded ctx buckets loc none ctx'
  | found (ctx' : TableCtx) (idx : UInt64) (stored : List UInt8) :
      buckets (locHash loc) = some (idx, stored) →
      sameLoc stored loc = true →
      ctx'.loc.content = ctx.loc.content →
      ctx'.base.kdbLocsize = ctx.base.kdbLocsize →
      LocAdded ctx buckets loc (some idx) ctx'
  | linked (ctx' : TableCtx) (idx : UInt64) :
      buckets (locHash loc) = none →
      idx.toNat = ctx.loc.content.length →
      ctx'.loc.content =
        overwrite (ctx.loc.content ++ entryBytes loc)
          (slotOff (locHash loc)) (bytes64 idx) →
      ctx'.base.kdbLocsize =
        ctx.base.kdbLocsize + (entryBytes loc).length →
      LocAdded ctx buckets loc (some idx) ctx'

end TableCtx

open TableCtx

/-- The place before the cursor, where the offset is far below its wrap. -/
theorem patchOff_heading
    {heading : Nat} (least : 8 ≤ heading) (small : heading < 2 ^ 64) :
    ((0 : UInt64) + UInt64.ofNat heading - 8).toNat = heading - 8 := by
  have size : (UInt64.ofNat heading).toNat = heading := by
    rw [UInt64.toNat_ofNat', Nat.mod_eq_of_lt small]
  rw [UInt64.zero_add, UInt64.toNat_sub_of_le, size]
  · rfl
  · rw [UInt64.le_iff_toNat_le, size]
    exact least

/-- The slot of a hash is far below the wrap of the offsets. -/
theorem patchOff_eq {h : Nat} (bound : h < locHashsiz) :
    ((0 : UInt64) + UInt64.ofNat (locIndexsiz * h + 8) - 8).toNat =
      slotOff h := by
  have small : locIndexsiz * h + 8 < 2 ^ 64 := by
    unfold locIndexsiz locHashsiz at *
    omega
  exact patchOff_heading (Nat.le_add_left _ _) small

namespace KcndbDb

variable {ctx : TableCtx} {buckets : Buckets} {loc : List UInt8}

/-- `kcndb_db_loc_add` -/
theorem wp_locAdd
    (sizeEq : ctx.loc.kb.size = kcndbFileBufsiz)
    (sound : ctx.LocSound buckets)
    (bounded : ctx.loc.content.length ≤ offMax)
    (fits : LocFits buckets loc) :
    wp (locAdd loc) (LocAdded ctx buckets loc) (fun _ => True) ctx := by
  have bound := locHash_lt loc
  have chain := sound.indexed.chain bound
  have sizes : Keeps locBufSize (locFind loc) :=
    keeps_locFind
      (fun _ keeps =>
        keeps_locBufSize (KcndbFile.bufSize_of_fixed keeps))
      loc
  unfold locAdd
  refine wp_seq (sizes.wp (wp_locFind chain sizeEq)) ?_
  rintro found ctx₁ ⟨⟨taken, moved, walked⟩, sameSize⟩
  have baseEq : ctx₁.base = ctx.base := by
    rw [moved.frame]
  cases found with
  | failed =>
      exact .unchanged _ moved.content_eq
        (congrArg KcndbDbBase.kdbLocsize baseEq)
  | found idx =>
      obtain ⟨member, matched⟩ := walked
      cases bucket : buckets (locHash loc) with
      | none =>
          simp [bucket] at member
      | some entry =>
          have idxEq : idx = entry.1 := by
            simpa [bucket] using member
          subst idxEq
          exact .found _ entry.1 entry.2 bucket
            (fits entry.1 entry.2 bucket) moved.content_eq
            (congrArg KcndbDbBase.kdbLocsize baseEq)
  | tail last =>
      obtain ⟨rfl, unmatched, heading⟩ := walked
      cases bucket : buckets (locHash loc) with
      | some entry =>
          have entryAt :=
            (sound.indexed.taken _ bound entry.1 entry.2 bucket).entry
          have missed := unmatched entry.1 (by simp [bucket])
          rw [entryAt.locAt_eq,
            fits entry.1 entry.2 bucket] at missed
          cases missed
      | none =>
          rw [bucket] at heading
          have headingEq :
              ctx₁.loc.kb.headingdata =
                locIndexsiz * locHash loc + 8 :=
            heading
          have idxEq :
              (UInt64.ofNat ctx₁.base.kdbLocsize).toNat =
                ctx.loc.content.length := by
            rw [baseEq, sound.locsize, UInt64.toNat_ofNat']
            refine Nat.mod_eq_of_lt ?_
            have : offMax < 2 ^ 64 := by decide
            omega
          have locsizeEq :
              ctx₁.base.kdbLocsize = ctx.base.kdbLocsize := by
            rw [baseEq]
          refine wp_imp (wp_locLink (sameSize.trans sizeEq)) ?_
          intro result ctx₂ linked
          rw [headingEq] at linked
          cases linked with
          | torn _ torn =>
              refine .torn _ ?_
              rw [moved.trace_eq]
              exact torn.append_left _
          | unwritten _ content locsize =>
              exact .unchanged _ (content.trans moved.content_eq)
                (locsize.trans locsizeEq)
          | unpatched _ content locsize =>
              rw [moved.content_eq] at content
              rw [locsizeEq] at locsize
              exact .unpatched _ content locsize
          | linked _ content locsize =>
              have slots := sound.indexed.slots
              have inside := slotOff_inside bound
              rw [moved.content_eq, patchOff_eq bound,
                writeAt_inside _ _ _
                  (by rw [List.length_append]; omega)] at content
              rw [locsizeEq] at locsize
              exact .linked _ _ bucket idxEq content locsize

end KcndbDb

namespace TableCtx

/-- The locator file did not shrink, and the cached size follows its length. -/
structure LocFollows (ctx ctx' : TableCtx) : Prop where
  grown : ctx.loc.content.length ≤ ctx'.loc.content.length
  locsize :
    ctx'.base.kdbLocsize + ctx.loc.content.length =
      ctx.base.kdbLocsize + ctx'.loc.content.length

end TableCtx

namespace KcndbDb

variable {ctx : TableCtx} {loc : List UInt8}

/--
`kcndb_db_loc_add` on a file with any bytes.  The place where it stores the
offset of a new entry is among the bytes that it has read.
-/
theorem wp_locAdd_within
    (sizeEq : ctx.loc.kb.size = kcndbFileBufsiz) :
    wp (locAdd loc)
      (fun _ ctx' => ctx.env.trace.Torn ∨ ctx.LocFollows ctx')
      (fun _ => True) ctx := by
  have sizes : Keeps locBufSize (locFind loc) :=
    keeps_locFind
      (fun _ keeps =>
        keeps_locBufSize (KcndbFile.bufSize_of_fixed keeps))
      loc
  unfold locAdd
  refine wp_seq (sizes.wp (wp_locFind_within sizeEq)) ?_
  rintro found ctx₁ ⟨⟨taken, moved, ends⟩, sameSize⟩
  have contentEq := moved.content_eq
  have locsizeEq : ctx₁.base.kdbLocsize = ctx.base.kdbLocsize := by
    rw [moved.frame]
  have unchanged : ctx.LocFollows ctx₁ :=
    ⟨by rw [contentEq], by rw [contentEq, locsizeEq]⟩
  cases found with
  | failed | found _ =>
      exact Or.inr unchanged
  | tail last =>
      obtain ⟨rfl, least, within⟩ := ends
      have small : ctx₁.loc.kb.headingdata ≤ kcndbFileBufsiz := by
        have order := ctx₁.loc.kb.cp_le_ep
        have room := ctx₁.loc.kb.ep_le_size
        rw [← sameSize.trans sizeEq]
        unfold headingdata locBufSize
        omega
      have block : kcndbFileBufsiz < 2 ^ 64 := by decide
      refine wp_imp (wp_locLink (sameSize.trans sizeEq)) ?_
      intro result ctx₂ linked
      have lengths := length_entryBytes loc
      cases linked with
      | torn _ torn =>
          refine Or.inl ?_
          rw [moved.trace_eq]
          exact torn.append_left _
      | unwritten _ content locsize =>
          refine Or.inr ⟨?_, ?_⟩
          · rw [content, contentEq]
          · rw [content, locsize, contentEq, locsizeEq]
      | unpatched _ content locsize =>
          refine Or.inr ⟨?_, ?_⟩
          · rw [content, contentEq, List.length_append]
            omega
          · rw [content, locsize, contentEq, locsizeEq,
              List.length_append]
            omega
      | linked _ content locsize =>
          have place := patchOff_heading least (by omega)
          have size := congrArg List.length content
          rw [place, length_writeAt _ _ _
            (by rw [List.length_append, contentEq]; omega),
            List.length_append, contentEq, length_bytes64] at size
          refine Or.inr ⟨?_, ?_⟩
          · omega
          · rw [locsize, locsizeEq]
            omega

end KcndbDb

end Kcn
