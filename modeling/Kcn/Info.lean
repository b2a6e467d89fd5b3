import Mathlib.Algebra.Group.Int.Defs
import Mathlib.Algebra.Group.Nat.Defs
import Kcn.Kernel

namespace Kcn

open Program

/-!
# The memory of `struct kcn_info`

The block that `kcn_info_new` asks for, and the bytes of it that are written:
a write behind the block stops with `wild`.
-/

/-- A block with a `struct kcn_info` in it. -/
structure InfoBlock where
  size : Nat
  kiMaxnlocs : UInt64
  kiNlocs : Nat
  deriving Repr, DecidableEq

namespace InfoBlock

/-- `KCN_INET_ADDRSTRLEN`, with IPv6 or without. -/
def inetAddrstrlen (ipv6 : Bool) : Nat :=
  if ipv6 then 46 else 16

/-- The offset of `ki_dbname`. -/
def offDbname : Nat := 16

/-- The offset of `ki_country`, behind `KCN_INFO_DBNAMESTRLEN` bytes. -/
def offCountry : Nat := offDbname + 7

/-- The offset of `ki_userip`, behind `KCN_INFO_COUNTRYSTRLEN` bytes. -/
def offUserip : Nat := offCountry + 3

/-- The offset of `ki_time`, which is aligned. -/
def offTime (ipv6 : Bool) : Nat :=
  (offUserip + inetAddrstrlen ipv6 + 7) / 8 * 8

/-- The offset of `ki_nlocs`. -/
def offNlocs (ipv6 : Bool) : Nat :=
  offTime ipv6 + 8

/-- The offset of `ki_locs`. -/
def offLocs (ipv6 : Bool) : Nat :=
  offNlocs ipv6 + 8

/-- `sizeof(struct kcn_loc)` -/
def locSize : Nat := 16

/-- `offsetof(struct kcn_info, ki_locs[maxnlocs])` in `size_t`. -/
def requested (ipv6 : Bool) (maxnlocs : UInt64) : UInt64 :=
  UInt64.ofNat (offLocs ipv6) + UInt64.ofNat locSize * maxnlocs

/-- Write some bytes of the block. -/
def touch (off len : Nat) : Program Stop InfoBlock Unit := do
  let block ← gets id
  if off + len ≤ block.size then
    pure ()
  else
    stop .wild

/--
`kcn_info_new` in a block that is not yet there; `grants` is what `malloc` makes
of a size.
-/
def new (ipv6 : Bool) (grants : UInt64 → Bool) (maxnlocs : UInt64) :
    Program Stop InfoBlock Bool := do
  if maxnlocs = 0 then
    stop .infoAssertion
  else if grants (requested ipv6 maxnlocs) then
    modify fun _ => {
      size := (requested ipv6 maxnlocs).toNat
      kiMaxnlocs := maxnlocs
      kiNlocs := 0
    }
    touch 0 4
    touch 8 8
    touch offDbname 1
    touch offCountry 1
    touch offUserip 1
    touch (offTime ipv6) 8
    touch (offNlocs ipv6) 8
    pure true
  else
    pure false

/-- `kcn_info_loc_add`; `dups` tells whether the string is duplicated. -/
def locAdd (ipv6 dups : Bool) : Program Stop InfoBlock Bool := do
  let block ← gets id
  let kl := offLocs ipv6 + locSize * block.kiNlocs
  if block.kiNlocs < block.kiMaxnlocs.toNat then
    touch kl 8
    if dups then
      touch (kl + 8) 8
      touch (offNlocs ipv6) 8
      modify fun block => { block with kiNlocs := block.kiNlocs + 1 }
      pure true
    else
      pure false
  else
    stop .infoAssertion

/-- The loop of `kcn_info_loc_free`. -/
def freeLoop (ipv6 : Bool) : Nat → Program Stop InfoBlock Unit
  | 0 => pure ()
  | i + 1 => do
      freeLoop ipv6 i
      touch (offLocs ipv6 + locSize * i) 8

/-- `kcn_info_loc_free` -/
def locFree (ipv6 : Bool) : Program Stop InfoBlock Unit := do
  let block ← gets id
  freeLoop ipv6 block.kiNlocs
  touch (offNlocs ipv6) 8
  modify fun block => { block with kiNlocs := 0 }

/-- A call on the list of results. -/
inductive InfoOp where
  | locAdd (dups : Bool)
  | locFree
  deriving Repr, DecidableEq

/-- Perform calls on the list of results. -/
def perform (ipv6 : Bool) : List InfoOp → Program Stop InfoBlock Unit
  | [] => pure ()
  | .locAdd dups :: ops => do
      let _ ← locAdd ipv6 dups
      perform ipv6 ops
  | .locFree :: ops => do
      locFree ipv6
      perform ipv6 ops

/-- The count that `-n` gives, as `doit` takes it. -/
def countOf (n : Int32) : UInt64 :=
  UInt64.ofInt n.toInt

/-- A list for the count of `-n`, and calls on it. -/
def session
    (ipv6 : Bool) (grants : UInt64 → Bool) (n : Int32)
    (ops : List InfoOp) : Program Stop InfoBlock Unit := do
  if ← new ipv6 grants (countOf n) then
    perform ipv6 ops
  else
    pure ()

/-! ### Positive counts -/

/-- The block covers the header and all entries. -/
structure Covers (ipv6 : Bool) (block : InfoBlock) : Prop where
  size_eq :
    block.size = offLocs ipv6 + locSize * block.kiMaxnlocs.toNat
  nlocs_le : block.kiNlocs ≤ block.kiMaxnlocs.toNat

/-- Only the assertion stops the calls. -/
def Asserts (reason : Stop) : Prop :=
  reason = .infoAssertion

theorem wp_touch
    {block : InfoBlock} {off len : Nat} {post : Unit → InfoBlock → Prop}
    {halt : Stop → Prop} (fits : off + len ≤ block.size)
    (kept : post () block) : wp (touch off len) post halt block := by
  simp only [touch, wp_bind, wp_gets, id, fits, if_true, wp_pure]
  exact kept

variable {ipv6 : Bool} {block : InfoBlock}

/-- The entries below the count lie in the block. -/
theorem Covers.entry
    (covers : Covers ipv6 block) {i : Nat}
    (below : i < block.kiMaxnlocs.toNat) :
    offLocs ipv6 + locSize * i + locSize ≤ block.size := by
  have size := covers.size_eq
  have more : locSize * (i + 1) ≤ locSize * block.kiMaxnlocs.toNat :=
    Nat.mul_le_mul_left locSize below
  rw [Nat.mul_add] at more
  omega

theorem Covers.header (covers : Covers ipv6 block) :
    offNlocs ipv6 + 8 ≤ block.size := by
  rw [covers.size_eq]
  exact Nat.le_add_right _ _

theorem wp_locAdd
    (covers : Covers ipv6 block) (dups : Bool) :
    wp (locAdd ipv6 dups) (fun _ block' => Covers ipv6 block') Asserts
      block := by
  simp only [locAdd, wp_bind, wp_gets, id]
  by_cases room : block.kiNlocs < block.kiMaxnlocs.toNat
  · have entry := covers.entry room
    unfold locSize at entry
    rw [if_pos room, wp_bind]
    apply wp_touch (by unfold locSize; omega)
    cases dups with
    | false =>
        exact covers
    | true =>
        simp only [if_true, wp_bind]
        apply wp_touch (by unfold locSize; omega)
        apply wp_touch covers.header
        exact ⟨covers.size_eq, room⟩
  · rw [if_neg room]
    rfl

theorem wp_freeLoop
    (covers : Covers ipv6 block) {n : Nat}
    (atMost : n ≤ block.kiMaxnlocs.toNat) {halt : Stop → Prop} :
    wp (freeLoop ipv6 n) (fun _ block' => block' = block) halt block := by
  induction n with
  | zero =>
      exact rfl
  | succ i inductionHypothesis =>
      have entry := covers.entry atMost
      unfold locSize at entry
      rw [freeLoop, wp_bind]
      apply wp_imp (inductionHypothesis (Nat.le_of_succ_le atMost))
      rintro _ _ rfl
      exact wp_touch (by unfold locSize; omega) rfl

theorem wp_locFree (covers : Covers ipv6 block) :
    wp (locFree ipv6) (fun _ block' => Covers ipv6 block') Asserts
      block := by
  simp only [locFree, wp_bind, wp_gets, id]
  apply wp_imp (wp_freeLoop covers covers.nlocs_le)
  rintro _ _ rfl
  apply wp_touch covers.header
  exact ⟨covers.size_eq, Nat.zero_le _⟩

/-- A block that covers all entries is not left by any calls. -/
theorem wp_perform
    (covers : Covers ipv6 block) (ops : List InfoOp) :
    wp (perform ipv6 ops) (fun _ block' => Covers ipv6 block') Asserts
      block := by
  induction ops generalizing block with
  | nil =>
      exact covers
  | cons op ops inductionHypothesis =>
      cases op with
      | locAdd dups =>
          rw [perform]
          apply wp_seq (wp_locAdd covers dups)
          exact fun _ _ covers => inductionHypothesis covers
      | locFree =>
          rw [perform]
          apply wp_seq (wp_locFree covers)
          exact fun _ _ covers => inductionHypothesis covers

/-! ### Counts of `-n` -/

theorem toNat_countOf (n : Int32) :
    (countOf n).toNat = (n.toInt % 2 ^ 64).toNat := by
  simp only [countOf, UInt64.ofInt, UInt64.toNat_ofNat']
  omega

/-- The size that is asked for, modulo the size of `size_t`. -/
theorem toNat_requested (ipv6 : Bool) (maxnlocs : UInt64) :
    (requested ipv6 maxnlocs).toNat =
      (offLocs ipv6 + locSize * maxnlocs.toNat) % 2 ^ 64 := by
  unfold requested
  rw [UInt64.toNat_add, UInt64.toNat_mul, UInt64.toNat_ofNat',
    UInt64.toNat_ofNat']
  unfold locSize
  omega

/-- The entries start within the first bytes. -/
theorem offLocs_small (ipv6 : Bool) :
    offLocs ipv6 < 89 ∧ locSize < offLocs ipv6 := by
  cases ipv6 <;> decide

/-- The fields of the header end where the entries start. -/
theorem header_ends (ipv6 : Bool) :
    offUserip + 1 ≤ offLocs ipv6 ∧ offTime ipv6 + 8 ≤ offLocs ipv6 ∧
      offNlocs ipv6 + 8 = offLocs ipv6 := by
  cases ipv6 <;> decide

/-- A block for a positive count covers its entries. -/
theorem size_positive (ipv6 : Bool) {n : Int32} (positive : 0 < n) :
    (requested ipv6 (countOf n)).toNat =
      offLocs ipv6 + locSize * (countOf n).toNat := by
  have small := (offLocs_small ipv6).1
  have upper := n.toInt_lt
  have lower : 0 < n.toInt := Int32.lt_iff_toInt_lt.mp positive
  have count := toNat_countOf n
  rw [toNat_requested]
  unfold locSize
  omega

/-- A block for a negative count has no room for all entries. -/
theorem size_negative (ipv6 : Bool) {n : Int32} (negative : n.toInt < 0) :
    (requested ipv6 (countOf n)).toNat <
      offLocs ipv6 + locSize * (countOf n).toNat := by
  have small := (offLocs_small ipv6).1
  have lower := n.le_toInt
  have count := toNat_countOf n
  rw [toNat_requested]
  unfold locSize
  omega

/-- With a positive count the list is made. -/
theorem wp_new
    {grants : UInt64 → Bool} {n : Int32} (positive : 0 < n) :
    wp (new ipv6 grants (countOf n))
      (fun done block' => done = true → Covers ipv6 block') Asserts
      block := by
  have size := size_positive ipv6 positive
  have ends := header_ends ipv6
  have start : locSize < offLocs ipv6 := (offLocs_small ipv6).2
  unfold locSize at size start
  unfold new
  split
  · exact rfl
  · split
    · simp only [wp_bind, wp_modify]
      apply wp_touch (by simp only; omega)
      apply wp_touch (by simp only; omega)
      apply wp_touch (by simp only [offDbname]; omega)
      apply wp_touch
        (by simp only [offUserip, offCountry] at ends ⊢; omega)
      apply wp_touch (by simp only; omega)
      apply wp_touch (by simp only; omega)
      apply wp_touch (by simp only; omega)
      rw [wp_pure]
      intro _
      exact ⟨size, Nat.zero_le _⟩
    · rintro ⟨⟩

/-- A write behind the block. -/
def IsWild (reason : Stop) : Prop :=
  reason = .wild

/-- A write stays in the block or stops. -/
theorem wp_touch_wild
    {off len : Nat} {post : Unit → InfoBlock → Prop}
    (inside : off + len ≤ block.size → post () block) :
    wp (touch off len) post IsWild block := by
  by_cases fits : off + len ≤ block.size
  · exact wp_touch fits (inside fits)
  · simp only [touch, wp_bind, wp_gets, id, fits, if_false, wp_stop]
    rfl

/-- Additions that do not fit leave the block. -/
theorem wp_adds_wild
    {k : Nat}
    (fits : offLocs ipv6 + locSize * block.kiNlocs ≤ block.size)
    (passes :
      block.size < offLocs ipv6 + locSize * (block.kiNlocs + k))
    (atMost : block.kiNlocs + k ≤ block.kiMaxnlocs.toNat) :
    wp (perform ipv6 (List.replicate k (.locAdd true)))
      (fun _ _ => False) IsWild block := by
  induction k generalizing block with
  | zero =>
      rw [Nat.add_zero] at passes
      omega
  | succ k inductionHypothesis =>
      have room : block.kiNlocs < block.kiMaxnlocs.toNat := by omega
      rw [List.replicate_succ, perform, locAdd]
      simp only [wp_bind, wp_gets, id, room, if_true]
      apply wp_touch_wild
      intro _
      apply wp_touch_wild
      intro entry
      apply wp_touch_wild
      intro _
      simp only [wp_modify, wp_pure]
      apply inductionHypothesis
      · simp only [locSize] at entry ⊢
        omega
      · simp only
        rwa [Nat.add_assoc, Nat.add_comm 1 k]
      · simp only
        omega

/-- With a negative count some calls leave the block. -/
theorem session_negative
    {grants : UInt64 → Bool} {n : Int32} (negative : n.toInt < 0)
    (succeeds : grants (requested ipv6 (countOf n)) = true)
    (block : InfoBlock) :
    ∃ ops, wp (session ipv6 grants n ops) (fun _ _ => False) IsWild
      block := by
  have short := size_negative ipv6 negative
  have lower := n.le_toInt
  have count := toNat_countOf n
  have ends := (header_ends ipv6).2.2
  have nonzero : countOf n ≠ 0 := by
    intro zero
    rw [zero] at count
    simp only [UInt64.toNat_zero] at count
    omega
  refine ⟨List.replicate (countOf n).toNat (.locAdd true), ?_⟩
  rw [session, new, if_neg nonzero, if_pos succeeds]
  simp only [wp_bind, wp_modify]
  apply wp_touch_wild
  intro _
  apply wp_touch_wild
  intro _
  apply wp_touch_wild
  intro _
  apply wp_touch_wild
  intro _
  apply wp_touch_wild
  intro _
  apply wp_touch_wild
  intro _
  apply wp_touch_wild
  intro header
  rw [ends] at header
  rw [wp_pure, if_pos rfl]
  apply wp_adds_wild
  · exact header
  · rw [Nat.zero_add]
    exact short
  · exact Nat.le_of_eq (Nat.zero_add _)

/--
Where memory is granted, the calls on the list of results write to its block
only if and only if the count is positive.
-/
theorem entries_covered_iff
    {ipv6 : Bool} {grants : UInt64 → Bool} {n : Int32} (nonzero : n ≠ 0)
    (succeeds : grants (requested ipv6 (countOf n)) = true) :
    (∀ ops block,
      wp (session ipv6 grants n ops) (fun _ _ => True) Asserts block) ↔
        0 < n := by
  constructor
  · intro safe
    by_contra notPositive
    have differs : n.toInt ≠ 0 :=
      fun zero => nonzero (Int32.toInt_inj.mp zero)
    have negative : n.toInt < 0 := by
      rw [Int32.lt_iff_toInt_lt] at notPositive
      simp only [Int32.toInt_zero] at notPositive
      omega
    let block : InfoBlock := { size := 0, kiMaxnlocs := 0, kiNlocs := 0 }
    obtain ⟨ops, leaves⟩ := session_negative negative succeeds block
    obtain ⟨reason, asserts, wild⟩ := wp_clash (safe ops block) leaves
    cases asserts
    cases wild
  · intro positive ops block
    rw [session]
    apply wp_seq (wp_new positive)
    intro done block' covers
    cases done with
    | false =>
        exact trivial
    | true =>
        exact wp_imp (wp_perform (covers rfl) ops) fun _ _ _ => trivial

/-- With `-n 10` the calls write to the block only. -/
theorem entries_covered_iff_ten :
    (∀ ops block,
      wp (session true (fun _ => true) 10 ops) (fun _ _ => True) Asserts
        block) ↔
      (0 : Int32) < 10 :=
  entries_covered_iff (by decide) rfl

/--
With `-n -1` the block is smaller than the header, whose last field is written
behind it.
-/
theorem entries_uncovered :
    (requested true (countOf (-1))).toNat = 72 ∧
      ∃ ops block,
        session true (fun _ => true) (-1) ops block = .error .wild :=
  ⟨by decide, [], { size := 0, kiMaxnlocs := 0, kiNlocs := 0 },
    by decide⟩

end InfoBlock

end Kcn
