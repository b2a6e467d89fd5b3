import Kcn.Link
import Mathlib.Logic.Function.Basic

namespace Kcn

open Program Bytes KcnBuf KcndbDb

/-!
# A locator file without collisions

As long as no two locators with one hash are told apart, a locator file is a
partial map from hashes to one entry each.  `Indexed` relates the bytes of the
file to such a map; looking up an entry, appending one and storing its offset
in a vacant slot are operations on the map.
-/

/-- The entry that each slot leads to. -/
abbrev Buckets : Type :=
  Nat → Option (UInt64 × List UInt8)

/-- The slot of a hash. -/
def slotOff (h : Nat) : Nat :=
  locIndexsiz * h

/-- The hash of a locator in the index. -/
def locHash (loc : List UInt8) : Nat :=
  kcnStrHash loc locHashsiz

theorem locHash_lt (loc : List UInt8) : locHash loc < locHashsiz :=
  kcnStrHash_lt loc (by decide)

/-- A slot that leads to the entry at `idx`, which ends its chain. -/
structure Taken
    (content : List UInt8) (h : Nat) (idx : UInt64)
    (loc : List UInt8) : Prop where
  slot : slotAt content (slotOff h) = idx
  behind : locIndextablesiz ≤ idx.toNat
  entry : Entry content idx.toNat loc
  last : slotAt content (idx.toNat + 2 + loc.length) = 0
  hash : locHash loc = h

/-- The slots of the file lead to the entries of the map. -/
structure Indexed (content : List UInt8) (buckets : Buckets) : Prop where
  slots : locIndextablesiz ≤ content.length
  vacant : ∀ h < locHashsiz,
    buckets h = none → slotAt content (slotOff h) = 0
  taken : ∀ h < locHashsiz, ∀ idx loc,
    buckets h = some (idx, loc) → Taken content h idx loc

theorem slotOff_inside {h : Nat} (bound : h < locHashsiz) :
    slotOff h + 8 ≤ locIndextablesiz := by
  unfold slotOff locIndextablesiz locIndexsiz locHashsiz at *
  omega

theorem slotAt_append_left
    {content new : List UInt8} {off : Nat}
    (inside : off + 8 ≤ content.length) :
    slotAt (content ++ new) off = slotAt content off := by
  rw [slotAt, slotAt, slice_append_left _ _ _ _ inside]

theorem slotAt_overwrite_disjoint
    {content new : List UInt8} {start off : Nat}
    (inside : start ≤ content.length)
    (disjoint : off + 8 ≤ start ∨ start + new.length ≤ off) :
    slotAt (overwrite content start new) off = slotAt content off := by
  rw [slotAt, slotAt,
    slice_overwrite_disjoint _ _ _ _ _ inside disjoint]

theorem slotAt_overwrite_self
    {content : List UInt8} {off : Nat} {value : UInt64}
    (inside : off ≤ content.length) :
    slotAt (overwrite content off (bytes64 value)) off = value := by
  have stored :=
    slice_overwrite_self content off (bytes64 value) inside
  rw [length_bytes64] at stored
  rw [slotAt, stored, word64_bytes64]

namespace Taken

variable {content : List UInt8} {h : Nat} {idx : UInt64}
  {loc : List UInt8}

/-- A taken slot starts a chain of one entry. -/
theorem chain (taken : Taken content h idx loc) :
    Chain content (slotOff h) [idx] := by
  have nonzero : idx ≠ 0 := by
    rintro rfl
    exact absurd taken.behind (by decide)
  refine .leads loc taken.slot nonzero taken.entry (.ends ?_)
  rw [taken.entry.linkOff_eq]
  exact taken.last

/-- Appending keeps a taken slot. -/
theorem append (taken : Taken content h idx loc)
    (bound : slotOff h + 8 ≤ content.length) (new : List UInt8) :
    Taken (content ++ new) h idx loc where
  slot := (slotAt_append_left bound).trans taken.slot
  behind := taken.behind
  entry := taken.entry.append new
  last := (slotAt_append_left taken.entry.inside).trans taken.last
  hash := taken.hash

/-- Storing in another slot keeps a taken slot. -/
theorem overwrite
    (taken : Taken content h idx loc) {h' : Nat}
    (bound : h < locHashsiz) (bound' : h' < locHashsiz)
    (different : h ≠ h') (value : UInt64) :
    Taken (overwrite content (slotOff h') (bytes64 value)) h idx
      loc := by
  have inside := slotOff_inside bound
  have inside' := slotOff_inside bound'
  have behind := taken.behind
  have within := taken.entry.inside
  have apart :
      slotOff h + 8 ≤ slotOff h' ∨ slotOff h' + 8 ≤ slotOff h := by
    unfold slotOff locIndexsiz
    omega
  refine ⟨?_, behind, ?_, ?_, taken.hash⟩
  · rw [slotAt_overwrite_disjoint (by omega) apart]
    exact taken.slot
  · refine taken.entry.overwrite ?_ ?_
    · rw [length_bytes64]
      omega
    · rw [length_bytes64]
      omega
  · rw [slotAt_overwrite_disjoint (by omega)
      (Or.inr (by rw [length_bytes64]; omega))]
    exact taken.last

end Taken

namespace Indexed

variable {content : List UInt8} {buckets : Buckets}

/-- The chain of a bucket. -/
theorem chain (indexed : Indexed content buckets)
    {h : Nat} (bound : h < locHashsiz) :
    Chain content (slotOff h)
      ((buckets h).map Prod.fst).toList := by
  cases bucket : buckets h with
  | none =>
      exact .ends (indexed.vacant h bound bucket)
  | some entry =>
      exact (indexed.taken h bound entry.1 entry.2 bucket).chain

/-- A new file leads nowhere. -/
theorem initial :
    Indexed (List.replicate locIndextablesiz 0) fun _ => none := by
  refine ⟨by rw [List.length_replicate], ?_, by simp⟩
  intro h bound _
  have inside := slotOff_inside bound
  have zeros :
      slice (List.replicate locIndextablesiz (0 : UInt8))
          (slotOff h) 8 =
        List.replicate 8 0 := by
    rw [slice, List.drop_replicate, List.take_replicate,
      Nat.min_eq_left (by omega)]
  rw [slotAt, zeros]
  rfl

/-- Appending leaves the map alone. -/
theorem append (indexed : Indexed content buckets)
    (new : List UInt8) : Indexed (content ++ new) buckets := by
  have slots := indexed.slots
  refine ⟨?_, ?_, ?_⟩
  · rw [List.length_append]
    omega
  · intro h bound vacant
    have inside := slotOff_inside bound
    rw [slotAt_append_left (by omega)]
    exact indexed.vacant h bound vacant
  · intro h bound idx loc bucket
    have inside := slotOff_inside bound
    exact (indexed.taken h bound idx loc bucket).append (by omega) new

/-- The entry that the code appends, at the old end of the file. -/
theorem entry_appended
    {loc : List UInt8} (short : loc.length ≤ kcnMsgMaxlocsiz) :
    Entry (content ++ entryBytes loc) content.length loc := by
  refine ⟨short, ?_, ?_⟩
  · rw [entryBytes, ← List.append_assoc,
      slice_append_left _ _ _ _ (by simp), ← length_encodeLoc,
      slice_append_self]
  · rw [List.length_append, length_entryBytes]
    omega

/-- Appending an entry and storing its offset in a vacant slot. -/
theorem insert
    (indexed : Indexed content buckets)
    {loc : List UInt8} {idx : UInt64}
    (short : loc.length ≤ kcnMsgMaxlocsiz)
    (idxEq : idx.toNat = content.length) :
    Indexed
      (overwrite (content ++ entryBytes loc)
        (slotOff (locHash loc)) (bytes64 idx))
      (Function.update buckets (locHash loc) (some (idx, loc))) := by
  have slots := indexed.slots
  have bound := locHash_lt loc
  have inside := slotOff_inside bound
  have appended := indexed.append (entryBytes loc)
  have length :
      (content ++ entryBytes loc).length =
        content.length + (2 + loc.length + 8) := by
    rw [List.length_append, length_entryBytes]
  refine ⟨?_, ?_, ?_⟩
  · rw [length_overwrite _ _ _ (by omega), length]
    omega
  · intro h bound' vacant
    by_cases same : h = locHash loc
    · rw [same, Function.update_self] at vacant
      cases vacant
    · rw [Function.update_of_ne same] at vacant
      have apart :
          slotOff h + 8 ≤ slotOff (locHash loc) ∨
            slotOff (locHash loc) + 8 ≤ slotOff h := by
        unfold slotOff locIndexsiz
        omega
      rw [slotAt_overwrite_disjoint (by omega) apart]
      exact appended.vacant h bound' vacant
  · intro h bound' idx' loc' bucket
    by_cases same : h = locHash loc
    · rw [same, Function.update_self] at bucket
      obtain ⟨rfl, rfl⟩ := Prod.mk.inj (Option.some.inj bucket)
      refine ⟨?_, by omega, ?_, ?_, same.symm⟩
      · rw [same]
        exact slotAt_overwrite_self (by omega)
      · rw [idxEq]
        refine (entry_appended short).overwrite ?_ ?_
        · rw [length_bytes64, length]
          omega
        · rw [length_bytes64]
          omega
      · rw [slotAt_overwrite_disjoint (by omega)
          (Or.inr (by rw [length_bytes64]; omega)), idxEq, slotAt]
        have link :
            content.length + 2 + loc.length =
              (content ++ encodeLoc loc).length := by
          rw [List.length_append, length_encodeLoc]
          omega
        rw [link, entryBytes, ← List.append_assoc]
        have stored :=
          slice_append_self (content ++ encodeLoc loc) (bytes64 0)
        rw [length_bytes64] at stored
        rw [stored, word64_bytes64]
    · rw [Function.update_of_ne same] at bucket
      exact (appended.taken h bound' idx' loc' bucket).overwrite
        bound' bound same idx

end Indexed

end Kcn
