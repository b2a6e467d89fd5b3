import Mathlib.Data.List.Basic
import Mathlib.Tactic.Ring

/-!
# Byte strings

Slices of a byte string, replacing a part of one in place, and big-endian
numbers.  The element type of the first two is arbitrary.
-/

namespace Bytes

variable {α : Type}

/-- The `count` elements from position `start`, fewer at the end. -/
def slice (items : List α) (start count : Nat) : List α :=
  (items.drop start).take count

/-- Store `new` over the elements from position `start`. -/
def overwrite (items : List α) (start : Nat) (new : List α) : List α :=
  items.take start ++ new ++ items.drop (start + new.length)

@[simp] theorem length_slice (items : List α) (start count : Nat) :
    (slice items start count).length =
      min count (items.length - start) := by
  simp [slice]

theorem getElem?_slice (items : List α) (start count index : Nat) :
    (slice items start count)[index]? =
      if index < count then items[start + index]? else none := by
  simp [slice, List.getElem?_take, List.getElem?_drop]

@[simp] theorem slice_zero (items : List α) (start : Nat) :
    slice items start 0 = [] := by
  simp [slice]

/-- A slice covers a whole string when it starts at its head and is as long. -/
theorem slice_self (items : List α) :
    slice items 0 items.length = items := by
  simp [slice]

/-- A slice splits at any position inside it. -/
theorem slice_add (items : List α) (start first second : Nat) :
    slice items start (first + second) =
      slice items start first ++
        slice items (start + first) second := by
  simp [slice, List.take_add, List.drop_drop]

/-- A slice that lies in the left part of a concatenation. -/
theorem slice_append_left
    (left right : List α) (start count : Nat)
    (inside : start + count ≤ left.length) :
    slice (left ++ right) start count = slice left start count := by
  apply List.ext_getElem?
  intro index
  simp only [getElem?_slice]
  by_cases bound : index < count
  · simp [bound, List.getElem?_append_left
      (show start + index < left.length by omega)]
  · simp [bound]

/-- A slice that lies in the right part of a concatenation. -/
theorem slice_append_right
    (left right : List α) (start count : Nat)
    (inside : left.length ≤ start) :
    slice (left ++ right) start count =
      slice right (start - left.length) count := by
  apply List.ext_getElem?
  intro index
  simp only [getElem?_slice]
  by_cases bound : index < count
  · simp [bound, List.getElem?_append_right
      (show left.length ≤ start + index by omega),
      show start + index - left.length =
        start - left.length + index by omega]
  · simp [bound]

@[simp] theorem slice_append_self (left right : List α) :
    slice (left ++ right) left.length right.length = right := by
  rw [slice_append_right _ _ _ _ (Nat.le_refl _), Nat.sub_self,
    slice_self]

theorem length_overwrite
    (items : List α) (start : Nat) (new : List α)
    (inside : start ≤ items.length) :
    (overwrite items start new).length =
      max items.length (start + new.length) := by
  simp [overwrite]
  omega

theorem getElem?_overwrite
    (items : List α) (start : Nat) (new : List α) (index : Nat)
    (inside : start ≤ items.length) :
    (overwrite items start new)[index]? =
      if start ≤ index ∧ index < start + new.length then
        new[index - start]?
      else
        items[index]? := by
  unfold overwrite
  by_cases before : index < start
  · rw [List.append_assoc, List.getElem?_append_left (by simp; omega)]
    simp [before, show ¬ start ≤ index by omega]
  · by_cases within : index < start + new.length
    · rw [List.append_assoc,
        List.getElem?_append_right (by simp; omega),
        List.getElem?_append_left (by simp; omega)]
      simp [show start ≤ index by omega, within,
        Nat.min_eq_left inside]
    · rw [List.getElem?_append_right (by simp; omega)]
      simp only [List.length_append, List.length_take,
        Nat.min_eq_left inside, List.getElem?_drop]
      rw [if_neg (by omega)]
      congr 1
      omega

/-- Overwriting at the very end appends. -/
theorem overwrite_length (items new : List α) :
    overwrite items items.length new = items ++ new := by
  simp [overwrite]

/-- Overwriting with nothing changes nothing. -/
@[simp] theorem overwrite_nil (items : List α) (start : Nat) :
    overwrite items start [] = items := by
  simp [overwrite]

/-- Two adjacent overwrites are one. -/
theorem overwrite_append
    (items : List α) (start : Nat) (first second : List α)
    (inside : start ≤ items.length) :
    overwrite (overwrite items start first)
        (start + first.length) second =
      overwrite items start (first ++ second) := by
  apply List.ext_getElem?
  intro index
  rw [getElem?_overwrite _ _ _ _
      (by rw [length_overwrite _ _ _ inside]; omega),
    getElem?_overwrite _ _ _ _ inside,
    getElem?_overwrite _ _ _ _ inside]
  simp only [List.length_append]
  by_cases before : index < start
  · simp [show ¬ start + first.length ≤ index by omega,
      show ¬ start ≤ index by omega]
  · by_cases inFirst : index < start + first.length
    · rw [if_neg (by omega), if_pos (by omega), if_pos (by omega),
        List.getElem?_append_left (by omega)]
    · by_cases inSecond :
          index < start + first.length + second.length
      · rw [if_pos (by omega), if_pos (by omega),
          List.getElem?_append_right (by omega)]
        congr 1
        omega
      · rw [if_neg (by omega), if_neg (by omega), if_neg (by omega)]

/-- Reading back exactly what was stored. -/
@[simp] theorem slice_overwrite_self
    (items : List α) (start : Nat) (new : List α)
    (inside : start ≤ items.length) :
    slice (overwrite items start new) start new.length = new := by
  apply List.ext_getElem?
  intro index
  rw [getElem?_slice, getElem?_overwrite _ _ _ _ inside]
  by_cases bound : index < new.length
  · simp [bound]
  · simp [bound]

/-- A store leaves every slice outside it alone. -/
theorem slice_overwrite_disjoint
    (items : List α) (start : Nat) (new : List α) (other count : Nat)
    (inside : start ≤ items.length)
    (disjoint :
      other + count ≤ start ∨ start + new.length ≤ other) :
    slice (overwrite items start new) other count =
      slice items other count := by
  apply List.ext_getElem?
  intro index
  rw [getElem?_slice, getElem?_slice]
  by_cases bound : index < count
  · rw [if_pos bound, if_pos bound,
      getElem?_overwrite _ _ _ _ inside, if_neg (by omega)]
  · rw [if_neg bound, if_neg bound]

/-- The value of a big-endian byte string. -/
def bigEndian (bytes : List UInt8) : Nat :=
  bytes.foldl (fun value byte => 256 * value + byte.toNat) 0

/-- The big-endian string of `width` bytes for a number. -/
def toBigEndian : Nat → Nat → List UInt8
  | 0, _ => []
  | width + 1, value =>
      UInt8.ofNat (value / 256 ^ width) :: toBigEndian width value

end Bytes
