import Kcn.Library.Bytes
import Kcn.Kernel

namespace Kcn

open Program Bytes

/-!
# Strings in arrays

`strncpy` and `strncat` of the C library, and the replacements of `strlcpy` and
`strlcat`.  The state is the destination array: a write that leaves it stops
with `wild`.  A source string is the list of its bytes before the NUL.
-/

namespace CString

/-- Programs on a destination array. -/
abbrev ArrayOp (α : Type) : Type :=
  Program Stop (List UInt8) α

/-- Write consecutive bytes. -/
def write (i : Nat) (s : List UInt8) : ArrayOp Unit := do
  let dst ← gets id
  if i + s.length ≤ dst.length then
    modify fun dst => overwrite dst i s
  else
    stop .wild

/-- `strlen`, which reads on until it finds a NUL. -/
def strlen : ArrayOp Nat := do
  let dst ← gets id
  if dst.contains 0 then
    pure (dst.takeWhile (· ≠ 0)).length
  else
    stop .wild

/-- `strncpy`: `n` bytes in all are written. -/
def strncpy (src : List UInt8) (n : Nat) : ArrayOp Unit :=
  write 0 (src.take n ++ List.replicate (n - src.length) 0)

/-- `strncat`: at most `n` bytes are appended, and a NUL. -/
def strncat (src : List UInt8) (n : Nat) : ArrayOp Unit := do
  let used ← strlen
  write used (src.take n ++ [0])

/-- `strlcpy`; the size is not zero. -/
def strlcpy (src : List UInt8) (size : Nat) : ArrayOp Nat := do
  strncpy src size
  write (size - 1) [0]
  strlen

/-- `strlcat`; the size is not zero. -/
def strlcat (src : List UInt8) (size : Nat) : ArrayOp Nat := do
  strncat src size
  write (size - 1) [0]
  strlen

/-- The array holds the string, a NUL and further bytes. -/
structure Holds (dst text : List UInt8) : Prop where
  array_eq : ∃ tail, dst = text ++ 0 :: tail
  noNul : (0 : UInt8) ∉ text

variable {dst text src : List UInt8} {size : Nat}

/-- The string is shorter than the array. -/
theorem Holds.length_lt (holds : Holds dst text) :
    text.length < dst.length := by
  obtain ⟨tail, rfl⟩ := holds.array_eq
  simp

theorem Holds.strlen_eq (holds : Holds dst text) :
    strlen dst = .ok (text.length, dst) := by
  obtain ⟨tail, rfl⟩ := holds.array_eq
  have all : ∀ c ∈ text, decide (c ≠ 0) = true := by
    intro c member
    rw [decide_eq_true_iff]
    rintro rfl
    exact holds.noNul member
  have found : (text ++ 0 :: tail).contains 0 = true := by
    simp
  have length :
      ((text ++ 0 :: tail).takeWhile (· ≠ 0)).length = text.length := by
    rw [List.takeWhile_append_of_pos all]
    simp
  rw [strlen, bind_of_ok (show gets id (text ++ 0 :: tail) = _ from rfl)]
  simp only [id, found, if_true]
  rw [length]
  rfl

theorem write_eq
    {i : Nat} {s : List UInt8} (fits : i + s.length ≤ dst.length) :
    write i s dst = .ok ((), overwrite dst i s) := by
  rw [write, bind_of_ok (show gets id dst = _ from rfl)]
  simp only [id, fits, if_true]
  rfl

theorem write_wild
    {i : Nat} {s : List UInt8} (passes : dst.length < i + s.length) :
    write i s dst = .error .wild := by
  rw [write, bind_of_ok (show gets id dst = _ from rfl)]
  simp only [id, Nat.not_le_of_lt passes, if_false]
  rfl

/-- Part of the array is replaced. -/
theorem overwrite_middle
    {before old new after : List UInt8} (same : old.length = new.length) :
    overwrite (before ++ (old ++ after)) before.length new =
      before ++ (new ++ after) := by
  simp [overwrite, ← same]

/-- The last byte of the array is replaced. -/
theorem overwrite_last (front : List UInt8) (last c : UInt8) :
    overwrite (front ++ [last]) ((front ++ [last]).length - 1) [c] =
      front ++ [c] := by
  simp [overwrite]

/-- What is appended fits. -/
theorem strncat_eq
    {tail : List UInt8} {n : Nat} (noNul : (0 : UInt8) ∉ text)
    (fits : (src.take n).length ≤ tail.length) :
    strncat src n (text ++ 0 :: tail) =
      .ok ((), text ++
        (src.take n ++ 0 :: tail.drop (src.take n).length)) := by
  have holds : Holds (text ++ 0 :: tail) text := ⟨⟨tail, rfl⟩, noNul⟩
  have room : text.length + (src.take n ++ [0]).length ≤
      (text ++ 0 :: tail).length := by
    simp only [List.length_append, List.length_cons, List.length_nil]
    omega
  let old := (0 :: tail).take ((src.take n).length + 1)
  have same : old.length = (src.take n ++ [0]).length := by
    simp only [old, List.length_take, List.length_cons,
      List.length_append, List.length_nil] at fits ⊢
    omega
  have split : 0 :: tail = old ++ tail.drop (src.take n).length :=
    (List.take_append_drop ((src.take n).length + 1) (0 :: tail)).symm
  rw [strncat, bind_of_ok holds.strlen_eq, write_eq room, split,
    overwrite_middle same, List.append_assoc]
  rfl

/-- A string that fits is appended as a whole. -/
theorem Holds.append
    {n : Nat} (holds : Holds dst text) (noNul : (0 : UInt8) ∉ src)
    (whole : src.length ≤ n)
    (fits : text.length + src.length < dst.length) :
    ∃ dst', strncat src n dst = .ok ((), dst') ∧
      dst'.length = dst.length ∧ Holds dst' (text ++ src) := by
  obtain ⟨tail, rfl⟩ := holds.array_eq
  have all : src.take n = src := List.take_of_length_le whole
  have size : (text ++ 0 :: tail).length =
      text.length + tail.length + 1 := by
    rw [List.length_append, List.length_cons]
    omega
  have room : (src.take n).length ≤ tail.length := by
    rw [all]
    omega
  refine ⟨_, strncat_eq holds.noNul room, ?_, ?_, ?_⟩
  · rw [all] at room ⊢
    simp only [List.length_append, List.length_cons, List.length_drop]
    omega
  · rw [all, ← List.append_assoc]
    exact ⟨_, rfl⟩
  · rw [List.mem_append]
    rintro (inside | inside)
    · exact holds.noNul inside
    · exact noNul inside

/-- What is appended leaves the array. -/
theorem strncat_wild
    {n : Nat} (holds : Holds dst text)
    (passes : dst.length ≤ text.length + (src.take n).length) :
    strncat src n dst = .error .wild := by
  rw [strncat, bind_of_ok holds.strlen_eq]
  apply write_wild
  rw [List.length_append, List.length_singleton]
  omega

/-- A NUL in the last byte of the array keeps a string. -/
theorem Holds.write_last (holds : Holds dst text) :
    ∃ dst', write (dst.length - 1) [0] dst = .ok ((), dst') ∧
      dst'.length = dst.length ∧ Holds dst' text := by
  have shorter := holds.length_lt
  have room : dst.length - 1 + [(0 : UInt8)].length ≤ dst.length := by
    rw [List.length_singleton]
    omega
  refine ⟨_, write_eq room, ?_, ?_, holds.noNul⟩
  · rw [length_overwrite _ _ _ (by omega), List.length_singleton]
    omega
  · obtain ⟨tail, rfl⟩ := holds.array_eq
    rcases List.eq_nil_or_concat tail with rfl | ⟨front, last, rfl⟩
    · exact ⟨[], overwrite_last text 0 0⟩
    · refine ⟨front ++ [0], ?_⟩
      have before : text ++ 0 :: (front ++ [last]) =
          (text ++ 0 :: front) ++ [last] := by
        simp
      rw [List.concat_eq_append, before, overwrite_last]
      simp

/-! ### The replacements -/

/-- The bytes that `strncpy` writes, but for the last one. -/
theorem filled_eq (positive : 0 < size) (src : List UInt8) :
    ∃ last, src.take size ++ List.replicate (size - src.length) 0 =
      (src.take (size - 1) ++
        List.replicate (size - 1 - src.length) 0) ++ [last] := by
  by_cases fits : src.length < size
  · have count : size - src.length = size - 1 - src.length + 1 := by omega
    refine ⟨0, ?_⟩
    rw [List.take_of_length_le (by omega),
      List.take_of_length_le (by omega), count, List.replicate_succ',
      List.append_assoc]
  · have index : size - 1 < src.length := by omega
    have next : size - 1 + 1 = size := by omega
    have none : size - src.length = 0 := by omega
    have none' : size - 1 - src.length = 0 := by omega
    refine ⟨src[size - 1], ?_⟩
    have grown := List.take_append_getElem index
    rw [next] at grown
    rw [none, none', List.replicate_zero, List.append_nil,
      List.append_nil, grown]

/-- What a copy or a concatenation leaves in its array. -/
def Leaves (op : ArrayOp Nat) (dst text : List UInt8) : Prop :=
  ∃ dst', op dst = .ok (text.length, dst') ∧
    dst'.length = dst.length ∧ Holds dst' text

/-- The replacement of `strlcpy` copies what fits. -/
theorem strlcpy_leaves
    (positive : 0 < dst.length) (noNul : (0 : UInt8) ∉ src) :
    Leaves (strlcpy src dst.length) dst (src.take (dst.length - 1)) := by
  obtain ⟨last, filled⟩ := filled_eq positive src
  let pad := List.replicate (dst.length - 1 - src.length) (0 : UInt8)
  let front := src.take (dst.length - 1) ++ pad
  have length : (front ++ [last]).length = dst.length := by
    rw [← filled, List.length_append, List.length_take,
      List.length_replicate]
    omega
  have copied : strncpy src dst.length dst = .ok ((), front ++ [last]) := by
    have room : 0 + (front ++ [last]).length ≤ dst.length := by omega
    rw [strncpy, filled, write_eq room, overwrite, Nat.zero_add, length,
      List.drop_length, List.append_nil]
    rfl
  have ended : write (dst.length - 1) [0] (front ++ [last]) =
      .ok ((), front ++ [0]) := by
    have room : dst.length - 1 + [(0 : UInt8)].length ≤
        (front ++ [last]).length := by
      rw [length, List.length_singleton]
      omega
    rw [write_eq room, ← length, overwrite_last]
  have holds : Holds (front ++ [0]) (src.take (dst.length - 1)) := by
    refine ⟨⟨pad, ?_⟩, fun inside => noNul (List.mem_of_mem_take inside)⟩
    have turned : pad ++ [0] = 0 :: pad :=
      (List.replicate_succ' ..).symm.trans List.replicate_succ
    rw [List.append_assoc, turned]
  refine ⟨front ++ [0], ?_, ?_, holds⟩
  · rw [strlcpy, bind_of_ok copied, bind_of_ok ended]
    exact holds.strlen_eq
  · rw [List.length_append, List.length_singleton] at length ⊢
    exact length

/-- The replacement of `strlcat` appends what leaves room for a NUL. -/
theorem strlcat_leaves
    (holds : Holds dst text) (noNul : (0 : UInt8) ∉ src)
    (fits : text.length + src.length < dst.length) :
    Leaves (strlcat src dst.length) dst
      ((text ++ src).take (dst.length - 1)) := by
  have whole : (text ++ src).take (dst.length - 1) = text ++ src := by
    apply List.take_of_length_le
    rw [List.length_append]
    omega
  obtain ⟨middle, appended, length, joined⟩ :=
    @Holds.append _ _ _ dst.length holds noNul (by omega) fits
  obtain ⟨dst', ended, sameLength, after⟩ := joined.write_last
  rw [length] at ended sameLength
  rw [whole]
  refine ⟨dst', ?_, sameLength, after⟩
  rw [strlcat, bind_of_ok appended, bind_of_ok ended]
  exact after.strlen_eq

/-- It leaves the array where nothing would be left for a NUL. -/
theorem strlcat_wild
    (holds : Holds dst text)
    (passes : dst.length ≤ text.length + src.length) :
    strlcat src dst.length dst = .error .wild := by
  have first : strncat src dst.length dst = .error .wild := by
    apply strncat_wild holds
    rw [List.length_take]
    omega
  simp only [strlcat, bind, first]

/--
Both replacements stay in their arrays and leave the longest prefix that fits
if and only if what is concatenated fits as a whole.  What `strlcpy` copies to
can hold anything.
-/
theorem replacements_bounded_iff
    {fresh : List UInt8} (positive : 0 < fresh.length)
    (holds : Holds dst text) (noNul : (0 : UInt8) ∉ src) :
    (Leaves (strlcpy src fresh.length) fresh
          (src.take (fresh.length - 1)) ∧
      Leaves (strlcat src dst.length) dst
        ((text ++ src).take (dst.length - 1))) ↔
      text.length + src.length < dst.length := by
  constructor
  · rintro ⟨_, dst', ran, _⟩
    by_contra passes
    rw [strlcat_wild holds (Nat.le_of_not_lt passes)] at ran
    cases ran
  · intro fits
    exact ⟨strlcpy_leaves positive noNul,
      strlcat_leaves holds noNul fits⟩

/--
A string of one byte over an array of two bytes without a NUL, and behind one
of two bytes in an array of four.
-/
theorem replacements_bounded_iff_four :
    (Leaves (strlcpy [0x63] 2) [0x61, 0x62] [0x63] ∧
      Leaves (strlcat [0x63] 4) [0x61, 0x62, 0, 0] [0x61, 0x62, 0x63]) ↔
      2 + 1 < 4 :=
  @replacements_bounded_iff [0x61, 0x62, 0, 0] [0x61, 0x62] [0x63]
    [0x61, 0x62] (by decide) ⟨⟨[0], rfl⟩, by decide⟩ (by decide)

/-- Two bytes behind two bytes leave an array of four. -/
theorem strlcat_overflows :
    Holds [0x61, 0x62, 0, 0] [0x61, 0x62] ∧
      strlcat [0x63, 0x64] 4 [0x61, 0x62, 0, 0] = .error .wild :=
  ⟨⟨⟨[0], rfl⟩, by decide⟩, by decide⟩

end CString

end Kcn
