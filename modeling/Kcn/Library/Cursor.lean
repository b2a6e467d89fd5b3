import Kcn.Library.Bytes

/-!
# Strings with a cursor

A string and a position in it or at its end.  Reading moves the position,
writing replaces what is behind it and extends the string past its end.
-/

/-- A string and a position. -/
@[ext] structure Cursor (α : Type) where
  data : List α
  pos : Nat
  inside : pos ≤ data.length

namespace Cursor

open Bytes

variable {α : Type}

/-- The position between two strings. -/
def between (before after : List α) : Cursor α where
  data := before ++ after
  pos := before.length
  inside := by simp

/-- The empty string. -/
def empty : Cursor α :=
  between [] []

/-- Move to the start. -/
def start (p : Cursor α) : Cursor α where
  data := p.data
  pos := 0
  inside := Nat.zero_le _

/-- Move to the end. -/
def ends (p : Cursor α) : Cursor α where
  data := p.data
  pos := p.data.length
  inside := Nat.le_refl _

/-- Move over elements. -/
def forward (p : Cursor α) (count : Nat)
    (fits : p.pos + count ≤ p.data.length) : Cursor α where
  data := p.data
  pos := p.pos + count
  inside := fits

/-- Move back over elements. -/
def backward (p : Cursor α) (count : Nat) : Cursor α where
  data := p.data
  pos := p.pos - count
  inside := Nat.le_trans (Nat.sub_le _ _) p.inside

/-- Drop a prefix; a position inside it moves to its end. -/
def trim (p : Cursor α) (count : Nat) : Cursor α where
  data := p.data.drop count
  pos := p.pos - count
  inside := by
    rw [List.length_drop]
    exact Nat.sub_le_sub_right p.inside count

/-- Put a string in front, and move to its start. -/
def prepend (p : Cursor α) (gap : List α) : Cursor α where
  data := gap ++ p.data
  pos := 0
  inside := Nat.zero_le _

/-- Replace what is at the position, and move behind it. -/
def put (p : Cursor α) (new : List α) : Cursor α where
  data := overwrite p.data p.pos new
  pos := p.pos + new.length
  inside := by
    rw [length_overwrite _ _ _ p.inside]
    exact Nat.le_max_right _ _

/-- Append a string. -/
def extend (p : Cursor α) (new : List α) : Cursor α where
  data := p.data ++ new
  pos := p.pos
  inside := by
    rw [List.length_append]
    exact Nat.le_add_right_of_le p.inside

/-- The elements at the position. -/
def here (p : Cursor α) (count : Nat) : List α :=
  slice p.data p.pos count

variable (before after : List α)

theorem start_between :
    (between before after).start = between [] (before ++ after) :=
  rfl

theorem forward_between {count : Nat} (bound : count ≤ after.length) :
    ∃ fits, (between before after).forward count fits =
      between (before ++ after.take count) (after.drop count) := by
  refine ⟨?_, Cursor.ext ?_ ?_⟩
  · simp only [between, List.length_append]
    omega
  · simp [forward, between]
  · simp [forward, between, Nat.min_eq_left bound]

theorem here_between (count : Nat) :
    (between before after).here count = after.take count := by
  simp [Cursor.here, between, slice]

theorem put_between (new : List α) :
    (between before after).put new =
      between (before ++ new) (after.drop new.length) := by
  refine Cursor.ext ?_ ?_
  · simp [put, between, overwrite]
  · simp [put, between]

theorem extend_between (new : List α) :
    (between before after).extend new = between before (after ++ new) :=
  Cursor.ext (List.append_assoc _ _ _) rfl

theorem prepend_between (gap : List α) :
    (between before after).prepend gap =
      between [] (gap ++ before ++ after) :=
  Cursor.ext (List.append_assoc _ _ _).symm rfl

end Cursor
