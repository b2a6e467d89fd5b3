import Mathlib.Data.List.Infix
import Kcn.Library.Words
import Kcn.Str

namespace Kcn

open Words

/-!
# Keywords

`kcn_key_split`, and what it and the keyword tables use of the C library in the
C locale.
-/

/-- The bytes of a string of the source. -/
def ascii (s : String) : List UInt8 :=
  s.toList.map fun c => UInt8.ofNat c.toNat

/-- `tolower` -/
def tolower (c : UInt8) : UInt8 :=
  if 0x41 ≤ c ∧ c ≤ 0x5a then c + 0x20 else c

/-- The string in lower case. -/
def lower (s : List UInt8) : List UInt8 :=
  s.map tolower

/-- `strcasecmp(left, right) == 0` -/
def strcasecmpEq (left right : List UInt8) : Bool :=
  lower left == lower right

/-- `strncasecmp(left, right, count) == 0` -/
def strncasecmpEq : Nat → List UInt8 → List UInt8 → Bool
  | 0, _, _ => true
  | _ + 1, [], [] => true
  | count + 1, left :: lefts, right :: rights =>
      tolower left == tolower right && strncasecmpEq count lefts rights
  | _ + 1, _, _ => false

/-- `strcasestr(s, word) != NULL` -/
def strcasestr (s word : List UInt8) : Bool :=
  decide (lower word <:+: lower s)

/-- The separators of `kcn_key_split`. -/
def separates (c : UInt8) : Bool :=
  c = 0x20 || c = 0x09

/-- `strtok_r`: the next token and what follows it. -/
def strtok (s : List UInt8) : Option (List UInt8 × List UInt8) :=
  match s.dropWhile separates with
  | [] => none
  | c :: rest =>
      some ((c :: rest).takeWhile (! separates ·),
        ((c :: rest).dropWhile (! separates ·)).tail)

/-- The loop of `kcn_key_split`; each round takes a token. -/
def splitLoop : Nat → List UInt8 → List (List UInt8)
  | 0, _ => []
  | rounds + 1, s =>
      match strtok s with
      | none => []
      | some (key, rest) => key :: splitLoop rounds rest

/-- `kcn_key_split`, where the allocations succeed; NULL is no keywords. -/
def kcnKeySplit (keys : List UInt8) : List (List UInt8) :=
  splitLoop (keys.length + 1) keys

/-! ### Comparison -/

/-- A count that covers the terminating NUL compares whole strings. -/
theorem strncasecmpEq_iff (left right : List UInt8) :
    strncasecmpEq (left.length + 1) left right = true ↔
      lower left = lower right := by
  induction left generalizing right with
  | nil =>
      cases right with
      | nil =>
          exact ⟨fun _ => rfl, fun _ => rfl⟩
      | cons c rights =>
          exact ⟨nofun, nofun⟩
  | cons c lefts inductionHypothesis =>
      cases right with
      | nil =>
          exact ⟨nofun, nofun⟩
      | cons d rights =>
          rw [List.length_cons, strncasecmpEq, Bool.and_eq_true,
            inductionHypothesis, beq_iff_eq, lower, lower, lower, lower,
            List.map_cons, List.map_cons, List.cons.injEq]

theorem strcasecmpEq_iff (left right : List UInt8) :
    strcasecmpEq left right = true ↔ lower left = lower right :=
  beq_iff_eq

theorem strcasestr_iff (s word : List UInt8) :
    strcasestr s word = true ↔ lower word <:+: lower s :=
  decide_eq_true_iff

/-! ### Splitting -/

/-- The next token is the next word. -/
theorem strtok_words (s : List UInt8) :
    strtok s = none ∧ words separates s = [] ∨
      ∃ key rest, strtok s = some (key, rest) ∧
        words separates s = key :: words separates rest ∧
        rest.length < s.length := by
  have skipped :
      words separates (s.dropWhile separates) = words separates s :=
    words_dropWhile s
  have shorter := List.length_dropWhile_le separates s
  unfold strtok
  cases shape : s.dropWhile separates with
  | nil =>
      rw [shape] at skipped
      exact Or.inl ⟨rfl, skipped.symm⟩
  | cons c later =>
      apply Or.inr
      refine ⟨_, _, rfl, ?_⟩
      have plain : separates c = false := by
        have head := List.head?_dropWhile_not separates s
        rw [shape] at head
        simpa using head
      rw [shape] at skipped shorter
      have shorter' := List.length_dropWhile_le (! separates ·) later
      rw [← skipped, words_takeWhile plain]
      constructor
      · cases rest : (c :: later).dropWhile (! separates ·) with
        | nil =>
            rfl
        | cons d rest' =>
            have isSep : separates d = true := by
              have head :=
                List.head?_dropWhile_not (! separates ·) (c :: later)
              rw [rest] at head
              simpa using head
            rw [words_cons_sep isSep]
            rfl
      · rw [List.length_tail,
          List.dropWhile_cons_of_pos (by simp [plain])]
        rw [List.length_cons] at shorter
        omega

/-- `kcn_key_split` gives the words of its string. -/
theorem kcnKeySplit_eq (keys : List UInt8) :
    kcnKeySplit keys = words separates keys := by
  have loop (rounds : Nat) (s : List UInt8) (bound : s.length < rounds) :
      splitLoop rounds s = words separates s := by
    induction rounds generalizing s with
    | zero =>
        exact absurd bound (Nat.not_lt_zero _)
    | succ rounds inductionHypothesis =>
        unfold splitLoop
        rcases strtok_words s with
          ⟨none, wordsEq⟩ | ⟨key, rest, next, wordsEq, shorter⟩
        · rw [none, wordsEq]
        · rw [next, wordsEq]
          simp only
          rw [inductionHypothesis rest (by omega)]
  exact loop _ keys (Nat.lt_succ_self _)

end Kcn
