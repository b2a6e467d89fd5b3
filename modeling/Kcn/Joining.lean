import Kcn.CString
import Kcn.Keyword

namespace Kcn

open Program Words

/-!
# Joining keywords

`kcn_key_concat` and `kcn_key_split` as the callers see them: the array that is
filled, and the keywords with their count.
-/

namespace CString

/-- The size of the array that `kcn_key_concat` allocates. -/
def concatSize (keyv : List (List UInt8)) : Nat :=
  keyv.foldl (fun size key => size + key.length) keyv.length

/-- The loop of `kcn_key_concat`. -/
def concatLoop (size : Nat) : List (List UInt8) → ArrayOp Unit
  | [] => pure ()
  | key :: keyv => do
      strncat [0x20] size
      strncat key size
      concatLoop size keyv

/--
`kcn_key_concat` on the array that it allocates; the number of keywords is
asserted to be positive.
-/
def keyConcat (key : List UInt8) (keyv : List (List UInt8)) :
    ArrayOp Unit := do
  let size := concatSize (key :: keyv)
  let _ ← strlcpy key size
  concatLoop size keyv

/-- The loop of `kcn_key_split` with its array and its count. -/
def splitCountLoop : Nat → List UInt8 → Option (List (List UInt8)) → Nat →
    Option (List (List UInt8)) × Nat
  | 0, _, keyv, keyc => (keyv, keyc)
  | rounds + 1, s, keyv, keyc =>
      match strtok s with
      | none => (keyv, keyc)
      | some (k, rest) =>
          splitCountLoop rounds rest (some (keyv.getD [] ++ [k])) (keyc + 1)

/-- `kcn_key_split` of a string; NULL is none. -/
def keySplit (keys : List UInt8) : Option (List (List UInt8)) × Nat :=
  splitCountLoop (keys.length + 1) keys none 0

/-- The string in an array. -/
def stringOf (dst : List UInt8) : List UInt8 :=
  dst.takeWhile (· ≠ 0)

/-! ### Joining -/

/-- The keywords with blanks between them. -/
def joined (key : List UInt8) (keyv : List (List UInt8)) : List UInt8 :=
  key ++ keyv.flatMap (0x20 :: ·)

theorem joined_cons (key next : List UInt8) (keyv : List (List UInt8)) :
    joined key (next :: keyv) = joined (key ++ 0x20 :: next) keyv := by
  simp [joined]

/-- The array has room for the joined keywords and a NUL. -/
theorem concatSize_eq (key : List UInt8) (keyv : List (List UInt8)) :
    concatSize (key :: keyv) = (joined key keyv).length + 1 := by
  have sum (size : Nat) (keyv : List (List UInt8)) :
      keyv.foldl (fun size key => size + key.length) size + keyv.length =
        size + (keyv.flatMap (0x20 :: ·)).length := by
    induction keyv generalizing size with
    | nil =>
        rfl
    | cons next later inductionHypothesis =>
        have rest := inductionHypothesis (size + next.length)
        simp only [List.foldl_cons, List.flatMap_cons, List.length_append,
          List.length_cons] at rest ⊢
        omega
  have all := sum (keyv.length + 1 + key.length) keyv
  simp only [concatSize, joined, List.foldl_cons, List.length_cons,
    List.length_append] at all ⊢
  omega

/-- The loop appends the further keywords. -/
theorem concatLoop_eq
    {size : Nat} {dst text : List UInt8} {keyv : List (List UInt8)}
    (holds : Holds dst text)
    (noNul : ∀ key ∈ keyv, (0 : UInt8) ∉ key)
    (length : dst.length = size)
    (fits : (joined text keyv).length < size) :
    ∃ dst', concatLoop size keyv dst = .ok ((), dst') ∧
      dst'.length = size ∧ Holds dst' (joined text keyv) := by
  induction keyv generalizing dst text with
  | nil =>
      refine ⟨dst, rfl, length, ?_⟩
      rw [joined, List.flatMap_nil, List.append_nil]
      exact holds
  | cons key keyv inductionHypothesis =>
      have here := noNul key List.mem_cons_self
      have others : ∀ next ∈ keyv, (0 : UInt8) ∉ next :=
        fun next member => noNul next (List.mem_cons_of_mem _ member)
      have blank : (0 : UInt8) ∉ [(0x20 : UInt8)] := by decide
      rw [joined_cons] at fits ⊢
      have room := fits
      simp only [joined, List.length_append, List.length_cons] at room
      obtain ⟨dst₁, ran₁, length₁, holds₁⟩ :=
        @Holds.append dst text [0x20] size holds blank
          (by rw [List.length_singleton]; omega)
          (by rw [List.length_singleton]; omega)
      obtain ⟨dst₂, ran₂, length₂, holds₂⟩ :=
        @Holds.append dst₁ _ key size holds₁ here (by omega)
          (by simp only [List.length_append, List.length_singleton]; omega)
      have shape : text ++ [0x20] ++ key = text ++ 0x20 :: key := by simp
      rw [shape] at holds₂
      obtain ⟨dst', ran, sized, holds'⟩ :=
        inductionHypothesis holds₂ others (by omega) fits
      refine ⟨dst', ?_, sized, holds'⟩
      rw [concatLoop, bind_of_ok ran₁, bind_of_ok ran₂]
      exact ran

/-- The array is filled with the joined keywords and a NUL. -/
theorem keyConcat_eq
    {key : List UInt8} {keyv : List (List UInt8)} {dst : List UInt8}
    (noNul : ∀ next ∈ key :: keyv, (0 : UInt8) ∉ next)
    (length : dst.length = concatSize (key :: keyv)) :
    keyConcat key keyv dst = .ok ((), joined key keyv ++ [0]) ∧
      (0 : UInt8) ∉ joined key keyv := by
  have here := noNul key List.mem_cons_self
  have others : ∀ next ∈ keyv, (0 : UInt8) ∉ next :=
    fun next member => noNul next (List.mem_cons_of_mem _ member)
  have size := concatSize_eq key keyv
  have least : key.length ≤ (joined key keyv).length := by
    simp [joined]
  obtain ⟨dst₁, ran₁, length₁, holds₁⟩ :=
    @strlcpy_leaves dst key (by omega) here
  have whole : key.take (dst.length - 1) = key :=
    List.take_of_length_le (by omega)
  rw [whole] at ran₁ holds₁
  obtain ⟨dst', ran, sized, holds'⟩ :=
    concatLoop_eq holds₁ others (length₁.trans length) (by omega)
  obtain ⟨tail, shape⟩ := holds'.array_eq
  have none : tail = [] := by
    rw [shape, List.length_append, List.length_cons] at sized
    exact List.eq_nil_of_length_eq_zero (by omega)
  rw [none] at shape
  refine ⟨?_, holds'.noNul⟩
  rw [keyConcat, ← length, bind_of_ok ran₁, length, ran, shape]

/-! ### Splitting -/

/-- The keywords are counted, and none are NULL. -/
theorem splitCountLoop_eq
    (rounds : Nat) (s : List UInt8) (keyv : Option (List (List UInt8)))
    (keyc : Nat) :
    splitCountLoop rounds s keyv keyc =
      (if splitLoop rounds s = [] then keyv
        else some (keyv.getD [] ++ splitLoop rounds s),
        keyc + (splitLoop rounds s).length) := by
  induction rounds generalizing s keyv keyc with
  | zero =>
      rfl
  | succ rounds inductionHypothesis =>
      rw [splitCountLoop, splitLoop]
      cases strtok s with
      | none =>
          rfl
      | some next =>
          obtain ⟨k, rest⟩ := next
          simp only [inductionHypothesis, List.length_cons,
            reduceCtorEq, if_false, Option.getD_some]
          split
          · rename_i last
            rw [last, List.length_nil]
          · rw [List.append_assoc, List.singleton_append,
              Nat.add_assoc, Nat.add_comm 1]

theorem keySplit_eq (keys : List UInt8) :
    keySplit keys =
      (if kcnKeySplit keys = [] then none else some (kcnKeySplit keys),
        (kcnKeySplit keys).length) := by
  rw [keySplit, splitCountLoop_eq, Nat.zero_add]
  rfl

/-- Joined keywords have the words of the keywords. -/
theorem words_joined (key : List UInt8) (keyv : List (List UInt8)) :
    words separates (joined key keyv) =
      (key :: keyv).flatMap (words separates) := by
  induction keyv generalizing key with
  | nil =>
      simp [joined]
  | cons next keyv inductionHypothesis =>
      have blank : separates 0x20 = true := rfl
      have split : joined key (next :: keyv) =
          key ++ 0x20 :: joined next keyv := by
        simp [joined]
      rw [split, words_append_sep key blank, inductionHypothesis]
      rfl

/--
The joined keywords fill their array, and splitting them gives the words of the
keywords in order, with their count; there are none if all keywords are blank.
-/
theorem join_then_split
    {key : List UInt8} {keyv : List (List UInt8)} {dst : List UInt8}
    (noNul : ∀ next ∈ key :: keyv, (0 : UInt8) ∉ next)
    (length : dst.length = concatSize (key :: keyv)) :
    ∃ keys,
      keyConcat key keyv dst = .ok ((), keys ++ [0]) ∧
        stringOf (keys ++ [0]) = keys ∧
        (keys ++ [0]).length = concatSize (key :: keyv) ∧
        (keySplit keys).1.getD [] =
          (key :: keyv).flatMap (words separates) ∧
        (keySplit keys).2 =
          ((key :: keyv).flatMap (words separates)).length ∧
        ((keySplit keys).1 = none ↔
          ∀ next ∈ key :: keyv, ∀ c ∈ next, separates c = true) ∧
        ((keySplit keys).1 = none → (keySplit keys).2 = 0) := by
  obtain ⟨ran, plain⟩ := keyConcat_eq noNul length
  refine ⟨joined key keyv, ran, ?_, ?_, ?_⟩
  · have all : ∀ c ∈ joined key keyv, decide (c ≠ 0) = true := by
      intro c member
      rw [decide_eq_true_iff]
      rintro rfl
      exact plain member
    rw [stringOf, List.takeWhile_append_of_pos all]
    simp
  · rw [concatSize_eq, List.length_append, List.length_singleton]
  · have blank :
        (key :: keyv).flatMap (words separates) = [] ↔
          ∀ next ∈ key :: keyv, ∀ c ∈ next, separates c = true := by
      simp only [List.flatMap_eq_nil_iff, words_eq_nil_iff]
    rw [keySplit_eq, kcnKeySplit_eq, words_joined]
    refine ⟨?_, rfl, ?_, ?_⟩
    · split
      · rename_i none
        rw [none]
        rfl
      · rfl
    · rw [← blank]
      simp
    · intro none
      have empty :
          (key :: keyv).flatMap (words separates) = [] := by
        simpa using none
      rw [empty]
      rfl

/-- A blank keyword, and two words in one keyword. -/
theorem join_then_split_blank :
    ∃ keys,
      keyConcat [0x20] [[0x61, 0x09, 0x62]] (List.replicate 6 0xff) =
          .ok ((), keys ++ [0]) ∧
        (keySplit keys).1.getD [] =
          [[0x20], [0x61, 0x09, 0x62]].flatMap (words separates) := by
  obtain ⟨keys, ran, _, _, split, _⟩ :=
    @join_then_split [0x20] [[0x61, 0x09, 0x62]] (List.replicate 6 0xff)
      (by simp) rfl
  exact ⟨keys, ran, split⟩

end CString

end Kcn
