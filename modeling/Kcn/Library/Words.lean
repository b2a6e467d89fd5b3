import Mathlib.Data.List.Infix
import Mathlib.Data.List.TakeWhile

/-!
# The words of a string

The words of a string are its longest parts without separators, in order.
-/

namespace Words

variable {α β : Type} (sep : α → Bool)

/-- The words of a string that goes on with one. -/
def wordsFrom (word : List α) : List α → List (List α)
  | [] => if word.isEmpty then [] else [word]
  | c :: rest =>
      if sep c then
        if word.isEmpty then
          wordsFrom [] rest
        else
          word :: wordsFrom [] rest
      else
        wordsFrom (word ++ [c]) rest

/-- The words of a string. -/
def words (s : List α) : List (List α) :=
  wordsFrom sep [] s

/-- There is no separator in the string. -/
def Pure (s : List α) : Prop :=
  ∀ c ∈ s, sep c = false

variable {sep} {s word : List α} {c : α}

@[simp] theorem words_nil : words sep [] = [] :=
  rfl

/-- A string has no separators, or one behind a part without. -/
theorem pure_or_split (sep : α → Bool) (s : List α) :
    Pure sep s ∨
      ∃ first c rest, s = first ++ c :: rest ∧ Pure sep first ∧
        sep c = true := by
  induction s with
  | nil =>
      exact Or.inl nofun
  | cons d later inductionHypothesis =>
      cases shape : sep d with
      | true =>
          exact Or.inr ⟨[], d, later, rfl, nofun, shape⟩
      | false =>
          rcases inductionHypothesis with
            isPure | ⟨first, c, rest, rfl, isPure, isSep⟩
          · apply Or.inl
            intro e member
            rcases List.mem_cons.mp member with rfl | inside
            · exact shape
            · exact isPure e inside
          · apply Or.inr
            refine ⟨d :: first, c, rest, rfl, ?_, isSep⟩
            intro e member
            rcases List.mem_cons.mp member with rfl | inside
            · exact shape
            · exact isPure e inside

theorem wordsFrom_pure (isPure : Pure sep s) (rest : List α) :
    wordsFrom sep word (s ++ rest) = wordsFrom sep (word ++ s) rest := by
  induction s generalizing word with
  | nil =>
      rw [List.nil_append, List.append_nil]
  | cons d later inductionHypothesis =>
      have here := isPure d List.mem_cons_self
      have others : Pure sep later :=
        fun e member => isPure e (List.mem_cons_of_mem _ member)
      rw [List.cons_append, wordsFrom, here,
        if_neg Bool.false_ne_true, inductionHypothesis others,
        List.append_assoc]
      rfl

/-- A string without separators is one word. -/
theorem words_of_pure (isPure : Pure sep s) (nonempty : s ≠ []) :
    words sep s = [s] := by
  have whole : wordsFrom sep [] (s ++ []) = _ :=
    wordsFrom_pure isPure []
  rw [List.append_nil, List.nil_append] at whole
  have some : s.isEmpty = false := by
    rw [List.isEmpty_eq_false_iff]
    exact nonempty
  rw [words, whole, wordsFrom, some, if_neg Bool.false_ne_true]

/-- A separator ends the words before it. -/
theorem words_append
    (isPure : Pure sep s) (isSep : sep c = true) (rest : List α) :
    words sep (s ++ c :: rest) = words sep s ++ words sep rest := by
  have whole : wordsFrom sep [] (s ++ c :: rest) = _ :=
    wordsFrom_pure isPure (c :: rest)
  rw [List.nil_append] at whole
  rw [words, whole, wordsFrom, isSep, if_pos rfl]
  by_cases empty : s = []
  · subst empty
    rfl
  · have some : s.isEmpty = false := by
      rw [List.isEmpty_eq_false_iff]
      exact empty
    rw [some, if_neg Bool.false_ne_true, words_of_pure isPure empty]
    rfl

@[simp] theorem words_cons_sep (isSep : sep c = true) (rest : List α) :
    words sep (c :: rest) = words sep rest := by
  have isPure : Pure sep ([] : List α) := nofun
  exact words_append isPure isSep rest

/-- Separators in front do not matter. -/
theorem words_dropWhile (s : List α) :
    words sep (s.dropWhile sep) = words sep s := by
  induction s with
  | nil =>
      rfl
  | cons d later inductionHypothesis =>
      cases shape : sep d with
      | true =>
          rw [List.dropWhile_cons_of_pos shape, words_cons_sep shape]
          exact inductionHypothesis
      | false =>
          rw [List.dropWhile_cons_of_neg (by simp [shape])]

/-- What holds of parts without separators holds of all strings. -/
theorem split_induction
    (sep : α → Bool) {P : List α → Prop}
    (pureCase : ∀ s, Pure sep s → P s)
    (splitCase : ∀ first c rest, Pure sep first → sep c = true →
      P rest → P (first ++ c :: rest))
    (s : List α) : P s := by
  induction bound : s.length using Nat.strong_induction_on
    generalizing s with
  | _ length inductionHypothesis =>
      rcases pure_or_split sep s with
        isPure | ⟨first, c, rest, rfl, isPure, isSep⟩
      · exact pureCase s isPure
      · apply splitCase first c rest isPure isSep
        apply inductionHypothesis rest.length _ rest rfl
        rw [← bound, List.length_append, List.length_cons]
        omega

/-- A separator splits the words of any string. -/
theorem words_append_sep (s : List α) (isSep : sep c = true)
    (rest : List α) :
    words sep (s ++ c :: rest) = words sep s ++ words sep rest := by
  induction s using split_induction sep with
  | pureCase s isPure =>
      exact words_append isPure isSep rest
  | splitCase first d later isPure isSep' inductionHypothesis =>
      rw [List.append_assoc, List.cons_append,
        words_append isPure isSep', words_append isPure isSep',
        inductionHypothesis, List.append_assoc]

/-- A string that starts with no separator starts with a word. -/
theorem words_takeWhile (plain : sep c = false) (rest : List α) :
    words sep (c :: rest) =
      (c :: rest).takeWhile (! sep ·) ::
        words sep ((c :: rest).dropWhile (! sep ·)) := by
  have split := List.takeWhile_append_dropWhile
    (p := fun d => ! sep d) (l := c :: rest)
  have isPure : Pure sep ((c :: rest).takeWhile (! sep ·)) := by
    intro d member
    simpa using List.mem_takeWhile_imp member
  have nonempty : (c :: rest).takeWhile (! sep ·) ≠ [] := by
    rw [List.takeWhile_cons_of_pos (by simp [plain])]
    exact List.cons_ne_nil _ _
  cases shape : (c :: rest).dropWhile (! sep ·) with
  | nil =>
      rw [shape, List.append_nil] at split
      rw [split] at isPure nonempty ⊢
      exact words_of_pure isPure nonempty
  | cons d later =>
      have isSep : sep d = true := by
        have head := List.head?_dropWhile_not (! sep ·) (c :: rest)
        rw [shape] at head
        simpa using head
      rw [shape] at split
      conv_lhs => rw [← split]
      rw [words_append isPure isSep, words_of_pure isPure nonempty,
        words_cons_sep isSep]
      rfl

/-- Only separators have no words. -/
theorem words_eq_nil_iff (s : List α) :
    words sep s = [] ↔ ∀ c ∈ s, sep c = true := by
  have ofPure {s : List α} (isPure : Pure sep s) :
      words sep s = [] ↔ ∀ c ∈ s, sep c = true := by
    cases s with
    | nil =>
        exact ⟨fun _ => nofun, fun _ => rfl⟩
    | cons c later =>
        have here := isPure c List.mem_cons_self
        rw [words_of_pure isPure (List.cons_ne_nil _ _)]
        constructor
        · intro absent
          cases absent
        · intro all
          rw [all c List.mem_cons_self] at here
          cases here
  induction s using split_induction sep with
  | pureCase s isPure =>
      exact ofPure isPure
  | splitCase first c later isPure isSep inductionHypothesis =>
      have others :
          words sep later = [] ↔ ∀ c ∈ later, sep c = true :=
        inductionHypothesis
      rw [words_append isPure isSep, List.append_eq_nil_iff,
        ofPure isPure, others]
      simp [or_imp, forall_and, isSep]

/-- Words keep their places when separators do. -/
theorem words_map
    {f : α → β} {sep' : β → Bool} (same : ∀ c, sep' (f c) = sep c)
    (s : List α) :
    words sep' (s.map f) = (words sep s).map (List.map f) := by
  have pureMap {s : List α} (isPure : Pure sep s) :
      Pure sep' (s.map f) := by
    intro d member
    obtain ⟨c, inside, rfl⟩ := List.mem_map.mp member
    rw [same]
    exact isPure c inside
  have ofPure {s : List α} (isPure : Pure sep s) :
      words sep' (s.map f) = (words sep s).map (List.map f) := by
    by_cases empty : s = []
    · subst empty
      rfl
    · have nonempty : s.map f ≠ [] := by
        rw [ne_eq, List.map_eq_nil_iff]
        exact empty
      rw [words_of_pure isPure empty,
        words_of_pure (pureMap isPure) nonempty]
      rfl
  induction s using split_induction sep with
  | pureCase s isPure =>
      exact ofPure isPure
  | splitCase first d later isPure isSep inductionHypothesis =>
      have isSep' : sep' (f d) = true := (same d).trans isSep
      rw [List.map_append, List.map_cons,
        words_append (pureMap isPure) isSep', inductionHypothesis,
        ofPure isPure, words_append isPure isSep, List.map_append]

/-- A string without separators is on one side of a separator. -/
theorem infix_append_sep
    {first rest : List α} (isPure : Pure sep word)
    (isSep : sep c = true) :
    word <:+: first ++ c :: rest ↔ word <:+: first ∨ word <:+: rest := by
  constructor
  · intro inside
    rcases List.infix_append_iff.mp inside with
      left | right | ⟨head, tail, rfl, ends, starts⟩
    · exact Or.inl left
    · rcases List.infix_cons_iff.mp right with starts | later
      · rcases List.prefix_cons_iff.mp starts with rfl | ⟨_, rfl, _⟩
        · exact Or.inr List.nil_infix
        · have isPure' := isPure c List.mem_cons_self
          rw [isSep] at isPure'
          cases isPure'
      · exact Or.inr later
    · rcases List.prefix_cons_iff.mp starts with rfl | ⟨_, rfl, _⟩
      · rw [List.append_nil]
        exact Or.inl ends.isInfix
      · have isPure' :=
          isPure c (List.mem_append_right _ List.mem_cons_self)
        rw [isSep] at isPure'
        cases isPure'
  · rintro (left | right)
    · exact left.trans (List.infix_append [] first (c :: rest))
    · exact right.trans ⟨first ++ [c], [], by simp⟩

/-- A string without separators is in the string if it is in a word. -/
theorem infix_iff
    (isPure : Pure sep word) (nonempty : word ≠ []) (s : List α) :
    word <:+: s ↔ ∃ other ∈ words sep s, word <:+: other := by
  have ofPure {s : List α} (isPure : Pure sep s) :
      word <:+: s ↔ ∃ other ∈ words sep s, word <:+: other := by
    by_cases empty : s = []
    · subst empty
      simp [nonempty]
    · rw [words_of_pure isPure empty]
      simp
  induction s using split_induction sep with
  | pureCase s isPure' =>
      exact ofPure isPure'
  | splitCase first d later isPure' isSep inductionHypothesis =>
      have others :
          word <:+: later ↔
            ∃ other ∈ words sep later, word <:+: other :=
        inductionHypothesis
      rw [infix_append_sep isPure isSep, words_append isPure' isSep,
        ofPure isPure', others]
      simp only [List.mem_append, or_and_right, exists_or]

end Words
