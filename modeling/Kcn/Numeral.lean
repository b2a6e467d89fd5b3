import Kcn.Str

namespace Kcn

/-!
# Numerals

The strings that `kcn_strtoull` takes for numbers, and those that it reads as
the number that they stand for.
-/

/-- The number that a sign and the value of digits stand for. -/
inductive Signed : List UInt8 → Nat → Int → Prop where
  | bare (value : Nat) : Signed [] value value
  | plus (value : Nat) : Signed [0x2b] value value
  | minus (value : Nat) : Signed [0x2d] value (-value)

/-- A string of digits. -/
structure Digits (s : List UInt8) : Prop where
  nonempty : s ≠ []
  all : ∀ c ∈ s, isdigit c = true

/-- A decimal numeral: blanks, a sign and digits. -/
inductive Numeral : List UInt8 → Int → Prop where
  | intro {blanks sign digits : List UInt8} {value : Int} :
      (∀ c ∈ blanks, isspace c = true) →
      Signed sign (decimal digits) value →
      Digits digits →
      Numeral (blanks ++ (sign ++ digits)) value

variable {s : List UInt8} {value : Int}

/-! ### What `strtoll` reads -/

theorem Digits.takeWhile_eq (digits : Digits s) :
    s.takeWhile isdigit = s :=
  List.takeWhile_eq_self_iff.mpr digits.all

theorem Digits.dropWhile_eq (digits : Digits s) :
    s.dropWhile isdigit = [] :=
  List.dropWhile_eq_nil_iff.mpr digits.all

/-- Digits start with neither a blank nor a sign. -/
theorem Digits.head (digits : Digits s) :
    s.dropWhile isspace = s ∧ s.head? ≠ some 0x2b ∧
      s.head? ≠ some 0x2d := by
  cases s with
  | nil =>
      exact absurd rfl digits.nonempty
  | cons first later =>
      have isDigit := digits.all first List.mem_cons_self
      obtain ⟨plus, minus⟩ := sign_of_isdigit isDigit
      refine ⟨?_, by simpa using plus, by simpa using minus⟩
      rw [List.dropWhile_cons_of_neg]
      rw [isspace_of_isdigit isDigit]
      exact Bool.false_ne_true

/-- `strtoll` reads a numeral up to its end, and clamps its value. -/
theorem strtoll_numeral (numeral : Numeral s value) :
    strtoll s = .clamp value [] := by
  cases numeral with
  | @intro blanks sign digits _ areBlanks signed areDigits =>
      obtain ⟨bare, noPlus, noMinus⟩ := areDigits.head
      have skipped :
          (blanks ++ (sign ++ digits)).dropWhile isspace =
            sign ++ digits := by
        rw [List.dropWhile_append_of_pos areBlanks]
        cases signed with
        | bare =>
            exact bare
        | plus | minus =>
            exact List.dropWhile_cons_of_neg (by decide)
      unfold strtoll
      simp only [skipped]
      cases signed with
      | bare =>
          simp only [List.nil_append, noPlus, noMinus, or_self, if_false,
            areDigits.takeWhile_eq, areDigits.dropWhile_eq,
            areDigits.nonempty]
      | plus | minus =>
          simp [areDigits.takeWhile_eq, areDigits.dropWhile_eq,
            areDigits.nonempty]

/-- What `strtoll` reads up to its end is a numeral. -/
theorem numeral_of_strtoll
    (nonempty : s ≠ []) (whole : (strtoll s).rest = []) :
    ∃ value, Numeral s value := by
  have clampRest (number : Int) (rest : List UInt8) :
      (Strtoll.clamp number rest).rest = rest := by
    unfold Strtoll.clamp
    split
    · rfl
    · split <;> rfl
  have split := List.takeWhile_append_dropWhile (p := isspace) (l := s)
  have areBlanks : ∀ c ∈ s.takeWhile isspace, isspace c = true :=
    fun c member => List.mem_takeWhile_imp member
  generalize s.takeWhile isspace = blanks at split areBlanks
  unfold strtoll at whole
  generalize s.dropWhile isspace = signed at split whole
  have digitsOf {unsigned : List UInt8} {number : Int}
      (whole :
        (if unsigned.takeWhile isdigit = [] then
            ({ value := 0, rest := s, error := none } : Strtoll)
          else
            .clamp number (unsigned.dropWhile isdigit)).rest = []) :
      Digits unsigned := by
    by_cases none : unsigned.takeWhile isdigit = []
    · rw [if_pos none] at whole
      exact absurd whole nonempty
    · rw [if_neg none, clampRest] at whole
      refine ⟨?_, List.dropWhile_eq_nil_iff.mp whole⟩
      rintro rfl
      exact none rfl
  have differs : ¬ (0x2b : UInt8) = 0x2d := by decide
  rw [← split]
  by_cases isPlus : signed.head? = some 0x2b
  · obtain ⟨later, rfl⟩ := List.head?_eq_some_iff.mp isPlus
    simp only [List.head?_cons, Option.some.injEq, differs, or_false,
      if_true, if_false, List.tail_cons] at whole
    exact ⟨_, .intro areBlanks (.plus _) (digitsOf whole)⟩
  · by_cases isMinus : signed.head? = some 0x2d
    · obtain ⟨later, rfl⟩ := List.head?_eq_some_iff.mp isMinus
      simp only [List.head?_cons, or_true, if_true, List.tail_cons]
        at whole
      exact ⟨_, .intro areBlanks (.minus _) (digitsOf whole)⟩
    · simp only [isPlus, isMinus, or_self, if_false] at whole
      exact ⟨_, .intro areBlanks (.bare _) (digitsOf whole)⟩

/-! ### What `kcn_strtoull` makes of it -/

/-- The number that a numeral is clamped to and converted to. -/
def converted (value : Int) : UInt64 :=
  .ofInt (Strtoll.clamp value []).value

theorem toNat_ofInt (number : Int) :
    ((UInt64.ofInt number).toNat : Int) = number % 2 ^ 64 := by
  rw [UInt64.ofInt, UInt64.toNat_ofNat']
  omega

/-- Where numerals below -2^63 end up. -/
theorem converted_low (low : value < -2 ^ 63) :
    (converted value).toNat = 2 ^ 63 := by
  unfold converted Strtoll.clamp
  rw [if_pos low]
  decide

/-- Negative numerals wrap around. -/
theorem converted_negative
    (least : -2 ^ 63 ≤ value) (negative : value < 0) :
    ((converted value).toNat : Int) = value + 2 ^ 64 := by
  unfold converted Strtoll.clamp
  rw [if_neg (Int.not_lt.mpr least), if_neg (by omega), toNat_ofInt]
  show value % 2 ^ 64 = _
  omega

theorem converted_exact (positive : 0 ≤ value) (small : value < 2 ^ 63) :
    ((converted value).toNat : Int) = value := by
  unfold converted Strtoll.clamp
  rw [if_neg (by omega), if_neg (by omega), toNat_ofInt]
  show value % 2 ^ 64 = _
  omega

/-- Where numerals from 2^63 on end up. -/
theorem converted_high (high : 2 ^ 63 ≤ value) :
    (converted value).toNat = 2 ^ 63 - 1 := by
  unfold converted Strtoll.clamp
  rw [if_neg (by omega), if_pos high]
  decide

/-- The test for an overflow never succeeds. -/
theorem overflow_unseen
    (error : (Strtoll.clamp value []).error = some Errno.erange) :
    converted value ≠ ullongMax ∧ converted value ≠ 0 := by
  have outside : value < -2 ^ 63 ∨ 2 ^ 63 ≤ value := by
    unfold Strtoll.clamp at error
    split at error
    · rename_i low
      exact Or.inl low
    · split at error
      · rename_i high
        exact Or.inr high
      · cases error
  have top : ullongMax.toNat = 2 ^ 64 - 1 := by decide
  have zero : (0 : UInt64).toNat = 0 := by decide
  rw [ne_eq, ne_eq, ← UInt64.toNat_inj, ← UInt64.toNat_inj, top, zero]
  rcases outside with low | high
  · rw [converted_low low]
    omega
  · rw [converted_high high]
    omega

/-- Only the bounds decide about a numeral. -/
theorem kcnStrtoull_numeral
    (numeral : Numeral s value) (min max : UInt64) :
    kcnStrtoull s min max =
      if converted value < min ∨ max < converted value then
        .error Errno.erange
      else
        .ok (converted value) := by
  have nonempty : s ≠ [] := by
    rintro rfl
    generalize whole : ([] : List UInt8) = string at numeral
    cases numeral with
    | intro _ _ areDigits =>
        have none := (List.append_eq_nil_iff.mp whole.symm).2
        exact areDigits.nonempty (List.append_eq_nil_iff.mp none).2
  have rest : (Strtoll.clamp value []).rest = [] := by
    unfold Strtoll.clamp
    split
    · rfl
    · split <;> rfl
  unfold kcnStrtoull
  simp only [strtoll_numeral numeral, nonempty, rest, ne_eq,
    not_true_eq_false, or_self, if_false]
  rw [if_neg]
  · rfl
  · rintro ⟨error, some⟩
    obtain ⟨notMax, notZero⟩ := overflow_unseen error
    rcases some with isMax | isZero
    · exact notMax isMax
    · exact notZero isZero

/-- A string that is no numeral is refused. -/
theorem kcnStrtoull_other
    (none : ∀ value, ¬ Numeral s value) (min max : UInt64) :
    kcnStrtoull s min max = .error Errno.einval := by
  have refused : s = [] ∨ (strtoll s).rest ≠ [] := by
    by_contra read
    obtain ⟨nonempty, whole⟩ := not_or.mp read
    obtain ⟨value, numeral⟩ :=
      numeral_of_strtoll nonempty (not_not.mp whole)
    exact none value numeral
  unfold kcnStrtoull
  simp only [refused, if_true]

/-! ### Which numerals are read as their value -/

/-- `kcn_strtoull` with what it returns, `*p` and `errno` behind it. -/
def kcnStrtoullInto
    (s : List UInt8) (min max p : UInt64) (errno : Errno) :
    Bool × UInt64 × Errno :=
  match kcnStrtoull s min max with
  | .ok value => (true, value, errno)
  | .error error => (false, p, error)

/-- The number that a string stands for is within the bounds. -/
def Within (min max : UInt64) (value : Int) : Prop :=
  min.toNat ≤ value ∧ value ≤ max.toNat

/-- A string is read as the number that it stands for, or refused. -/
structure Parses
    (s : List UInt8) (min max p : UInt64) (errno : Errno) : Prop where
  sound :
    (kcnStrtoullInto s min max p errno).1 = true →
    ∃ value, Numeral s value ∧ Within min max value ∧
      ((kcnStrtoullInto s min max p errno).2.1.toNat : Int) = value
  complete :
    Digits s →
    Within min max (decimal s) →
    (kcnStrtoullInto s min max p errno).1 = true
  unchanged :
    (kcnStrtoullInto s min max p errno).1 = false →
    (kcnStrtoullInto s min max p errno).2.1 = p

/--
A numeral is below 2^63 and not negative, or the number that it is mistaken
for is outside of the bounds and it does not have to be accepted.
-/
def Readable (s : List UInt8) (min max : UInt64) : Prop :=
  ∀ value, Numeral s value →
    value < -2 ^ 63 ∧ ¬ Within min max (2 ^ 63) ∨
      -2 ^ 63 ≤ value ∧ value < 0 ∧ ¬ Within min max (value + 2 ^ 64) ∨
      0 ≤ value ∧ value < 2 ^ 63 ∨
      2 ^ 63 ≤ value ∧ ¬ Within min max (2 ^ 63 - 1) ∧
        ¬ (Digits s ∧ Within min max (decimal s))

variable {min max p : UInt64} {errno : Errno}

theorem within_iff (number : UInt64) :
    Within min max number.toNat ↔ ¬ (number < min ∨ max < number) := by
  unfold Within
  rw [UInt64.lt_iff_toNat_lt, UInt64.lt_iff_toNat_lt]
  omega

/-- What `kcn_strtoull` does with a numeral that it accepts. -/
theorem into_accepted
    (numeral : Numeral s value)
    (within : Within min max (converted value).toNat) :
    kcnStrtoullInto s min max p errno =
      (true, converted value, errno) := by
  unfold kcnStrtoullInto
  rw [kcnStrtoull_numeral numeral, if_neg ((within_iff _).mp within)]

theorem into_refused
    (numeral : Numeral s value)
    (outside : ¬ Within min max (converted value).toNat) :
    kcnStrtoullInto s min max p errno = (false, p, Errno.erange) := by
  unfold kcnStrtoullInto
  rw [within_iff, not_not] at outside
  rw [kcnStrtoull_numeral numeral, if_pos outside]

theorem into_other (none : ∀ value, ¬ Numeral s value) :
    kcnStrtoullInto s min max p errno = (false, p, Errno.einval) := by
  unfold kcnStrtoullInto
  rw [kcnStrtoull_other none]

/-- Digits are a numeral. -/
theorem Digits.numeral (digits : Digits s) : Numeral s (decimal s) := by
  have numeral : Numeral ([] ++ ([] ++ s)) (decimal s) :=
    .intro (by exact nofun) (.bare _) digits
  exact numeral

/-- Numerals for different numbers are clamped in different ways. -/
theorem clamp_inj
    {other : Int}
    (same : Strtoll.clamp value [] = Strtoll.clamp other []) :
    value = other ∨ value < -2 ^ 63 ∧ other < -2 ^ 63 ∨
      2 ^ 63 ≤ value ∧ 2 ^ 63 ≤ other := by
  unfold Strtoll.clamp at same
  by_cases low : value < -2 ^ 63
  · rw [if_pos low] at same
    split at same
    · exact Or.inr (Or.inl ⟨low, by assumption⟩)
    · split at same
      · simp at same
      · simp at same
  · rw [if_neg low] at same
    by_cases high : 2 ^ 63 ≤ value
    · rw [if_pos high] at same
      split at same
      · simp at same
      · split at same
        · exact Or.inr (Or.inr ⟨high, by assumption⟩)
        · simp at same
    · rw [if_neg high] at same
      split at same
      · simp at same
      · split at same
        · simp at same
        · exact Or.inl (congrArg Strtoll.value same)

/-- Of a numeral that is read as its value, the number is the value. -/
theorem value_of_converted
    {other : Int}
    (numeral : Numeral s value) (numeral' : Numeral s other)
    (same : ((converted value).toNat : Int) = other) :
    0 ≤ value ∧ value < 2 ^ 63 := by
  have clamps := (strtoll_numeral numeral).symm.trans
    (strtoll_numeral numeral')
  rcases clamp_inj clamps with rfl | ⟨low, low'⟩ | ⟨high, high'⟩
  · by_cases low : value < -2 ^ 63
    · have convertedEq := converted_low low
      omega
    · by_cases negative : value < 0
      · have convertedEq :=
          converted_negative (Int.not_lt.mp low) negative
        omega
      · by_cases high : 2 ^ 63 ≤ value
        · have convertedEq := converted_high high
          omega
        · omega
  · have convertedEq := converted_low low
    omega
  · have convertedEq := converted_high high
    omega

/-- Digits never stand for a negative number. -/
theorem not_digits_of_negative
    (numeral : Numeral s value) (negative : value < 0) : ¬ Digits s := by
  intro digits
  have clamps := (strtoll_numeral numeral).symm.trans
    (strtoll_numeral digits.numeral)
  rcases clamp_inj clamps with same | ⟨_, low⟩ | ⟨high, _⟩
  · omega
  · omega
  · omega

/-- What the condition on a numeral says about the number it becomes. -/
theorem outside_iff (numeral : Numeral s value) :
    (value < -2 ^ 63 ∧ ¬ Within min max (2 ^ 63) ∨
      -2 ^ 63 ≤ value ∧ value < 0 ∧ ¬ Within min max (value + 2 ^ 64) ∨
      0 ≤ value ∧ value < 2 ^ 63 ∨
      2 ^ 63 ≤ value ∧ ¬ Within min max (2 ^ 63 - 1) ∧
        ¬ (Digits s ∧ Within min max (decimal s))) ↔
    0 ≤ value ∧ value < 2 ^ 63 ∨
      ¬ Within min max (converted value).toNat ∧
        ¬ (Digits s ∧ Within min max (decimal s)) := by
  by_cases low : value < -2 ^ 63
  · have unsigned := not_digits_of_negative numeral (by omega)
    have number : ((converted value).toNat : Int) = 2 ^ 63 := by
      rw [converted_low low]
      rfl
    rw [number]
    constructor
    · rintro (⟨_, outside⟩ | ⟨least, _⟩ | exact | ⟨high, _⟩)
      · exact Or.inr ⟨outside, fun both => unsigned both.1⟩
      · omega
      · exact Or.inl exact
      · omega
    · rintro (exact | ⟨outside, _⟩)
      · omega
      · exact Or.inl ⟨low, outside⟩
  · have least := Int.not_lt.mp low
    by_cases negative : value < 0
    · have unsigned := not_digits_of_negative numeral negative
      rw [converted_negative least negative]
      constructor
      · rintro (⟨low', _⟩ | ⟨_, _, outside⟩ | exact | ⟨high, _⟩)
        · omega
        · exact Or.inr ⟨outside, fun both => unsigned both.1⟩
        · exact Or.inl exact
        · omega
      · rintro (exact | ⟨outside, _⟩)
        · omega
        · exact Or.inr (Or.inl ⟨least, negative, outside⟩)
    · by_cases high : 2 ^ 63 ≤ value
      · have number : ((converted value).toNat : Int) = 2 ^ 63 - 1 := by
          rw [converted_high high]
          rfl
        rw [number]
        constructor
        · rintro (⟨low', _⟩ | ⟨_, negative', _⟩ | exact | ⟨_, outside⟩)
          · omega
          · omega
          · exact Or.inl exact
          · exact Or.inr outside
        · rintro (exact | outside)
          · omega
          · exact Or.inr (Or.inr (Or.inr ⟨high, outside⟩))
      · have exact : 0 ≤ value ∧ value < 2 ^ 63 := by omega
        exact ⟨fun _ => Or.inl exact,
          fun _ => Or.inr (Or.inr (Or.inl exact))⟩

/--
A string is read as the number that it stands for, or refused, if and only if
that number is below 2^63 and not negative or the bounds exclude the one that
it is mistaken for.
-/
theorem number_parsing
    (s : List UInt8) (min max p : UInt64) (errno : Errno) :
    Parses s min max p errno ↔ Readable s min max := by
  constructor
  · intro parses value numeral
    rw [outside_iff numeral]
    by_cases within : Within min max (converted value).toNat
    · apply Or.inl
      obtain ⟨sound, _, _⟩ := parses
      rw [into_accepted numeral within] at sound
      obtain ⟨other, numeral', _, same⟩ := sound rfl
      exact value_of_converted numeral numeral' same
    · apply Or.inr
      refine ⟨within, ?_⟩
      rintro ⟨digits, inside⟩
      have accepted := parses.complete digits inside
      rw [into_refused numeral within] at accepted
      cases accepted
  · intro readable
    by_cases none : ∀ value, ¬ Numeral s value
    · refine ⟨?_, ?_, ?_⟩
      · rw [into_other none]
        exact nofun
      · intro digits
        exact absurd digits.numeral (none _)
      · rw [into_other none]
        exact fun _ => rfl
    · obtain ⟨value, numeral⟩ : ∃ value, Numeral s value := by
        by_contra missing
        exact none (not_exists.mp missing)
      have outside := (outside_iff numeral).mp (readable value numeral)
      by_cases within : Within min max (converted value).toNat
      · have accepted : kcnStrtoullInto s min max p errno = _ :=
          into_accepted numeral within
        have exact : 0 ≤ value ∧ value < 2 ^ 63 :=
          outside.resolve_right fun refused => refused.1 within
        have same := converted_exact exact.1 exact.2
        refine ⟨?_, ?_, ?_⟩
        · rw [accepted]
          intro _
          exact ⟨value, numeral, same ▸ within, same⟩
        · rw [accepted]
          exact fun _ _ => rfl
        · rw [accepted]
          exact nofun
      · have refused : kcnStrtoullInto s min max p errno = _ :=
          into_refused numeral within
        refine ⟨?_, ?_, ?_⟩
        · rw [refused]
          exact nofun
        · intro digits inside
          exfalso
          rcases outside with exact | ⟨_, outside'⟩
          · have same := converted_exact exact.1 exact.2
            have clamps := (strtoll_numeral numeral).symm.trans
              (strtoll_numeral digits.numeral)
            rcases clamp_inj clamps with rfl | ⟨_, low⟩ | ⟨high, _⟩
            · apply within
              rw [same]
              exact inside
            · omega
            · omega
          · exact outside' ⟨digits, inside⟩
        · rw [refused]
          exact fun _ => rfl

/-- With the bounds of the callers, numbers from 2^63 on are misread. -/
theorem readable_all :
    Readable s 0 ullongMax ↔
      ∀ value, Numeral s value → 0 ≤ value ∧ value < 2 ^ 63 := by
  have all (number : UInt64) : Within 0 ullongMax number.toNat := by
    have below := UInt64.toNat_lt number
    have top : ullongMax.toNat = 2 ^ 64 - 1 := by decide
    have zero : (0 : UInt64).toNat = 0 := by decide
    unfold Within
    omega
  constructor
  · intro readable value numeral
    have outside := (outside_iff numeral).mp (readable value numeral)
    exact outside.resolve_right fun refused => refused.1 (all _)
  · intro exact value numeral
    exact (outside_iff numeral).mpr (Or.inl (exact value numeral))

/-- The string `-1` is read as 2^64 - 1. -/
theorem parses_minus_one : ¬ Parses [0x2d, 0x31] 0 ullongMax 0 0 := by
  have digits : Digits [0x31] :=
    ⟨by decide, List.forall_mem_singleton.mpr rfl⟩
  have numeral : Numeral ([] ++ ([0x2d] ++ [0x31])) (-(decimal [0x31])) :=
    .intro (fun _ inside => by cases inside) (.minus _) digits
  intro parses
  obtain ⟨other, numeral', _, same⟩ := parses.sound (by decide)
  have positive : (0 : Int) ≤ other := by
    rw [← same]
    exact Int.natCast_nonneg _
  have clamps := (strtoll_numeral numeral).symm.trans
    (strtoll_numeral numeral')
  have one : decimal [0x31] = 1 := by decide
  rcases clamp_inj clamps with rfl | ⟨low, _⟩ | ⟨high, _⟩
  · omega
  · omega
  · omega

end Kcn
