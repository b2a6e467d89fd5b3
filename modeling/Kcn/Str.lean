import Mathlib.Algebra.Group.Int.Defs
import Mathlib.Algebra.Group.Nat.Defs
import Mathlib.Data.List.TakeWhile
import Kcn.Kernel

namespace Kcn

/-!
# Numbers in strings

`kcn_strtoull` of `kcn_str`, and what it and the parsers use of the C library
in the C locale.  A C string is the list of its bytes before the NUL.
-/

/-- `isspace` -/
def isspace (c : UInt8) : Bool :=
  c = 0x20 || (0x09 ≤ c && c ≤ 0x0d)

/-- `isprint` -/
def isprint (c : UInt8) : Bool :=
  0x20 ≤ c && c ≤ 0x7e

/-- `isdigit` -/
def isdigit (c : UInt8) : Bool :=
  0x30 ≤ c && c ≤ 0x39

/-- The value of decimal digits that follow others. -/
def decimalFrom (value : Nat) : List UInt8 → Nat
  | [] => value
  | digit :: later => decimalFrom (10 * value + (digit.toNat - 0x30)) later

/-- The value of decimal digits. -/
def decimal (digits : List UInt8) : Nat :=
  decimalFrom 0 digits

/-- What `strtoll` returns, where it stops and the `errno` it sets. -/
structure Strtoll where
  value : Int
  rest : List UInt8
  error : Option Errno

/-- The result of `strtoll` for a number and what follows it. -/
def Strtoll.clamp (number : Int) (rest : List UInt8) : Strtoll :=
  if number < -2 ^ 63 then
    { value := -2 ^ 63, rest := rest, error := some Errno.erange }
  else if 2 ^ 63 ≤ number then
    { value := 2 ^ 63 - 1, rest := rest, error := some Errno.erange }
  else
    { value := number, rest := rest, error := none }

/-- `strtoll` with base 10 -/
def strtoll (s : List UInt8) : Strtoll :=
  let signed := s.dropWhile isspace
  let negative := signed.head? = some 0x2d
  let unsigned :=
    if signed.head? = some 0x2b ∨ negative then signed.tail else signed
  let digits := unsigned.takeWhile isdigit
  if digits = [] then
    { value := 0, rest := s, error := none }
  else
    let rest := unsigned.dropWhile isdigit
    if negative then
      .clamp (-(decimal digits)) rest
    else
      .clamp (decimal digits) rest

/-- `ULLONG_MAX` -/
def ullongMax : UInt64 := 0xffffffffffffffff

/-- `kcn_strtoull`, with the `errno` of a failure. -/
def kcnStrtoull (s : List UInt8) (min max : UInt64) :
    Except Errno UInt64 :=
  let parsed := strtoll s
  let llval := UInt64.ofInt parsed.value
  if s = [] ∨ parsed.rest ≠ [] then
    .error Errno.einval
  else if parsed.error = some Errno.erange ∧
      (llval = ullongMax ∨ llval = 0) then
    .error Errno.erange
  else if llval < min ∨ max < llval then
    .error Errno.erange
  else
    .ok llval

/-! ### Decimal numbers -/

/-- Digits are printed. -/
theorem isprint_of_isdigit {c : UInt8} (digit : isdigit c = true) :
    isprint c = true := by
  simp [isdigit, isprint, UInt8.le_iff_toNat_le] at digit ⊢
  omega

/-- Digits are no blanks. -/
theorem isspace_of_isdigit {c : UInt8} (digit : isdigit c = true) :
    isspace c = false := by
  simp [isdigit, isspace, UInt8.le_iff_toNat_le, ← UInt8.toNat_inj]
    at digit ⊢
  omega

/-- A digit is no sign. -/
theorem sign_of_isdigit {c : UInt8} (digit : isdigit c = true) :
    c ≠ 0x2b ∧ c ≠ 0x2d := by
  simp [isdigit, UInt8.le_iff_toNat_le, ← UInt8.toNat_inj] at digit ⊢
  omega

/-- `strtoll` reads a decimal number that fits. -/
theorem strtoll_decimal
    {digits : List UInt8} (nonempty : digits ≠ [])
    (all : ∀ c ∈ digits, isdigit c = true)
    (fits : decimal digits < 2 ^ 63) :
    strtoll digits =
      { value := decimal digits, rest := [], error := none } := by
  cases digits with
  | nil =>
      exact absurd rfl nonempty
  | cons first later =>
      have isDigit := all first List.mem_cons_self
      obtain ⟨plus, minus⟩ := sign_of_isdigit isDigit
      have whole :
          (first :: later).takeWhile isdigit = first :: later :=
        List.takeWhile_eq_self_iff.mpr all
      have none : (first :: later).dropWhile isdigit = [] :=
        List.dropWhile_eq_nil_iff.mpr all
      have bare : (first :: later).dropWhile isspace = first :: later := by
        rw [List.dropWhile_cons_of_neg]
        rw [isspace_of_isdigit isDigit]
        exact Bool.false_ne_true
      unfold strtoll
      simp only [bare, List.head?_cons, Option.some.injEq, plus, minus,
        or_self, if_false, whole, none, reduceCtorEq]
      unfold Strtoll.clamp
      rw [if_neg, if_neg]
      · omega
      · omega

/-- A decimal number below 2^63 is read as its value. -/
theorem kcnStrtoull_decimal
    {digits : List UInt8} (nonempty : digits ≠ [])
    (all : ∀ c ∈ digits, isdigit c = true)
    (fits : decimal digits < 2 ^ 63) :
    kcnStrtoull digits 0 ullongMax =
      .ok (UInt64.ofNat (decimal digits)) := by
  unfold kcnStrtoull
  simp only [strtoll_decimal nonempty all fits, nonempty, ne_eq,
    not_true_eq_false, or_self, if_false, reduceCtorEq, false_and]
  have valueEq :
      UInt64.ofInt (decimal digits) = UInt64.ofNat (decimal digits) := by
    rw [UInt64.ofInt]
    congr 1
    omega
  rw [valueEq, if_neg]
  rintro (below | above)
  · exact absurd below UInt64.not_lt_zero
  · have least := UInt64.toNat_lt (.ofNat (decimal digits))
    rw [UInt64.lt_iff_toNat_lt] at above
    have top : ullongMax.toNat = 2 ^ 64 - 1 := by decide
    omega

end Kcn
