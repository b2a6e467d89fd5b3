import Kcn.Kernel

namespace Kcn

/-!
# Equations and string hashing

The parts of `kcn_eq` and `kcn_str` that the database uses.
-/

/-- `KCN_EQ_TYPE_MAX` -/
def kcnEqTypeMax : Nat := 8

/-- `enum kcn_eq_operator` -/
inductive KcnEqOperator where
  | none | lt | le | eq | gt | ge
  deriving Repr, DecidableEq

namespace KcnEqOperator

/-- The enumerator with a given number. -/
def ofCode? : Nat → Option KcnEqOperator
  | 0 => some .none
  | 1 => some .lt
  | 2 => some .le
  | 3 => some .eq
  | 4 => some .gt
  | 5 => some .ge
  | _ => Option.none

end KcnEqOperator

/--
`struct kcn_eq`.  The type and the operator are the numbers of their
enumerators; received from the network they can be any byte.
-/
structure KcnEq where
  keType : Nat
  keOp : Nat
  keVal : UInt64
  keStart : Int64
  keEnd : Int64
  deriving Repr, DecidableEq

/-- `KCN_TIME_NOW` -/
def kcnTimeNow : Int64 := -1

/-- `kcn_eq_time_match` -/
def kcnEqTimeMatch (time : Int64) (ke : KcnEq) : Bool :=
  if ke.keEnd ≠ kcnTimeNow ∧ time > ke.keEnd then
    false
  else if time < ke.keStart then
    false
  else
    true

/-- `KCN_STR_HASH_DJB2_INIT` -/
def kcnStrHashDjb2Init : UInt32 := 5381

/-- `kcn_str_hash` -/
def kcnStrHash (bytes : List UInt8) (hsize : Nat) : Nat :=
  let h : UInt32 :=
    bytes.foldl
      (fun (h : UInt32) byte => (h <<< 5) + h + byte.toUInt32)
      kcnStrHashDjb2Init
  (h + (h >>> 5)).toNat % hsize

theorem kcnStrHash_lt (bytes : List UInt8) {hsize : Nat}
    (positive : 0 < hsize) :
    kcnStrHash bytes hsize < hsize :=
  Nat.mod_lt _ positive

/--
`strncmp(left, right, count) == 0`: equal up to `count` bytes or up to a common
NUL, whichever comes first.
-/
def strncmpEq : Nat → List UInt8 → List UInt8 → Bool
  | 0, _, _ => true
  | count + 1, left :: lefts, right :: rights =>
      left == right && (left == 0 || strncmpEq count lefts rights)
  | _ + 1, _, _ => false

end Kcn
