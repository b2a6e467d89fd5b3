import Kcn.Eq
import Kcn.Keyword

namespace Kcn

/-!
# Database selection by keywords

The tables of `kcn_eq`, the matching and the compilation of keywords by
`kcn_netstat`, the matching of `kcn_google`, and the registry `kcn_db`.
-/

/-! ### Equations -/

/-- `ISMATCH` -/
def ismatch (a : String) (s : List UInt8) : Bool :=
  strncasecmpEq ((ascii a).length + 1) (ascii a) s

/-- `kcn_eq_type_aton`, with the number of the enumerator. -/
def kcnEqTypeAton (s : List UInt8) : Option Nat :=
  if ismatch "hdd" s ∨ ismatch "storage" s then
    some 1
  else if ismatch "cpu" s ∨ ismatch "load" s then
    some 2
  else if ismatch "traffic" s then
    some 3
  else if ismatch "rtt" s then
    some 4
  else if ismatch "hopcount" s ∨ ismatch "ttl" s then
    some 5
  else if ismatch "aspathlen" s then
    some 6
  else if ismatch "wlanassoc" s then
    some 7
  else
    none

/-- `kcn_eq_operator_aton`, with the number of the enumerator. -/
def kcnEqOperatorAton (w : List UInt8) : Option Nat :=
  if strcasecmpEq (ascii "<") w ∨ strcasecmpEq (ascii "lt") w then
    some 1
  else if strcasecmpEq (ascii "<=") w ∨ strcasecmpEq (ascii "le") w then
    some 2
  else if strcasecmpEq (ascii "=") w ∨ strcasecmpEq (ascii "==") w ∨
      strcasecmpEq (ascii "eq") w then
    some 3
  else if strcasecmpEq (ascii ">") w ∨ strcasecmpEq (ascii "gt") w then
    some 4
  else if strcasecmpEq (ascii ">=") w ∨ strcasecmpEq (ascii "ge") w then
    some 5
  else
    none

/-- `kcn_eq_val_aton` -/
def kcnEqValAton (w : List UInt8) : Option UInt64 :=
  match kcnStrtoull w 0 ullongMax with
  | .ok val => some val
  | .error _ => none

/-- `KCN_TIME_JITTER` -/
def kcnTimeJitter : Int64 := 5 * 60

namespace KcnNetstat

/-- The words that `kcn_netstat_match` looks for. -/
def matchWords : List String :=
  ["server", "network", "terminal", "host", "router", "switch",
    "equipment", "HDD", "storage", "CPU", "load", "traffic", "latency",
    "hop", "ttl", "as", "assoc", "less", "greater", "equal", "than", "ge",
    "gt", "eq", "le", "lt", "max", "min"]

/-- `kcn_netstat_match`: the score, or the `errno` with which it declines. -/
def netstatMatch (s : List UInt8) : Except Errno Nat :=
  let score :=
    (matchWords.filter fun word => strcasestr s (ascii word)).length
  if score = 0 then
    .error 0
  else
    .ok score

/--
`kcn_netstat_compile`: what it returns and the equation behind it; `now` is
what `time` returns, unless that is -1.
-/
def netstatCompile
    (keyv : List (List UInt8)) (now : Option Int64) (ke : KcnEq) :
    Bool × KcnEq :=
  match keyv with
  | key :: operator :: value :: more =>
      match kcnEqTypeAton key with
      | none => (false, ke)
      | some type =>
          let ke := { ke with keType := type }
          match kcnEqOperatorAton operator with
          | none => (false, ke)
          | some op =>
              let ke := { ke with keOp := op }
              match kcnEqValAton value with
              | none => (false, ke)
              | some val =>
                  let ke := { ke with keVal := val }
                  if more = [] then
                    match now with
                    | none => (false, { ke with keStart := -1 })
                    | some start =>
                        (true, {
                          ke with
                          keStart := start - kcnTimeJitter
                          keEnd := kcnTimeNow
                        })
                  else
                    (true, ke)
  | _ => (false, ke)

end KcnNetstat

/-- `kcn_google_match` -/
def googleMatch (_ : List UInt8) : Except Errno Nat :=
  .ok 0

/-! ### Databases -/

namespace Errno

def eprotonosupport : Errno := 93

end Errno

/--
`struct kcn_db`, but for its description and its search function; `kdMatch` is
the score, or the `errno` where it declines.
-/
structure KcnDb where
  kdPrio : Nat
  kdName : List UInt8
  kdMatch : List UInt8 → Except Errno Nat

/-- `kcn_netstat` -/
def kcnNetstat : KcnDb where
  kdPrio := 255
  kdName := ascii "net"
  kdMatch := KcnNetstat.netstatMatch

/-- `kcn_google` -/
def kcnGoogle : KcnDb where
  kdPrio := 0
  kdName := ascii "google"
  kdMatch := googleMatch

namespace KcnDb

/-- `kcn_db_register` of a database that is not in the list. -/
def register (kdn : KcnDb) : List KcnDb → List KcnDb
  | [] => [kdn]
  | kd :: later =>
      if kd.kdPrio < kdn.kdPrio then
        kdn :: kd :: later
      else
        kd :: register kdn later

/-- The loop of `kcn_db_match`, with the best database so far. -/
def matchLoop (keys : List UInt8) :
    List KcnDb → Option (KcnDb × Nat) → Except Errno (Option KcnDb)
  | [], best => .ok (best.map Prod.fst)
  | kd :: later, best =>
      match kd.kdMatch keys with
      | .error errno =>
          if errno ≠ 0 then
            .error Errno.einval
          else
            matchLoop keys later best
      | .ok score =>
          match best with
          | none => matchLoop keys later (some (kd, score))
          | some (_, scorematch) =>
              if score > scorematch then
                matchLoop keys later (some (kd, score))
              else
                matchLoop keys later best

/-- `kcn_db_match`, with the `errno` where it returns NULL. -/
def dbMatch (list : List KcnDb) (keys : List UInt8) :
    Except Errno KcnDb :=
  match matchLoop keys list none with
  | .error errno => .error errno
  | .ok none => .error Errno.eprotonosupport
  | .ok (some kd) => .ok kd

/-- `kcn_db_lookup` -/
def dbLookup (list : List KcnDb) (name : List UInt8) :
    Except Errno KcnDb :=
  match list.find? fun kd => strcasecmpEq kd.kdName name with
  | some kd => .ok kd
  | none => .error Errno.esrch

/-- The database that `kcn_db_search` selects; `name` is that of the info. -/
def select
    (list : List KcnDb) (name : Option (List UInt8))
    (keys : List UInt8) : Except Errno KcnDb :=
  match name with
  | none => dbMatch list keys
  | some name => dbLookup list name

end KcnDb

end Kcn
