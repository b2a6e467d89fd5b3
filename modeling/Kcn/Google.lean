import Kcn.Client
import Kcn.Netstat
import Kcn.Numeral
import Kcn.Uri

namespace Kcn

open Program KcnUri

/-!
# The Web search

`kcn_google`, what it uses of the HTTP client, and the values that the JSON
library makes of a response.  The country and the address of the information
structure are arguments here.
-/

/-- A value of the JSON library. -/
inductive Json where
  | object (members : List (List UInt8 × Json))
  | array (items : List Json)
  | string (s : List UInt8)
  | integer (value : Int)
  | other

/-- `json_object_get`; NULL is none. -/
def Json.objectGet (jval : Json) (key : List UInt8) : Option Json :=
  match jval with
  | .object members => members.lookup key
  | _ => none

/--
What one request brings: the `errno` where there is no response, or the value
of the response, if it has one.
-/
inductive Reply where
  | failed (error : Errno)
  | response (jroot : Option Json)

/-- The state of a search. -/
structure GoogleCtx where
  ku : KcnUri
  heap : Heap
  ki : KcnInfo
  errno : Errno
  reply : Nat → List UInt8 → Reply
  requests : List (List UInt8)

namespace KcnGoogle

/-- Programs that search. -/
abbrev GoogleOp (α : Type) : Type :=
  Program Stop GoogleCtx α

/-- Assign `errno`. -/
def setErrno (errno : Errno) : GoogleOp Unit :=
  modify fun ctx => { ctx with errno := errno }

/-- The allocator as a part of the state. -/
def heapLens : Lens GoogleCtx Heap where
  get ctx := ctx.heap
  set ctx heap := { ctx with heap := heap }

/-- The URI and the allocator as a part of the state. -/
def uriLens : Lens GoogleCtx UriCtx where
  get ctx := { ku := ctx.ku, heap := ctx.heap }
  set ctx part := { ctx with ku := part.ku, heap := part.heap }

/-- The information structure as a part of the state. -/
def kiLens : Lens GoogleCtx KcnInfo where
  get ctx := ctx.ki
  set ctx ki := { ctx with ki := ki }

/-- Run a program that fails for want of memory. -/
def orNoMemory (allocate : GoogleOp Bool) : GoogleOp Bool := do
  if ← allocate then
    pure true
  else
    setErrno IoError.enomem.errno
    pure false

/-- `malloc` -/
def malloc : GoogleOp Bool :=
  orNoMemory (zoom heapLens Heap.malloc)

/-- `KCN_GOOGLE_URI_BASE` -/
def uriBase : List UInt8 :=
  ascii "http://ajax.googleapis.com/ajax/services/search/web?v=1.0"

/-- `KCN_GOOGLE_API_RCOUNTMAX` -/
def apiRcountmax : Nat := 8 + 1

/-- `KCN_HTTP_OK` -/
def httpOk : Int := 200

/-- `KCN_HTTP_FORBIDDEN` -/
def httpForbidden : Int := 403

/-- `jlockey` -/
def jlockey : KcnLocType → List UInt8
  | .domainname => ascii "visibleUrl"
  | .uri => ascii "url"

/-- The results of a response, or the `errno` where there are none. -/
def resultsOf : Reply → Except Errno (List Json)
  | .failed error => .error error
  | .response none => .error Errno.einval
  | .response (some jroot) =>
      match jroot.objectGet (ascii "responseStatus") with
      | some (.integer status) =>
          if status ≠ httpOk then
            if status = httpForbidden then
              .error Errno.eagain
            else
              .error Errno.enetdown
          else
            match jroot.objectGet (ascii "responseData") with
            | none => .error Errno.einval
            | some jresdata =>
                match jresdata.objectGet (ascii "results") with
                | some (.array jres) => .ok jres
                | _ => .error Errno.einval
      | _ => .error Errno.einval

/-- The locator in a result. -/
def jlocstr (loctype : KcnLocType) (jval : Json) :
    Option (List UInt8) :=
  match jval.objectGet (jlockey loctype) with
  | some (.string s) => some s
  | _ => none

/-- `kcn_http_response_get` and `json_loads` -/
def responseGet : GoogleOp Reply := do
  let ctx ← gets id
  modify fun ctx =>
    { ctx with requests := ctx.requests ++ [ctx.ku.uri] }
  pure (ctx.reply ctx.requests.length ctx.ku.uri)

/-- The loop of `kcn_google_search_one` over the results. -/
def addLoop : List Json → GoogleOp Bool
  | [] => pure true
  | jval :: later => do
      let ki ← gets GoogleCtx.ki
      match jlocstr ki.kiLoctype jval with
      | none =>
          setErrno Errno.einval
          pure false
      | some locstr =>
          if ← KcnInfo.locAdd kiLens malloc locstr 0 then
            let ki ← gets GoogleCtx.ki
            if ki.nlocs = ki.kiMaxnlocs then
              pure true
            else
              addLoop later
          else
            pure false

/-- `kcn_google_search_one` -/
def searchOne : GoogleOp Bool := do
  let ki ← gets GoogleCtx.ki
  if ki.nlocs < ki.kiMaxnlocs then
    let reply ← responseGet
    match resultsOf reply with
    | .error error =>
        setErrno error
        pure false
    | .ok jres =>
        if ← addLoop jres then
          let ki ← gets GoogleCtx.ki
          if ki.nlocs = 0 then
            setErrno Errno.esrch
            pure false
          else
            pure true
        else
          pure false
  else
    stop .googleAssertion

/-- What `snprintf` writes for `%zu`. -/
def decimalDigits (n : Nat) : List UInt8 :=
  (Nat.toDigits 10 n).map fun c => UInt8.ofNat c.toNat

/-- `kcn_uri_param_puts` -/
def uriParamPuts
    (param : List UInt8) (val : Option (List UInt8)) : GoogleOp Bool :=
  orNoMemory (zoom uriLens (KcnUri.paramPuts param val))

/-- The page loop of `kcn_google_search`; each round takes a page. -/
def searchLoop (uriolen rcountmax : Nat) (oerrno : Errno) :
    Nat → Nat → GoogleOp Bool
  | 0, _ => stop .starved
  | rounds + 1, n => do
      let ki ← gets GoogleCtx.ki
      if n < ki.kiMaxnlocs then
        let startopt := if 0 < n then some (decimalDigits n) else none
        if ← uriParamPuts (ascii "start") startopt then
          if ← searchOne then
            zoom uriLens (KcnUri.resize uriolen)
            let ki ← gets GoogleCtx.ki
            if ki.nlocs % rcountmax ≠ 0 then
              pure true
            else
              searchLoop uriolen rcountmax oerrno rounds
                ((n + rcountmax) % 2 ^ 64)
          else
            let ctx ← gets id
            if ctx.errno ≠ Errno.esrch ∨ ctx.ki.nlocs = 0 then
              pure false
            else
              setErrno oerrno
              pure true
        else
          pure false
      else
        pure true

/-- The number of results that a page is asked for. -/
def rcountmax (maxnlocs : Nat) : Nat :=
  if maxnlocs < apiRcountmax then maxnlocs else apiRcountmax - 1

/-- Several calls of `kcn_uri_param_puts`, up to one that fails. -/
def paramsPuts : Params → GoogleOp Bool
  | [] => pure true
  | (param, val) :: later => do
      if ← uriParamPuts param val then
        paramsPuts later
      else
        pure false

/-- The parameters of a first request. -/
def firstParams
    (maxnlocs : Nat) (country userip : Option (List UInt8))
    (keys : List UInt8) : Params :=
  [(ascii "rsz", some [0x30 + UInt8.ofNat (rcountmax maxnlocs)]),
    (ascii "gl", country), (ascii "userip", userip),
    (ascii "q", some keys)]

/-- `kcn_google_search`, with the rounds that its loop may take. -/
def search
    (rounds : Nat) (country userip : Option (List UInt8))
    (keys : List UInt8) : GoogleOp Bool := do
  let ctx ← gets id
  let maxnlocs := ctx.ki.kiMaxnlocs
  if 0 < maxnlocs then
    match ← zoom heapLens (KcnUri.new uriBase) with
    | none =>
        setErrno IoError.enomem.errno
        pure false
    | some ku =>
        modify fun ctx => { ctx with ku := ku }
        if ← paramsPuts (firstParams maxnlocs country userip keys) then
          let uriolen ← gets fun ctx => ctx.ku.len
          searchLoop uriolen (rcountmax maxnlocs) ctx.errno rounds 0
        else
          pure false
  else
    stop .googleAssertion

end KcnGoogle

end Kcn
