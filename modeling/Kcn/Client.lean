import Kcn.Db
import Kcn.Session

namespace Kcn

open Program

/-!
# The client and the responses of the server

`kcn_client` and what it uses of `kcn_info`, and the sending of the responses
it reads.  The name of the database, the country and the address in an
information structure are not read here and left out.
-/

/-- `struct kcn_loc`; `klUri` is the string with its terminating NUL. -/
structure KcnLoc where
  klUri : List UInt8
  klScore : Nat
  deriving Repr, DecidableEq

/-- `struct kcn_info`; `ki_nlocs` is the length of `kiLocs`. -/
structure KcnInfo where
  kiLoctype : KcnLocType
  kiMaxnlocs : Nat
  kiLocs : List KcnLoc
  nlocs_le : kiLocs.length ≤ kiMaxnlocs

namespace KcnInfo

/-- `kcn_info_new`, where the allocation succeeds. -/
def new (loctype : KcnLocType) (maxnlocs : Nat) : KcnInfo where
  kiLoctype := loctype
  kiMaxnlocs := maxnlocs
  kiLocs := []
  nlocs_le := Nat.zero_le _

/-- `kcn_info_nlocs` -/
def nlocs (ki : KcnInfo) : Nat :=
  ki.kiLocs.length

/-- The strings that `kcn_info_loc` gives, each up to its first NUL. -/
def locs (ki : KcnInfo) : List (List UInt8) :=
  ki.kiLocs.map fun kl => kl.klUri.takeWhile (· ≠ 0)

/-- Store a locator where there is room. -/
def push (ki : KcnInfo) (kl : KcnLoc) (room : ki.nlocs < ki.kiMaxnlocs) :
    KcnInfo where
  kiLoctype := ki.kiLoctype
  kiMaxnlocs := ki.kiMaxnlocs
  kiLocs := ki.kiLocs ++ [kl]
  nlocs_le := by
    rw [List.length_append, List.length_singleton]
    exact room

/-- `kcn_info_loc_add` -/
def locAdd
    {σ : Type} (info : Lens σ KcnInfo) (malloc : Program Stop σ Bool)
    (locstr : List UInt8) (score : Nat) : Program Stop σ Bool := do
  let ki ← gets info.get
  if room : ki.nlocs < ki.kiMaxnlocs then
    if ← malloc then
      modify fun s =>
        info.set s
          (ki.push { klUri := locstr ++ [0], klScore := score } room)
      pure true
    else
      pure false
  else
    stop .infoAssertion

end KcnInfo

/-- `struct kcn_client_response` -/
structure KcnClientResponse where
  kcrError : Errno
  kcrKi : KcnInfo

namespace NetCtx

/-- The input buffer and `errno` as a part of the state. -/
def msgLens {δ : Type} : Lens (NetCtx δ) MsgCtx where
  get ctx := { kb := ctx.kn.knIbuf, errno := ctx.io.env.errno }
  set ctx part := {
    ctx with
    kn := { ctx.kn with knIbuf := part.kb }
    io := { ctx.io with env := { ctx.io.env with errno := part.errno } }
  }

/-- The information structure as a part of the state. -/
def kiLens : Lens (NetCtx KcnClientResponse) KcnInfo where
  get ctx := ctx.data.kcrKi
  set ctx ki := { ctx with data := { ctx.data with kcrKi := ki } }

/-- Encoding a message that fits leaves its frame in the output buffer. -/
theorem wp_encode
    {δ : Type} {ctx : NetCtx δ} {halt : Stop → Prop}
    {post : Unit → NetCtx δ → Prop}
    {encode : KcnBuf.BufOp Unit} {type : KcnMsgType}
    {body : List UInt8}
    (encodes : KcnMsg.Encodes encode type body)
    (output : ctx.kn.knObufdata.kbdSize = kcnMsgMaxsiz)
    (fits : body.length ≤ kcnMsgMaxbodysiz)
    (next : ∀ kb : KcnBuf,
      kb.size = kcnMsgMaxsiz →
      (KcnBufData.ofBuf kb).init.data = frame type body →
      post () (obufLens.set ctx kb)) :
    wp (zoom obufLens encode) post halt ctx := by
  have size : ctx.kn.knObufdata.init.size = kcnMsgMaxsiz := output
  have room : KcnMsg.Fits body ctx.kn.knObufdata.init := by
    unfold KcnMsg.Fits
    unfold kcnMsgMaxbodysiz at fits
    rw [size]
    unfold kcnMsgMaxsiz kcnMsgHdrsiz at *
    omega
  obtain ⟨kb, runs, holds⟩ := encodes ctx.kn.knObufdata.init room
  rw [wp_zoom, wp]
  simp only [obufLens, runs]
  exact next kb (holds.size_eq.trans size) holds.data_eq

end NetCtx

namespace KcnClient

open NetCtx

/-- Programs that work on the connection of a client. -/
abbrev ClientOp (α : Type) : Type :=
  NetOp KcnClientResponse α

/-- Assign `errno`. -/
def setErrno (errno : Errno) : ClientOp Unit :=
  sys (NetIo.setErrno errno)

/-- What `kcn_client_read` does with a response; whether it goes on. -/
def store (kmr : KcnMsgResponse) : ClientOp Bool := do
  if kmr.kmrLoclen = 0 then
    if kmr.kmrError.toNat ≠ Errno.eagain then
      setErrno kmr.kmrError.toNat
      pure false
    else
      pure false
  else
    let ki ← gets fun ctx => ctx.data.kcrKi
    if ki.kiMaxnlocs = ki.nlocs then
      setErrno Errno.etoomanyrefs
      pure false
    else
      KcnInfo.locAdd kiLens (sys NetIo.malloc) (kmr.kmrLoc.getD [])
        kmr.kmrScore.toNat

/-- The loop of `kcn_client_read`; each round takes a message. -/
def readLoop : Nat → ClientOp Unit
  | 0 => stop .starved
  | rounds + 1 => do
      match ← zoom msgLens KcnMsg.headerDecode with
      | none => pure ()
      | some kmh =>
          if kmh.kmhType ≠ KcnMsgType.response.code then
            setErrno Errno.einval
          else
            match ← zoom msgLens (KcnMsg.responseDecode kmh) with
            | none => pure ()
            | some kmr =>
                if ← store kmr then
                  readLoop rounds
                else
                  pure ()

/-- `kcn_client_read` -/
def read : ClientOp Errno := do
  let rounds ← gets fun ctx => ctx.kn.knIbuf.trailingdata + 1
  readLoop rounds
  let errno ← gets fun ctx => ctx.io.env.errno
  modify fun ctx => {
    ctx with
    data := { ctx.data with kcrError := errno }
  }
  pure errno

/-- `kcn_client_query_send` -/
def querySend (kmq : KcnMsgQuery) : ClientOp Bool := do
  zoom obufLens (KcnMsg.queryEncode kmq)
  if ← KcnNet.write then
    KcnNet.readEnable
  else
    pure false

/--
`kcn_client_search` from the new connection on, with the events that are
delivered.
-/
def search (deliveries : List NetStep) (kmq : KcnMsgQuery) :
    ClientOp Bool := do
  if ← querySend kmq then
    KcnNet.loop read deliveries
    let error ← gets fun ctx => ctx.data.kcrError
    if error ≠ 0 then
      setErrno error
      KcnNet.destroy
      pure false
    else
      KcnNet.destroy
      pure true
  else
    KcnNet.destroy
    pure false

end KcnClient

namespace KcndbServer

open NetCtx

variable {δ : Type}

/--
`kcndb_server_response_send`, with the magic record in the place of `none`.
-/
def responseSend (kdr : Option KcndbDbRecord) (score : Nat) :
    NetOp δ Bool := do
  let kmr : KcnMsgResponse :=
    match kdr with
    | some kdr => {
        kmrError := 0
        kmrScore := UInt8.ofNat score
        kmrLoc := some kdr.kdrLoc
      }
    | none => {
        kmrError := UInt8.ofNat score
        kmrScore := 0
        kmrLoc := none
      }
  zoom obufLens (KcnMsg.responseEncode kmr)
  KcnNet.write

end KcndbServer

end Kcn
