import Kcn.BufRules
import Kcn.Eq

namespace Kcn

open Program

/-!
# Messages

`kcn_msg`: the three messages, their encoders into an output buffer and the
decoders of the header and of each body.  `kcn_buf_dump` only writes to the
log and is left out.
-/

/-- `KCN_MSG_VERSION` -/
def kcnMsgVersion : UInt8 := 1

/-- `KCN_MSG_HDRSIZ` -/
def kcnMsgHdrsiz : Nat := 1 + 1 + 2

/-- `KCN_MSG_MAXSIZ` -/
def kcnMsgMaxsiz : Nat := 4096

/-- `KCN_MSG_MAXBODYSIZ` -/
def kcnMsgMaxbodysiz : Nat := kcnMsgMaxsiz - kcnMsgHdrsiz

/-- `KCN_MSG_QUERY_SIZ` -/
def kcnMsgQuerySiz : Nat := 1 + 1 + 1 + 1 + 8 + 8 + 8

/-- `KCN_MSG_RESPONSE_MINSIZ` -/
def kcnMsgResponseMinsiz : Nat := 1 + 1

/-- `KCN_MSG_ADD_MINSIZ` -/
def kcnMsgAddMinsiz : Nat := 1 + 8 + 8

/-- `KCN_MSG_MAXLOCSIZ` -/
def kcnMsgMaxlocsiz : Nat :=
  kcnMsgMaxbodysiz - max kcnMsgResponseMinsiz kcnMsgAddMinsiz

/-- `enum kcn_msg_type` -/
inductive KcnMsgType where
  | reserved | query | response | add | del
  deriving Repr, DecidableEq

namespace KcnMsgType

/-- The number of an enumerator. -/
def code : KcnMsgType → UInt8
  | .reserved => 0
  | .query => 1
  | .response => 2
  | .add => 3
  | .del => 4

end KcnMsgType

/-- `enum kcn_loc_type` -/
inductive KcnLocType where
  | domainname | uri
  deriving Repr, DecidableEq

namespace KcnLocType

/-- The number of an enumerator. -/
def code : KcnLocType → UInt8
  | .domainname => 0
  | .uri => 1

/-- The enumerator with a given number. -/
def ofCode? : UInt8 → Option KcnLocType
  | 0 => some .domainname
  | 1 => some .uri
  | _ => none

end KcnLocType

/-- `struct kcn_msg_header`; the type of a received header can be any byte. -/
structure KcnMsgHeader where
  kmhVersion : UInt8
  kmhType : UInt8
  kmhLen : Nat
  deriving Repr, DecidableEq

/-- `struct kcn_msg_query` -/
structure KcnMsgQuery where
  kmqLoctype : KcnLocType
  kmqMaxcount : UInt8
  kmqEq : KcnEq
  deriving Repr, DecidableEq

/--
`struct kcn_msg_response`; `kmrLoc` stands for `kmr_loc`, which may be `NULL`,
and its length.
-/
structure KcnMsgResponse where
  kmrError : UInt8
  kmrScore : UInt8
  kmrLoc : Option (List UInt8)
  deriving Repr, DecidableEq

/-- `kmr_loclen` -/
def KcnMsgResponse.kmrLoclen (kmr : KcnMsgResponse) : Nat :=
  (kmr.kmrLoc.getD []).length

/-- `struct kcn_msg_add`; `kmaLoc` stands for `kma_loc` and its length. -/
structure KcnMsgAdd where
  kmaType : Nat
  kmaTime : UInt64
  kmaVal : UInt64
  kmaLoc : List UInt8
  deriving Repr, DecidableEq

/-! ### Encoders -/

namespace KcnMsg

open KcnBuf

/-- `kcn_msg_pkt_init` -/
def pktInit : BufOp Unit :=
  reset kcnMsgHdrsiz

/-- `kcn_msg_header_encode` -/
def headerEncode (type : KcnMsgType) : BufOp Unit := do
  prepend kcnMsgHdrsiz
  put8 kcnMsgVersion
  put8 type.code
  let length ← gets len
  put16 (UInt16.ofNat (length - kcnMsgHdrsiz))

/-- `kcn_msg_query_encode` -/
def queryEncode (kmq : KcnMsgQuery) : BufOp Unit := do
  pktInit
  put8 kmq.kmqLoctype.code
  put8 kmq.kmqMaxcount
  put8 (UInt8.ofNat kmq.kmqEq.keType)
  put8 (UInt8.ofNat kmq.kmqEq.keOp)
  put64 kmq.kmqEq.keVal
  put64 kmq.kmqEq.keStart.toUInt64
  put64 kmq.kmqEq.keEnd.toUInt64
  headerEncode .query

/-- `kcn_msg_response_encode` -/
def responseEncode (kmr : KcnMsgResponse) : BufOp Unit := do
  pktInit
  put8 kmr.kmrError
  put8 kmr.kmrScore
  match kmr.kmrLoc with
  | some loc => put loc
  | none => pure ()
  headerEncode .response

/-- `kcn_msg_add_encode` -/
def addEncode (kma : KcnMsgAdd) : BufOp Unit := do
  pktInit
  put8 (UInt8.ofNat kma.kmaType)
  put64 kma.kmaTime
  put64 kma.kmaVal
  put kma.kmaLoc
  headerEncode .add

end KcnMsg

/-! ### Decoders -/

/-- What a decoder works on: the input buffer and `errno`. -/
structure MsgCtx where
  kb : KcnBuf
  errno : Errno

namespace MsgCtx

/-- Programs that decode from a buffer. -/
abbrev MsgOp (α : Type) : Type :=
  Program Stop MsgCtx α

/-- The buffer as a part of the state. -/
def kbLens : Lens MsgCtx KcnBuf where
  get ctx := ctx.kb
  set ctx kb := { ctx with kb := kb }

/-- An operation on the buffer. -/
def buf {α : Type} (op : KcnBuf.BufOp α) : MsgOp α :=
  zoom kbLens op

/-- Assign `errno`. -/
def setErrno (errno : Errno) : MsgOp Unit :=
  modify fun ctx => { ctx with errno := errno }

end MsgCtx

namespace KcnMsg

open MsgCtx

/-- `kcn_msg_header_decode` -/
def headerDecode : MsgOp (Option KcnMsgHeader) := do
  if (← gets fun ctx => ctx.kb.trailingdata) < kcnMsgHdrsiz then
    setErrno Errno.eagain
    pure none
  else
    let version ← buf KcnBuf.get8
    let type ← buf KcnBuf.get8
    let length ← buf KcnBuf.get16
    let kmh : KcnMsgHeader := {
      kmhVersion := version
      kmhType := type
      kmhLen := length.toNat
    }
    if kmh.kmhVersion ≠ kcnMsgVersion then
      setErrno Errno.eopnotsupp
      pure none
    else if kmh.kmhLen > kcnMsgMaxbodysiz then
      setErrno Errno.e2big
      pure none
    else if (← gets fun ctx => ctx.kb.trailingdata) < kmh.kmhLen then
      buf KcnBuf.start
      setErrno Errno.eagain
      pure none
    else
      let headingdata ← gets fun ctx => ctx.kb.headingdata
      buf (KcnBuf.trimHead headingdata)
      pure (some kmh)

/-- The assertion on the trailing data that each body decoder makes. -/
def assertTrailingdata (count : Nat) : MsgOp Unit := do
  if (← gets fun ctx => ctx.kb.trailingdata) < count then
    stop .assertion
  else
    pure ()

/-- `kcn_msg_query_decode` -/
def queryDecode (kmh : KcnMsgHeader) : MsgOp (Option KcnMsgQuery) := do
  if kmh.kmhLen ≠ kcnMsgQuerySiz then
    setErrno Errno.einval
    pure none
  else
    assertTrailingdata kcnMsgQuerySiz
    let loctype ← buf KcnBuf.get8
    let maxcount ← buf KcnBuf.get8
    let type ← buf KcnBuf.get8
    let op ← buf KcnBuf.get8
    let val ← buf KcnBuf.get64
    let start ← buf KcnBuf.get64
    let ends ← buf KcnBuf.get64
    let headingdata ← gets fun ctx => ctx.kb.headingdata
    buf (KcnBuf.trimHead headingdata)
    match KcnLocType.ofCode? loctype with
    | some loctype =>
        pure (some {
          kmqLoctype := loctype
          kmqMaxcount := maxcount
          kmqEq := {
            keType := type.toNat
            keOp := op.toNat
            keVal := val
            keStart := start.toInt64
            keEnd := ends.toInt64
          }
        })
    | none => do
        setErrno Errno.einval
        pure none

/-- `kcn_msg_response_decode` -/
def responseDecode (kmh : KcnMsgHeader) :
    MsgOp (Option KcnMsgResponse) := do
  if kmh.kmhLen < kcnMsgResponseMinsiz then
    setErrno Errno.einval
    pure none
  else
    assertTrailingdata kcnMsgResponseMinsiz
    let error ← buf KcnBuf.get8
    let score ← buf KcnBuf.get8
    let loclen := kmh.kmhLen - kcnMsgResponseMinsiz
    let loc ← gets fun ctx =>
      Bytes.slice ctx.kb.bytes ctx.kb.cp loclen
    buf (KcnBuf.forward loclen)
    let headingdata ← gets fun ctx => ctx.kb.headingdata
    buf (KcnBuf.trimHead headingdata)
    pure (some {
      kmrError := error
      kmrScore := score
      kmrLoc := if loclen > 0 then some loc else none
    })

/-- `kcn_msg_add_decode` -/
def addDecode (kmh : KcnMsgHeader) : MsgOp (Option KcnMsgAdd) := do
  if kmh.kmhLen < kcnMsgAddMinsiz then
    setErrno Errno.einval
    pure none
  else
    assertTrailingdata kcnMsgAddMinsiz
    let type ← buf KcnBuf.get8
    let time ← buf KcnBuf.get64
    let val ← buf KcnBuf.get64
    let loc ← gets fun ctx =>
      Bytes.slice ctx.kb.bytes ctx.kb.cp
        (kmh.kmhLen - kcnMsgAddMinsiz)
    buf (KcnBuf.trimHead kmh.kmhLen)
    pure (some {
      kmaType := type.toNat
      kmaTime := time
      kmaVal := val
      kmaLoc := loc
    })

end KcnMsg

end Kcn
