import Kcn.Msg

namespace Kcn

open Program Bytes KcnBuf

/-!
# The message codecs

A frame is a header and a body.  Each encoder leaves the frame of its message
in the buffer, the header decoder takes a header off the data, and each body
decoder takes a body off it.
-/

/-- The number that a header carries for the length of a body. -/
def lengthBytes (body : List UInt8) : List UInt8 :=
  bytes16 (UInt16.ofNat body.length)

/-- The bytes in front of a body. -/
def headerBytes (type : KcnMsgType) (body : List UInt8) : List UInt8 :=
  kcnMsgVersion :: type.code :: lengthBytes body

/-- The frame of a body. -/
def frame (type : KcnMsgType) (body : List UInt8) : List UInt8 :=
  headerBytes type body ++ body

@[simp] theorem length_headerBytes
    (type : KcnMsgType) (body : List UInt8) :
    (headerBytes type body).length = kcnMsgHdrsiz :=
  rfl

@[simp] theorem length_frame (type : KcnMsgType) (body : List UInt8) :
    (frame type body).length = kcnMsgHdrsiz + body.length := by
  simp [frame]

/-- The body of a query. -/
def queryBody (kmq : KcnMsgQuery) : List UInt8 :=
  [kmq.kmqLoctype.code, kmq.kmqMaxcount,
      UInt8.ofNat kmq.kmqEq.keType, UInt8.ofNat kmq.kmqEq.keOp] ++
    bytes64 kmq.kmqEq.keVal ++ bytes64 kmq.kmqEq.keStart.toUInt64 ++
    bytes64 kmq.kmqEq.keEnd.toUInt64

/-- The body of a response. -/
def responseBody (kmr : KcnMsgResponse) : List UInt8 :=
  [kmr.kmrError, kmr.kmrScore] ++ kmr.kmrLoc.getD []

/-- The body of an add message. -/
def addBody (kma : KcnMsgAdd) : List UInt8 :=
  UInt8.ofNat kma.kmaType :: bytes64 kma.kmaTime ++
    bytes64 kma.kmaVal ++ kma.kmaLoc

@[simp] theorem length_queryBody (kmq : KcnMsgQuery) :
    (queryBody kmq).length = kcnMsgQuerySiz :=
  rfl

@[simp] theorem length_responseBody (kmr : KcnMsgResponse) :
    (responseBody kmr).length =
      kcnMsgResponseMinsiz + kmr.kmrLoclen := by
  simp [responseBody, kcnMsgResponseMinsiz, KcnMsgResponse.kmrLoclen]
  omega

@[simp] theorem length_addBody (kma : KcnMsgAdd) :
    (addBody kma).length = kcnMsgAddMinsiz + kma.kmaLoc.length := by
  simp [addBody, kcnMsgAddMinsiz]
  omega

/-! ### Encoders -/

namespace KcnMsg

variable {halt : Stop → Prop} {kb : KcnBuf}

/-- `kcn_msg_header_encode` behind a body that starts where it should. -/
theorem wp_headerEncode
    {post : Unit → KcnBuf → Prop}
    {size : Nat} {body : List UInt8}
    (holds : kb.Holds size kcnMsgHdrsiz body [])
    (type : KcnMsgType)
    (next : ∀ kb',
      kb'.Holds size 0 (headerBytes type body) body → post () kb') :
    wp (headerEncode type) post halt kb := by
  have room := holds.le_size
  have header : kcnMsgHdrsiz = 1 + (1 + 2) := rfl
  unfold headerEncode put8 put16
  simp only [wp_bind, wp_gets]
  refine wp_prepend holds (Nat.le_refl _) ?_
  intro gap kb₁ gapLength holds₁
  rw [Nat.sub_self, List.append_nil] at holds₁
  obtain ⟨a, b, c, d, rfl⟩ := List.length_eq_four.mp gapLength
  refine wp_store holds₁ ?_ fun full => absurd full (by simp; omega)
  intro _ kb₂ holds₂
  refine wp_store holds₂ ?_ fun full => absurd full (by simp; omega)
  intro _ kb₃ holds₃
  have length : kb₃.len - kcnMsgHdrsiz = body.length := by
    rw [holds₃.len_eq]
    simp [kcnMsgHdrsiz]
    omega
  rw [length]
  refine wp_store holds₃ ?_ fun full => absurd full (by simp; omega)
  intro _ kb₄ holds₄
  exact next kb₄ holds₄

/-- A message fits into a buffer with its header. -/
def Fits (body : List UInt8) (kb : KcnBuf) : Prop :=
  kcnMsgHdrsiz + body.length ≤ kb.size

/-- `kcn_msg_pkt_init` -/
theorem wp_pktInit
    {post : Unit → KcnBuf → Prop} {body : List UInt8}
    (fits : Fits body kb)
    (next : ∀ kb', kb'.Holds kb.size kcnMsgHdrsiz [] [] →
      post () kb') :
    wp pktInit post halt kb :=
  wp_reset (holds_self kb) (Nat.le_of_add_right_le fits) next

/-- Store a part of a body that fits. -/
theorem wp_storeBody
    {post : Unit → KcnBuf → Prop}
    {size sp : Nat} {stored new : List UInt8}
    (holds : kb.Holds size sp stored [])
    (fits : sp + (stored ++ new).length ≤ size)
    (next : ∀ kb', kb'.Holds size sp (stored ++ new) [] →
      post () kb') :
    wp (store new) post halt kb := by
  rw [List.length_append, ← Nat.add_assoc] at fits
  refine wp_store holds ?_ fun full =>
    absurd fits (Nat.not_le_of_lt full)
  intro _ kb' holds'
  rw [List.drop_nil] at holds'
  exact next kb' holds'

/-- What an encoder leaves in the buffer. -/
def Encodes
    (encode : BufOp Unit) (type : KcnMsgType) (body : List UInt8) :
    Prop :=
  ∀ kb : KcnBuf, Fits body kb →
    ∃ kb', encode kb = .ok ((), kb') ∧
      kb'.Holds kb.size 0 (headerBytes type body) body

/-- `kcn_msg_query_encode` -/
theorem queryEncode_encodes (kmq : KcnMsgQuery) :
    Encodes (queryEncode kmq) .query (queryBody kmq) := by
  intro kb fits
  have room : kcnMsgHdrsiz + 28 ≤ kb.size := fits
  have done :
      wp (queryEncode kmq)
        (fun _ kb' =>
          kb'.Holds kb.size 0 (headerBytes .query (queryBody kmq))
            (queryBody kmq))
        (fun _ => False) kb := by
    unfold queryEncode put8 put64
    simp only [wp_bind]
    refine wp_pktInit fits fun _ holds₀ => ?_
    refine wp_storeBody holds₀ (by simp; omega) fun _ holds₁ => ?_
    refine wp_storeBody holds₁ (by simp; omega) fun _ holds₂ => ?_
    refine wp_storeBody holds₂ (by simp; omega) fun _ holds₃ => ?_
    refine wp_storeBody holds₃ (by simp; omega) fun _ holds₄ => ?_
    refine wp_storeBody holds₄ (by simp; omega) fun _ holds₅ => ?_
    refine wp_storeBody holds₅ (by simp; omega) fun _ holds₆ => ?_
    refine wp_storeBody holds₆ (by simp; omega) fun _ holds₇ => ?_
    exact wp_headerEncode holds₇ .query fun _ => id
  obtain ⟨⟨⟩, kb', runs, holds⟩ := wp_returns done
  exact ⟨kb', runs, holds⟩

/-- `kcn_msg_response_encode` -/
theorem responseEncode_encodes (kmr : KcnMsgResponse) :
    Encodes (responseEncode kmr) .response (responseBody kmr) := by
  intro kb fits
  have room : kcnMsgHdrsiz + (responseBody kmr).length ≤ kb.size :=
    fits
  rw [length_responseBody] at room
  unfold KcnMsgResponse.kmrLoclen kcnMsgResponseMinsiz at room
  have done :
      wp (responseEncode kmr)
        (fun _ kb' =>
          kb'.Holds kb.size 0
            (headerBytes .response (responseBody kmr))
            (responseBody kmr))
        (fun _ => False) kb := by
    unfold responseEncode put8 put
    simp only [wp_bind]
    refine wp_pktInit fits fun _ holds₀ => ?_
    refine wp_storeBody holds₀ (by simp; omega) fun _ holds₁ => ?_
    refine wp_storeBody holds₁ (by simp; omega) fun _ holds₂ => ?_
    unfold responseBody
    cases shape : kmr.kmrLoc with
    | some loc =>
        rw [shape, Option.getD_some] at room
        simp only [wp_bind]
        refine wp_storeBody holds₂ (by simp; omega) fun _ holds₃ => ?_
        exact wp_headerEncode holds₃ .response fun _ => id
    | none =>
        exact wp_headerEncode holds₂ .response fun _ => id
  obtain ⟨⟨⟩, kb', runs, holds⟩ := wp_returns done
  exact ⟨kb', runs, holds⟩

/-- `kcn_msg_add_encode` -/
theorem addEncode_encodes (kma : KcnMsgAdd) :
    Encodes (addEncode kma) .add (addBody kma) := by
  intro kb fits
  have room : kcnMsgHdrsiz + (addBody kma).length ≤ kb.size := fits
  rw [length_addBody] at room
  unfold kcnMsgAddMinsiz at room
  have done :
      wp (addEncode kma)
        (fun _ kb' =>
          kb'.Holds kb.size 0 (headerBytes .add (addBody kma))
            (addBody kma))
        (fun _ => False) kb := by
    unfold addEncode put8 put64 put
    simp only [wp_bind]
    refine wp_pktInit fits fun _ holds₀ => ?_
    refine wp_storeBody holds₀ (by simp; omega) fun _ holds₁ => ?_
    refine wp_storeBody holds₁ (by simp; omega) fun _ holds₂ => ?_
    refine wp_storeBody holds₂ (by simp; omega) fun _ holds₃ => ?_
    refine wp_storeBody holds₃ (by simp; omega) fun _ holds₄ => ?_
    exact wp_headerEncode holds₄ .add fun _ => id
  obtain ⟨⟨⟩, kb', runs, holds⟩ := wp_returns done
  exact ⟨kb', runs, holds⟩

end KcnMsg

/-! ### Decoders -/

/-- The header in the first bytes of the data. -/
def headerOf (bytes : List UInt8) : KcnMsgHeader where
  kmhVersion := octet bytes 0
  kmhType := octet bytes 1
  kmhLen := (word16 (slice bytes 2 2)).toNat

/-- What a header decoder can make of its data. -/
inductive HeaderVerdict where
  | wait
  | refuse (errno : Errno)
  | accept (kmh : KcnMsgHeader)
  deriving Repr, DecidableEq

/-- What `kcn_msg_header_decode` makes of the data. -/
def headerVerdict (bytes : List UInt8) : HeaderVerdict :=
  if bytes.length < kcnMsgHdrsiz then
    .wait
  else if (headerOf bytes).kmhVersion ≠ kcnMsgVersion then
    .refuse Errno.eopnotsupp
  else if (headerOf bytes).kmhLen > kcnMsgMaxbodysiz then
    .refuse Errno.e2big
  else if bytes.length < kcnMsgHdrsiz + (headerOf bytes).kmhLen then
    .wait
  else
    .accept (headerOf bytes)

/-- The query in the first bytes of a body, but for the locator type. -/
def queryWith (bytes : List UInt8) (loctype : KcnLocType) :
    KcnMsgQuery where
  kmqLoctype := loctype
  kmqMaxcount := octet bytes 1
  kmqEq := {
    keType := (octet bytes 2).toNat
    keOp := (octet bytes 3).toNat
    keVal := word64 (slice bytes 4 8)
    keStart := (word64 (slice bytes 12 8)).toInt64
    keEnd := (word64 (slice bytes 20 8)).toInt64
  }

/-- The query in the first bytes of a body, unless its locator type is unknown. -/
def queryOf (bytes : List UInt8) : Option KcnMsgQuery :=
  (KcnLocType.ofCode? (octet bytes 0)).map (queryWith bytes)

/-- The response in a body of a given length. -/
def responseOf (length : Nat) (bytes : List UInt8) :
    KcnMsgResponse where
  kmrError := octet bytes 0
  kmrScore := octet bytes 1
  kmrLoc :=
    if length - kcnMsgResponseMinsiz > 0 then
      some (slice bytes 2 (length - kcnMsgResponseMinsiz))
    else
      none

/-- The add message in a body of a given length. -/
def addOf (length : Nat) (bytes : List UInt8) : KcnMsgAdd where
  kmaType := (octet bytes 0).toNat
  kmaTime := word64 (slice bytes 1 8)
  kmaVal := word64 (slice bytes 9 8)
  kmaLoc := slice bytes 17 (length - kcnMsgAddMinsiz)

namespace KcnBuf

variable
  {halt : Stop → Prop} {kb : KcnBuf}
  {size sp : Nat} {bytes : List UInt8}

/-- The octets of a slice are those of the string. -/
theorem octet_slice (bytes : List UInt8) (start : Nat) :
    octet (slice bytes start 1) 0 = octet bytes start := by
  simp [octet, List.getD_eq_getElem?_getD, getElem?_slice]

/-- Fetch the next bytes of a string that is read from its head. -/
theorem wp_fetch_next
    {post : List UInt8 → KcnBuf → Prop} {used count : Nat}
    (holds : kb.Holds size sp (bytes.take used) (bytes.drop used))
    (inside : used + count ≤ bytes.length)
    (next : ∀ kb',
      kb'.Holds size sp (bytes.take (used + count))
        (bytes.drop (used + count)) →
      post (slice bytes used count) kb') :
    wp (fetch count) post halt kb := by
  refine wp_fetch holds ?_ fun few =>
    absurd few (by simp; omega)
  intro _ kb' holds'
  rw [← List.take_add, List.drop_drop] at holds'
  exact next kb' holds'

/-- Drop what was fetched. -/
theorem wp_trim_used
    {post : Unit → KcnBuf → Prop} {used : Nat}
    (holds : kb.Holds size sp (bytes.take used) (bytes.drop used))
    (inside : used ≤ bytes.length)
    (next : ∀ kb', kb'.Holds size (sp + used) [] (bytes.drop used) →
      post () kb') :
    wp (trimHead kb.headingdata) post halt kb := by
  have usedEq : (bytes.take used).length = used := by
    rw [List.length_take, Nat.min_eq_left inside]
  rw [holds.headingdata_eq]
  refine wp_trimHead_headingdata holds fun kb' holds' => ?_
  rw [usedEq] at holds'
  exact next kb' holds'

end KcnBuf

namespace KcnMsg

open MsgCtx

variable
  {halt : Stop → Prop} {ctx : MsgCtx}
  {size sp : Nat} {bytes : List UInt8}

/-- `kcn_msg_header_decode` -/
theorem wp_headerDecode
    {post : Option KcnMsgHeader → MsgCtx → Prop}
    (holds : ctx.kb.Holds size sp [] bytes)
    (wait : headerVerdict bytes = .wait →
      ∀ kb, kb.Holds size sp [] bytes →
      post none { kb := kb, errno := Errno.eagain })
    (refuse : ∀ errno, headerVerdict bytes = .refuse errno →
      ∀ kb, kb.size = size →
      post none { kb := kb, errno := errno })
    (accept : ∀ kmh, headerVerdict bytes = .accept kmh →
      ∀ kb,
      kb.Holds size (sp + kcnMsgHdrsiz) [] (bytes.drop kcnMsgHdrsiz) →
      post (some kmh) { kb := kb, errno := ctx.errno }) :
    wp headerDecode post halt ctx := by
  unfold headerDecode
  simp only [wp_bind, wp_gets, holds.trailingdata_eq]
  split
  · rename_i short
    exact wait (if_pos short) ctx.kb holds
  · rename_i long
    have enough : 4 ≤ bytes.length := Nat.le_of_not_lt long
    have versionEq : (headerOf bytes).kmhVersion = octet bytes 0 := rfl
    have lengthEq :
        (headerOf bytes).kmhLen = (word16 (slice bytes 2 2)).toNat :=
      rfl
    have verdict : headerVerdict bytes = _ := if_neg long
    rw [versionEq, lengthEq] at verdict
    simp only [buf, get8, get16, wp_bind, wp_zoom, wp_pure]
    have holds₀ :
        ctx.kb.Holds size sp (bytes.take 0) (bytes.drop 0) := by
      simpa using holds
    refine wp_fetch_next holds₀ (by omega) fun kb₁ holds₁ => ?_
    refine wp_fetch_next holds₁ (by omega) fun kb₂ holds₂ => ?_
    refine wp_fetch_next holds₂ (by omega) fun kb₃ holds₃ => ?_
    simp only [Nat.zero_add, Nat.reduceAdd, octet_slice] at holds₃ ⊢
    have header :
        ({ kmhVersion := octet bytes 0
           kmhType := octet bytes 1
           kmhLen := (word16 (slice bytes 2 2)).toNat } :
          KcnMsgHeader) = headerOf bytes :=
      rfl
    have left : kb₃.trailingdata = bytes.length - 4 := by
      rw [holds₃.trailingdata_eq, List.length_drop]
    have sizeEq : kb₃.size = size := holds₃.size_eq
    rw [header]
    split
    · rename_i foreign
      rw [if_pos foreign] at verdict
      exact refuse _ verdict kb₃ sizeEq
    · rename_i known
      rw [if_neg known] at verdict
      split
      · rename_i tooLong
        rw [if_pos tooLong] at verdict
        exact refuse _ verdict kb₃ sizeEq
      · rename_i fits
        rw [if_neg fits] at verdict
        simp only [wp_bind, wp_gets, kbLens, left]
        split
        · rename_i few
          rw [if_pos (by unfold kcnMsgHdrsiz; omega)] at verdict
          simp only [wp_bind, wp_zoom]
          refine wp_start holds₃ fun kb₄ holds₄ => ?_
          rw [List.take_append_drop] at holds₄
          exact wait verdict kb₄ holds₄
        · rename_i whole
          rw [if_neg (by unfold kcnMsgHdrsiz; omega)] at verdict
          simp only [wp_bind, wp_gets, wp_zoom]
          refine wp_trim_used holds₃ enough fun kb₄ holds₄ => ?_
          exact accept _ verdict kb₄ holds₄

/-- The assertion of a body decoder holds when the data is there. -/
theorem wp_assertTrailingdata
    {post : Unit → MsgCtx → Prop} {count : Nat}
    (holds : ctx.kb.Holds size sp [] bytes)
    (enough : count ≤ bytes.length)
    (next : post () ctx) :
    wp (assertTrailingdata count) post halt ctx := by
  unfold assertTrailingdata
  simp only [wp_bind, wp_gets, holds.trailingdata_eq]
  rw [if_neg (Nat.not_lt.mpr enough)]
  exact next

/-- `kcn_msg_query_decode` -/
theorem wp_queryDecode
    {post : Option KcnMsgQuery → MsgCtx → Prop}
    {kmh : KcnMsgHeader}
    (holds : ctx.kb.Holds size sp [] bytes)
    (inside : kmh.kmhLen ≤ bytes.length)
    (badLength : kmh.kmhLen ≠ kcnMsgQuerySiz →
      post none { ctx with errno := Errno.einval })
    (unknown : kmh.kmhLen = kcnMsgQuerySiz →
      queryOf bytes = none →
      ∀ kb, kb.Holds size (sp + kmh.kmhLen) [] (bytes.drop kmh.kmhLen) →
      post none { kb := kb, errno := Errno.einval })
    (decoded : ∀ kmq, kmh.kmhLen = kcnMsgQuerySiz →
      queryOf bytes = some kmq →
      ∀ kb, kb.Holds size (sp + kmh.kmhLen) [] (bytes.drop kmh.kmhLen) →
      post (some kmq) { kb := kb, errno := ctx.errno }) :
    wp (queryDecode kmh) post halt ctx := by
  unfold queryDecode
  split
  · rename_i other
    exact badLength other
  · rename_i same
    have lenEq : kmh.kmhLen = kcnMsgQuerySiz := not_not.mp same
    have enough : kcnMsgQuerySiz ≤ bytes.length := lenEq ▸ inside
    unfold kcnMsgQuerySiz at enough
    rw [wp_bind]
    refine wp_assertTrailingdata holds enough ?_
    simp only [buf, get8, get64, wp_bind, wp_zoom, wp_pure, wp_gets]
    have holds₀ :
        ctx.kb.Holds size sp (bytes.take 0) (bytes.drop 0) := by
      simpa using holds
    refine wp_fetch_next holds₀ (by omega) fun kb₁ holds₁ => ?_
    refine wp_fetch_next holds₁ (by omega) fun kb₂ holds₂ => ?_
    refine wp_fetch_next holds₂ (by omega) fun kb₃ holds₃ => ?_
    refine wp_fetch_next holds₃ (by omega) fun kb₄ holds₄ => ?_
    refine wp_fetch_next holds₄ (by omega) fun kb₅ holds₅ => ?_
    refine wp_fetch_next holds₅ (by omega) fun kb₆ holds₆ => ?_
    refine wp_fetch_next holds₆ (by omega) fun kb₇ holds₇ => ?_
    simp only [Nat.zero_add, Nat.reduceAdd, octet_slice] at holds₇ ⊢
    refine wp_trim_used holds₇ enough fun kb₈ holds₈ => ?_
    have rest :
        kb₈.Holds size (sp + kmh.kmhLen) [] (bytes.drop kmh.kmhLen) := by
      rw [lenEq]
      exact holds₈
    cases known : KcnLocType.ofCode? (octet bytes 0) with
    | some loctype =>
        have found : queryOf bytes = some (queryWith bytes loctype) := by
          rw [queryOf, known]
          rfl
        exact decoded _ lenEq found kb₈ rest
    | none =>
        have missing : queryOf bytes = none := by
          rw [queryOf, known]
          rfl
        exact unknown lenEq missing kb₈ rest

/-- `kcn_msg_response_decode` -/
theorem wp_responseDecode
    {post : Option KcnMsgResponse → MsgCtx → Prop}
    {kmh : KcnMsgHeader}
    (holds : ctx.kb.Holds size sp [] bytes)
    (inside : kmh.kmhLen ≤ bytes.length)
    (badLength : kmh.kmhLen < kcnMsgResponseMinsiz →
      post none { ctx with errno := Errno.einval })
    (decoded : kcnMsgResponseMinsiz ≤ kmh.kmhLen →
      ∀ kb, kb.Holds size (sp + kmh.kmhLen) [] (bytes.drop kmh.kmhLen) →
      post (some (responseOf kmh.kmhLen bytes))
        { kb := kb, errno := ctx.errno }) :
    wp (responseDecode kmh) post halt ctx := by
  unfold responseDecode
  split
  · rename_i short
    exact badLength short
  · rename_i long
    have minimum : 2 ≤ kmh.kmhLen := Nat.le_of_not_lt long
    have enough : 2 ≤ bytes.length := Nat.le_trans minimum inside
    rw [wp_bind]
    refine wp_assertTrailingdata holds enough ?_
    simp only [buf, get8, wp_bind, wp_zoom, wp_pure, wp_gets, kbLens]
    have holds₀ :
        ctx.kb.Holds size sp (bytes.take 0) (bytes.drop 0) := by
      simpa using holds
    refine wp_fetch_next holds₀ (by omega) fun kb₁ holds₁ => ?_
    refine wp_fetch_next holds₁ (by omega) fun kb₂ holds₂ => ?_
    simp only [Nat.zero_add, Nat.reduceAdd, octet_slice] at holds₂ ⊢
    have locEq :
        slice kb₂.bytes kb₂.cp (kmh.kmhLen - kcnMsgResponseMinsiz) =
          slice bytes 2 (kmh.kmhLen - kcnMsgResponseMinsiz) :=
      holds₂.slice_after (by
        rw [List.length_drop]
        exact Nat.sub_le_sub_right inside 2)
    rw [locEq]
    have loclen : 2 + (kmh.kmhLen - kcnMsgResponseMinsiz) = kmh.kmhLen :=
      Nat.add_sub_cancel' minimum
    refine wp_forward holds₂ ?_ fun few =>
      absurd few (by
        rw [List.length_drop]
        exact Nat.not_lt.mpr (Nat.sub_le_sub_right inside 2))
    intro _ kb₃ holds₃
    rw [← List.take_add, List.drop_drop, loclen] at holds₃
    refine wp_trim_used holds₃ inside fun kb₄ holds₄ => ?_
    exact decoded minimum kb₄ holds₄

/-- `kcn_msg_add_decode` -/
theorem wp_addDecode
    {post : Option KcnMsgAdd → MsgCtx → Prop}
    {kmh : KcnMsgHeader}
    (holds : ctx.kb.Holds size sp [] bytes)
    (inside : kmh.kmhLen ≤ bytes.length)
    (badLength : kmh.kmhLen < kcnMsgAddMinsiz →
      post none { ctx with errno := Errno.einval })
    (decoded : kcnMsgAddMinsiz ≤ kmh.kmhLen →
      ∀ kb, kb.Holds size (sp + kmh.kmhLen) [] (bytes.drop kmh.kmhLen) →
      post (some (addOf kmh.kmhLen bytes))
        { kb := kb, errno := ctx.errno }) :
    wp (addDecode kmh) post halt ctx := by
  unfold addDecode
  split
  · rename_i short
    exact badLength short
  · rename_i long
    have minimum : 17 ≤ kmh.kmhLen := Nat.le_of_not_lt long
    have enough : 17 ≤ bytes.length := Nat.le_trans minimum inside
    rw [wp_bind]
    refine wp_assertTrailingdata holds enough ?_
    simp only [buf, get8, get64, wp_bind, wp_zoom, wp_pure, wp_gets,
      kbLens]
    have holds₀ :
        ctx.kb.Holds size sp (bytes.take 0) (bytes.drop 0) := by
      simpa using holds
    refine wp_fetch_next holds₀ (by omega) fun kb₁ holds₁ => ?_
    refine wp_fetch_next holds₁ (by omega) fun kb₂ holds₂ => ?_
    refine wp_fetch_next holds₂ (by omega) fun kb₃ holds₃ => ?_
    simp only [Nat.zero_add, Nat.reduceAdd, octet_slice] at holds₃ ⊢
    have locEq :
        slice kb₃.bytes kb₃.cp (kmh.kmhLen - kcnMsgAddMinsiz) =
          slice bytes 17 (kmh.kmhLen - kcnMsgAddMinsiz) :=
      holds₃.slice_after (by
        rw [List.length_drop]
        exact Nat.sub_le_sub_right inside 17)
    rw [locEq]
    have whole :
        (bytes.take 17).length + (kmh.kmhLen - 17) = kmh.kmhLen := by
      rw [List.length_take, Nat.min_eq_left enough]
      exact Nat.add_sub_cancel' minimum
    have tail :
        kmh.kmhLen - 17 ≤ (bytes.drop 17).length := by
      rw [List.length_drop]
      exact Nat.sub_le_sub_right inside 17
    rw [← whole]
    refine wp_trimHead_beyond holds₃ tail fun kb₄ holds₄ => ?_
    rw [Nat.add_assoc, whole, List.drop_drop,
      Nat.add_sub_cancel' minimum] at holds₄
    rw [whole]
    exact decoded minimum kb₄ holds₄

end KcnMsg

end Kcn
