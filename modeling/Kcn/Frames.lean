import Kcn.Codec

namespace Kcn

open Program Bytes KcnBuf

/-!
# Frames

Stored messages are read back, messages that were read are stored as they came,
and so the encoders and the decoders are inverse to each other.
-/

/-- An octet inside the string is a slice of it. -/
theorem singleton_octet
    {bytes : List UInt8} {index : Nat} (inside : index < bytes.length) :
    [octet bytes index] = slice bytes index 1 := by
  rw [slice, List.drop_eq_getElem_cons inside, List.take_succ_cons,
    List.take_zero, octet, List.getD_eq_getElem?_getD,
    List.getElem?_eq_getElem inside, Option.getD_some]

/-- The length in a header is that of the body if it fits into a frame. -/
theorem word16_lengthBytes
    {body : List UInt8} (fits : body.length ≤ kcnMsgMaxbodysiz) :
    (word16 (lengthBytes body)).toNat = body.length := by
  unfold kcnMsgMaxbodysiz kcnMsgMaxsiz kcnMsgHdrsiz at fits
  rw [lengthBytes, word16_bytes16, UInt16.toNat_ofNat']
  exact Nat.mod_eq_of_lt (by omega)

/-- The header of a frame. -/
theorem headerOf_frame
    (type : KcnMsgType) {body : List UInt8}
    (fits : body.length ≤ kcnMsgMaxbodysiz) (rest : List UInt8) :
    headerOf (frame type body ++ rest) = {
      kmhVersion := kcnMsgVersion
      kmhType := type.code
      kmhLen := body.length
    } := by
  have length : slice (frame type body ++ rest) 2 2 = lengthBytes body :=
    rfl
  unfold headerOf
  rw [length, word16_lengthBytes fits]
  rfl

/-- A frame is accepted, whatever follows it. -/
theorem headerVerdict_frame
    (type : KcnMsgType) {body : List UInt8}
    (fits : body.length ≤ kcnMsgMaxbodysiz) (rest : List UInt8) :
    headerVerdict (frame type body ++ rest) = .accept {
      kmhVersion := kcnMsgVersion
      kmhType := type.code
      kmhLen := body.length
    } := by
  have long :
      ¬ (frame type body ++ rest).length < kcnMsgHdrsiz := by
    simp
    omega
  have whole :
      ¬ (frame type body ++ rest).length <
        kcnMsgHdrsiz + body.length := by
    simp
  unfold headerVerdict
  rw [headerOf_frame type fits, if_neg long, if_neg (by simp),
    if_neg (Nat.not_lt.mpr fits), if_neg whole]

/-- What is known of data whose header is accepted. -/
structure Accepted (bytes : List UInt8) (kmh : KcnMsgHeader) : Prop where
  header : kmh = headerOf bytes
  version : kmh.kmhVersion = kcnMsgVersion
  fits : kmh.kmhLen ≤ kcnMsgMaxbodysiz
  whole : kcnMsgHdrsiz + kmh.kmhLen ≤ bytes.length

theorem accepted_of_verdict
    {bytes : List UInt8} {kmh : KcnMsgHeader}
    (verdict : headerVerdict bytes = .accept kmh) :
    Accepted bytes kmh := by
  unfold headerVerdict at verdict
  split at verdict
  · cases verdict
  · split at verdict
    · cases verdict
    · rename_i version
      split at verdict
      · cases verdict
      · rename_i fits
        split at verdict
        · cases verdict
        · rename_i whole
          cases verdict
          exact ⟨rfl, not_not.mp version, Nat.le_of_not_lt fits,
            Nat.le_of_not_lt whole⟩

/-- Data whose header is accepted starts with a frame. -/
theorem Accepted.frame_eq
    {bytes : List UInt8} {kmh : KcnMsgHeader} {type : KcnMsgType}
    {body : List UInt8}
    (accepted : Accepted bytes kmh)
    (typeEq : kmh.kmhType = type.code)
    (bodyEq : body = slice bytes kcnMsgHdrsiz kmh.kmhLen) :
    bytes =
      frame type body ++ bytes.drop (kcnMsgHdrsiz + kmh.kmhLen) := by
  have whole := accepted.whole
  unfold kcnMsgHdrsiz at whole
  have bodyLength : body.length = kmh.kmhLen := by
    rw [bodyEq, length_slice]
    unfold kcnMsgHdrsiz
    omega
  have length : lengthBytes body = slice bytes 2 2 := by
    rw [lengthBytes, bodyLength, accepted.header]
    unfold headerOf
    rw [UInt16.ofNat_toNat, bytes16_word16]
    rw [length_slice]
    omega
  have version : slice bytes 0 1 = [kcnMsgVersion] := by
    rw [← singleton_octet (by omega), ← accepted.version,
      accepted.header]
    rfl
  have typeByte : slice bytes 1 1 = [type.code] := by
    rw [← singleton_octet (by omega), ← typeEq, accepted.header]
    rfl
  have header :
      headerBytes type body = slice bytes 0 kcnMsgHdrsiz := by
    calc
      headerBytes type body =
          [kcnMsgVersion] ++ [type.code] ++ lengthBytes body := rfl
      _ = slice bytes 0 1 ++ slice bytes (0 + 1) 1 ++
            slice bytes (0 + (1 + 1)) 2 := by
        rw [version, typeByte, length]
      _ = slice bytes 0 kcnMsgHdrsiz := by
        rw [← slice_add, ← slice_add]
        rfl
  have joined :
      frame type body = slice bytes 0 (kcnMsgHdrsiz + kmh.kmhLen) := by
    rw [frame, header, bodyEq, slice_add, Nat.zero_add]
  rw [joined, slice, List.drop_zero, List.take_append_drop]

/-- A stored query is read back. -/
theorem queryOf_queryBody
    {kmq : KcnMsgQuery}
    (type : kmq.kmqEq.keType < 256) (op : kmq.kmqEq.keOp < 256)
    (rest : List UInt8) :
    queryOf (queryBody kmq ++ rest) = some kmq := by
  have loctype :
      KcnLocType.ofCode? (octet (queryBody kmq ++ rest) 0) =
        some kmq.kmqLoctype := by
    have first :
        octet (queryBody kmq ++ rest) 0 = kmq.kmqLoctype.code :=
      rfl
    rw [first]
    cases kmq.kmqLoctype <;> rfl
  have val :
      slice (queryBody kmq ++ rest) 4 8 = bytes64 kmq.kmqEq.keVal :=
    rfl
  have start :
      slice (queryBody kmq ++ rest) 12 8 =
        bytes64 kmq.kmqEq.keStart.toUInt64 :=
    rfl
  have ends :
      slice (queryBody kmq ++ rest) 20 8 =
        bytes64 kmq.kmqEq.keEnd.toUInt64 :=
    rfl
  have typeByte :
      (octet (queryBody kmq ++ rest) 2).toNat = kmq.kmqEq.keType := by
    have second :
        octet (queryBody kmq ++ rest) 2 =
          UInt8.ofNat kmq.kmqEq.keType :=
      rfl
    rw [second, UInt8.toNat_ofNat', Nat.mod_eq_of_lt type]
  have opByte :
      (octet (queryBody kmq ++ rest) 3).toNat = kmq.kmqEq.keOp := by
    have third :
        octet (queryBody kmq ++ rest) 3 =
          UInt8.ofNat kmq.kmqEq.keOp :=
      rfl
    rw [third, UInt8.toNat_ofNat', Nat.mod_eq_of_lt op]
  rw [queryOf, loctype, Option.map_some, queryWith, val, start, ends,
    typeByte, opByte, word64_bytes64, word64_bytes64, word64_bytes64]
  rfl

/-- A stored response is read back, where `NULL` stands for no locator. -/
theorem responseOf_responseBody
    {kmr : KcnMsgResponse} (present : kmr.kmrLoc ≠ some [])
    (rest : List UInt8) :
    responseOf (responseBody kmr).length (responseBody kmr ++ rest) =
      kmr := by
  have length :
      (responseBody kmr).length - kcnMsgResponseMinsiz =
        kmr.kmrLoclen := by
    rw [length_responseBody, Nat.add_sub_cancel_left]
  have locEq :
      slice (responseBody kmr ++ rest) 2 kmr.kmrLoclen =
        kmr.kmrLoc.getD [] := by
    have tail :
        (responseBody kmr ++ rest).drop 2 =
          kmr.kmrLoc.getD [] ++ rest :=
      rfl
    rw [slice, tail, KcnMsgResponse.kmrLoclen, List.take_left]
  unfold responseOf
  rw [length, locEq]
  unfold KcnMsgResponse.kmrLoclen
  rcases kmr with ⟨error, score, loc⟩
  cases loc with
  | none =>
      rfl
  | some loc =>
      have nonempty : 0 < loc.length := by
        refine List.length_pos_iff.mpr fun empty => present ?_
        rw [empty]
      simp only [Option.getD_some, gt_iff_lt, nonempty, ↓reduceIte]
      rfl

/-- A stored add message is read back. -/
theorem addOf_addBody
    {kma : KcnMsgAdd} (type : kma.kmaType < 256) (rest : List UInt8) :
    addOf (addBody kma).length (addBody kma ++ rest) = kma := by
  have length :
      (addBody kma).length - kcnMsgAddMinsiz = kma.kmaLoc.length := by
    rw [length_addBody, Nat.add_sub_cancel_left]
  have time :
      slice (addBody kma ++ rest) 1 8 = bytes64 kma.kmaTime :=
    rfl
  have val : slice (addBody kma ++ rest) 9 8 = bytes64 kma.kmaVal :=
    rfl
  have loc :
      slice (addBody kma ++ rest) 17 kma.kmaLoc.length =
        kma.kmaLoc := by
    have tail :
        (addBody kma ++ rest).drop 17 = kma.kmaLoc ++ rest :=
      rfl
    rw [slice, tail, List.take_left]
  have typeByte :
      (octet (addBody kma ++ rest) 0).toNat = kma.kmaType := by
    have first :
        octet (addBody kma ++ rest) 0 = UInt8.ofNat kma.kmaType :=
      rfl
    rw [first, UInt8.toNat_ofNat', Nat.mod_eq_of_lt type]
  unfold addOf
  rw [length, time, val, loc, typeByte, word64_bytes64,
    word64_bytes64]

/-- A query that was read is stored as it came. -/
theorem queryBody_queryOf
    {bytes : List UInt8} {kmq : KcnMsgQuery}
    (enough : kcnMsgQuerySiz ≤ bytes.length)
    (found : queryOf bytes = some kmq) :
    queryBody kmq = slice bytes 0 kcnMsgQuerySiz := by
  unfold kcnMsgQuerySiz at enough
  obtain ⟨loctype, known, rfl⟩ := Option.map_eq_some_iff.mp found
  have code : loctype.code = octet bytes 0 := by
    unfold KcnLocType.ofCode? at known
    split at known
    · rename_i zero
      cases known
      exact zero.symm
    · rename_i one
      cases known
      exact one.symm
    · cases known
  have word (start : Nat) (inside : start + 8 ≤ bytes.length) :
      bytes64 (word64 (slice bytes start 8)) = slice bytes start 8 := by
    refine bytes64_word64 ?_
    rw [length_slice]
    omega
  calc
    queryBody (queryWith bytes loctype) =
        [octet bytes 0] ++ [octet bytes 1] ++ [octet bytes 2] ++
          [octet bytes 3] ++ slice bytes 4 8 ++ slice bytes 12 8 ++
          slice bytes 20 8 := by
      unfold queryBody queryWith
      simp only [code, UInt8.ofNat_toNat, UInt64.toUInt64_toInt64]
      rw [word 4 (by omega), word 12 (by omega), word 20 (by omega)]
      rfl
    _ = slice bytes 0 1 ++ slice bytes (0 + 1) 1 ++
          slice bytes (0 + (1 + 1)) 1 ++
          slice bytes (0 + (1 + 1 + 1)) 1 ++
          slice bytes (0 + (1 + 1 + 1 + 1)) 8 ++
          slice bytes (0 + (1 + 1 + 1 + 1 + 8)) 8 ++
          slice bytes (0 + (1 + 1 + 1 + 1 + 8 + 8)) 8 := by
      rw [singleton_octet (by omega), singleton_octet (by omega),
        singleton_octet (by omega), singleton_octet (by omega)]
    _ = slice bytes 0 kcnMsgQuerySiz := by
      rw [← slice_add, ← slice_add, ← slice_add, ← slice_add,
        ← slice_add, ← slice_add]
      rfl

/-- A response that was read is stored as it came. -/
theorem responseBody_responseOf
    {bytes : List UInt8} {length : Nat}
    (minimum : kcnMsgResponseMinsiz ≤ length)
    (enough : length ≤ bytes.length) :
    responseBody (responseOf length bytes) = slice bytes 0 length := by
  unfold kcnMsgResponseMinsiz at minimum
  have whole : 1 + 1 + (length - kcnMsgResponseMinsiz) = length :=
    Nat.add_sub_cancel' minimum
  have loc :
      (responseOf length bytes).kmrLoc.getD [] =
        slice bytes (0 + (1 + 1)) (length - kcnMsgResponseMinsiz) := by
    unfold responseOf
    split
    · rfl
    · rename_i none
      rw [Nat.eq_zero_of_not_pos none, slice_zero]
      rfl
  calc
    responseBody (responseOf length bytes) =
        [octet bytes 0] ++ [octet bytes 1] ++
          (responseOf length bytes).kmrLoc.getD [] := rfl
    _ = slice bytes 0 1 ++ slice bytes (0 + 1) 1 ++
          slice bytes (0 + (1 + 1))
            (length - kcnMsgResponseMinsiz) := by
      rw [loc, singleton_octet (by omega), singleton_octet (by omega)]
    _ = slice bytes 0 length := by
      rw [← slice_add, ← slice_add, whole]

/-- An add message that was read is stored as it came. -/
theorem addBody_addOf
    {bytes : List UInt8} {length : Nat}
    (minimum : kcnMsgAddMinsiz ≤ length)
    (enough : length ≤ bytes.length) :
    addBody (addOf length bytes) = slice bytes 0 length := by
  unfold kcnMsgAddMinsiz at minimum
  have whole : 1 + 8 + 8 + (length - kcnMsgAddMinsiz) = length :=
    Nat.add_sub_cancel' minimum
  have word (start : Nat) (inside : start + 8 ≤ bytes.length) :
      bytes64 (word64 (slice bytes start 8)) = slice bytes start 8 := by
    refine bytes64_word64 ?_
    rw [length_slice]
    omega
  calc
    addBody (addOf length bytes) =
        [octet bytes 0] ++ slice bytes 1 8 ++ slice bytes 9 8 ++
          slice bytes 17 (length - kcnMsgAddMinsiz) := by
      unfold addBody addOf
      simp only [UInt8.ofNat_toNat]
      rw [word 1 (by omega), word 9 (by omega)]
      rfl
    _ = slice bytes 0 1 ++ slice bytes (0 + 1) 8 ++
          slice bytes (0 + (1 + 8)) 8 ++
          slice bytes (0 + (1 + 8 + 8))
            (length - kcnMsgAddMinsiz) := by
      rw [singleton_octet (by omega)]
    _ = slice bytes 0 length := by
      rw [← slice_add, ← slice_add, ← slice_add, whole]

/-! ### The codecs are inverse to each other -/

namespace KcnMsg

variable {μ : Type}

/--
Encoding a message and decoding the frame, with any bytes behind it, gives the
message back and leaves the buffer at those bytes.
-/
def RoundTrips
    (type : KcnMsgType)
    (encode : μ → BufOp Unit)
    (decode : KcnMsgHeader → MsgCtx.MsgOp (Option μ))
    (msg : μ) : Prop :=
  ∀ okb : KcnBuf, okb.size = kcnMsgMaxsiz →
    ∃ okb', encode msg okb = .ok ((), okb') ∧
      ∀ (ctx : MsgCtx) (size sp : Nat) (rest : List UInt8),
        ctx.kb.Holds size sp [] (okb'.data ++ rest) →
        ∃ kmh kb kb',
          headerDecode ctx = .ok (some kmh, { ctx with kb := kb }) ∧
          kmh.kmhType = type.code ∧
          decode kmh { ctx with kb := kb } =
            .ok (some msg, { ctx with kb := kb' }) ∧
          kb'.Holds size (sp + okb'.len) [] rest

/--
Every frame that the header decoder and the body decoder of its kind accept is
what encoding the decoded message stores.
-/
def Reproduces
    (type : KcnMsgType)
    (encode : μ → BufOp Unit)
    (decode : KcnMsgHeader → MsgCtx.MsgOp (Option μ)) : Prop :=
  ∀ (ctx between ctx' : MsgCtx) (kmh : KcnMsgHeader) (msg : μ),
    ctx.kb.before = [] →
    headerDecode ctx = .ok (some kmh, between) →
    kmh.kmhType = type.code →
    decode kmh between = .ok (some msg, ctx') →
    ∀ okb : KcnBuf, okb.size = kcnMsgMaxsiz →
      ∃ okb', encode msg okb = .ok ((), okb') ∧
        ctx.kb.data = okb'.data ++ ctx'.kb.data

/-- What a body decoder returns for the body of a message. -/
def Decodes
    (type : KcnMsgType) (body : List UInt8)
    (decode : KcnMsgHeader → MsgCtx.MsgOp (Option μ))
    (msg : μ) : Prop :=
  ∀ (ctx : MsgCtx) (size sp : Nat) (rest : List UInt8),
    ctx.kb.Holds size sp [] (body ++ rest) →
    ∃ kb,
      decode
          { kmhVersion := kcnMsgVersion
            kmhType := type.code
            kmhLen := body.length } ctx =
        .ok (some msg, { ctx with kb := kb }) ∧
      kb.Holds size (sp + body.length) [] rest

/-- The header decoder takes the header off a frame. -/
theorem headerDecode_frame
    {ctx : MsgCtx} {size sp : Nat} {type : KcnMsgType}
    {body rest : List UInt8}
    (fits : body.length ≤ kcnMsgMaxbodysiz)
    (holds : ctx.kb.Holds size sp [] (frame type body ++ rest)) :
    ∃ kb,
      headerDecode ctx =
        .ok
          (some {
            kmhVersion := kcnMsgVersion
            kmhType := type.code
            kmhLen := body.length
          }, { ctx with kb := kb }) ∧
      kb.Holds size (sp + kcnMsgHdrsiz) [] (body ++ rest) := by
  have verdict := headerVerdict_frame type fits rest
  have done :
      wp headerDecode
        (fun result ctx' =>
          result = some {
            kmhVersion := kcnMsgVersion
            kmhType := type.code
            kmhLen := body.length
          } ∧ ctx'.errno = ctx.errno ∧
            ctx'.kb.Holds size (sp + kcnMsgHdrsiz) [] (body ++ rest))
        (fun _ => False) ctx := by
    refine wp_headerDecode holds ?_ ?_ ?_
    · intro waits
      rw [verdict] at waits
      cases waits
    · intro _ refused
      rw [verdict] at refused
      cases refused
    · intro kmh accepted kb holds'
      rw [verdict] at accepted
      cases accepted
      exact ⟨rfl, rfl, holds'⟩
  obtain ⟨_, ctx', runs, rfl, same, holds'⟩ := wp_returns done
  refine ⟨ctx'.kb, ?_, holds'⟩
  rw [runs, ← same]

/-- An encoder and a body decoder that agree on the body make a round trip. -/
theorem roundTrips
    {type : KcnMsgType} {body : List UInt8}
    {encode : μ → BufOp Unit}
    {decode : KcnMsgHeader → MsgCtx.MsgOp (Option μ)} {msg : μ}
    (fits : body.length ≤ kcnMsgMaxbodysiz)
    (encodes : Encodes (encode msg) type body)
    (decodes : Decodes type body decode msg) :
    RoundTrips type encode decode msg := by
  intro okb sizeEq
  have room : Fits body okb := by
    unfold Fits
    rw [sizeEq]
    unfold kcnMsgMaxbodysiz kcnMsgMaxsiz kcnMsgHdrsiz at *
    omega
  obtain ⟨okb', runs, holds'⟩ := encodes okb room
  refine ⟨okb', runs, ?_⟩
  intro ctx size sp rest holds
  have frameEq : okb'.data = frame type body := holds'.data_eq
  have lengthEq : okb'.len = kcnMsgHdrsiz + body.length := by
    rw [holds'.len_eq, length_headerBytes]
  rw [frameEq] at holds
  obtain ⟨kb, header, holds₁⟩ := headerDecode_frame fits holds
  obtain ⟨kb', decoded, holds₂⟩ :=
    decodes { ctx with kb := kb } size (sp + kcnMsgHdrsiz) rest holds₁
  refine ⟨_, kb, kb', header, rfl, decoded, ?_⟩
  rw [lengthEq, ← Nat.add_assoc]
  exact holds₂

theorem queryDecode_decodes
    {kmq : KcnMsgQuery}
    (type : kmq.kmqEq.keType < 256) (op : kmq.kmqEq.keOp < 256) :
    Decodes .query (queryBody kmq) queryDecode kmq := by
  intro ctx size sp rest holds
  have found := queryOf_queryBody type op rest
  have done :
      wp
        (queryDecode {
          kmhVersion := kcnMsgVersion
          kmhType := KcnMsgType.query.code
          kmhLen := (queryBody kmq).length
        })
        (fun result ctx' =>
          result = some kmq ∧ ctx'.errno = ctx.errno ∧
            ctx'.kb.Holds size (sp + (queryBody kmq).length) [] rest)
        (fun _ => False) ctx := by
    refine wp_queryDecode holds (by simp) ?_ ?_ ?_
    · intro other
      exact absurd rfl other
    · intro _ missing
      rw [found] at missing
      cases missing
    · intro kmq' _ found' kb holds'
      rw [found] at found'
      cases found'
      rw [List.drop_left] at holds'
      exact ⟨rfl, rfl, holds'⟩
  obtain ⟨_, ctx', runs, rfl, same, holds'⟩ := wp_returns done
  refine ⟨ctx'.kb, ?_, holds'⟩
  rw [runs, ← same]

theorem responseDecode_decodes
    {kmr : KcnMsgResponse} (present : kmr.kmrLoc ≠ some []) :
    Decodes .response (responseBody kmr) responseDecode kmr := by
  intro ctx size sp rest holds
  have done :
      wp
        (responseDecode {
          kmhVersion := kcnMsgVersion
          kmhType := KcnMsgType.response.code
          kmhLen := (responseBody kmr).length
        })
        (fun result ctx' =>
          result = some kmr ∧ ctx'.errno = ctx.errno ∧
            ctx'.kb.Holds size (sp + (responseBody kmr).length) []
              rest)
        (fun _ => False) ctx := by
    refine wp_responseDecode holds (by simp) ?_ ?_
    · intro short
      simp at short
    · intro _ kb holds'
      rw [List.drop_left] at holds'
      exact ⟨congrArg some (responseOf_responseBody present rest), rfl,
        holds'⟩
  obtain ⟨_, ctx', runs, rfl, same, holds'⟩ := wp_returns done
  refine ⟨ctx'.kb, ?_, holds'⟩
  rw [runs, ← same]

theorem addDecode_decodes
    {kma : KcnMsgAdd} (type : kma.kmaType < 256) :
    Decodes .add (addBody kma) addDecode kma := by
  intro ctx size sp rest holds
  have done :
      wp
        (addDecode {
          kmhVersion := kcnMsgVersion
          kmhType := KcnMsgType.add.code
          kmhLen := (addBody kma).length
        })
        (fun result ctx' =>
          result = some kma ∧ ctx'.errno = ctx.errno ∧
            ctx'.kb.Holds size (sp + (addBody kma).length) [] rest)
        (fun _ => False) ctx := by
    refine wp_addDecode holds (by simp) ?_ ?_
    · intro short
      simp at short
    · intro _ kb holds'
      rw [List.drop_left] at holds'
      exact ⟨congrArg some (addOf_addBody type rest), rfl, holds'⟩
  obtain ⟨_, ctx', runs, rfl, same, holds'⟩ := wp_returns done
  refine ⟨ctx'.kb, ?_, holds'⟩
  rw [runs, ← same]

/-- What a decoded header says of the data before and after it. -/
theorem headerDecode_ok
    {ctx ctx' : MsgCtx} {kmh : KcnMsgHeader}
    (atStart : ctx.kb.before = [])
    (decoded : headerDecode ctx = .ok (some kmh, ctx')) :
    Accepted ctx.kb.data kmh ∧
      ctx'.kb.Holds ctx.kb.size (ctx.kb.sp + kcnMsgHdrsiz) []
        (ctx.kb.data.drop kcnMsgHdrsiz) := by
  have holds :
      ctx.kb.Holds ctx.kb.size ctx.kb.sp [] ctx.kb.data := by
    refine ⟨rfl, rfl, atStart, ?_⟩
    rw [KcnBuf.data_eq, atStart, List.nil_append]
  have done :
      wp headerDecode
        (fun result ctx' => ∀ kmh, result = some kmh →
          Accepted ctx.kb.data kmh ∧
            ctx'.kb.Holds ctx.kb.size (ctx.kb.sp + kcnMsgHdrsiz) []
              (ctx.kb.data.drop kcnMsgHdrsiz))
        (fun _ => True) ctx := by
    refine wp_headerDecode holds ?_ ?_ ?_
    · intro _ _ _ _ absent
      cases absent
    · intro _ _ _ _ _ absent
      cases absent
    · intro kmh accepted kb holds' _ same
      cases same
      exact ⟨accepted_of_verdict accepted, holds'⟩
  exact wp_ok done decoded kmh rfl

/--
A body decoder whose messages encode to the bodies they were decoded from
reproduces frames.
-/
theorem reproduces
    {type : KcnMsgType} {body : μ → List UInt8}
    {encode : μ → BufOp Unit}
    {decode : KcnMsgHeader → MsgCtx.MsgOp (Option μ)}
    (encodes : ∀ msg, Encodes (encode msg) type (body msg))
    (takes : ∀ (ctx : MsgCtx) size sp bytes kmh,
      ctx.kb.Holds size sp [] bytes →
      kmh.kmhLen ≤ bytes.length →
      wp (decode kmh)
        (fun result ctx' => ∀ msg, result = some msg →
          body msg = slice bytes 0 kmh.kmhLen ∧
            ctx'.kb.data = bytes.drop kmh.kmhLen)
        (fun _ => True) ctx) :
    Reproduces type encode decode := by
  intro ctx between ctx' kmh msg atStart header typeEq decoded okb
    sizeEq
  obtain ⟨accepted, holds⟩ := headerDecode_ok atStart header
  have whole := accepted.whole
  have inside :
      kmh.kmhLen ≤ (ctx.kb.data.drop kcnMsgHdrsiz).length := by
    rw [List.length_drop]
    omega
  obtain ⟨bodyEq, restEq⟩ :=
    wp_ok (takes between _ _ _ kmh holds inside) decoded msg rfl
  have bodyEq' :
      body msg = slice ctx.kb.data kcnMsgHdrsiz kmh.kmhLen :=
    bodyEq
  have frameEq := accepted.frame_eq typeEq bodyEq'
  have bodyLength : (body msg).length = kmh.kmhLen := by
    rw [bodyEq', length_slice]
    omega
  have room : Fits (body msg) okb := by
    have fits := accepted.fits
    unfold Fits
    rw [sizeEq, bodyLength]
    unfold kcnMsgMaxbodysiz kcnMsgMaxsiz kcnMsgHdrsiz at *
    omega
  obtain ⟨okb', runs, holds'⟩ := encodes msg okb room
  refine ⟨okb', runs, ?_⟩
  rw [restEq, List.drop_drop, holds'.data_eq]
  exact frameEq

theorem queryDecode_reproduces :
    Reproduces .query queryEncode queryDecode := by
  refine reproduces queryEncode_encodes ?_
  intro ctx size sp bytes kmh holds inside
  refine wp_queryDecode holds inside ?_ ?_ ?_
  · intro _ _ absent
    cases absent
  · intro _ _ _ _ _ absent
    cases absent
  · intro kmq lenEq found kb holds' _ same
    cases same
    refine ⟨?_, ?_⟩
    · rw [lenEq]
      exact queryBody_queryOf (lenEq ▸ inside) found
    · rw [holds'.data_eq, List.nil_append]

theorem responseDecode_reproduces :
    Reproduces .response responseEncode responseDecode := by
  refine reproduces responseEncode_encodes ?_
  intro ctx size sp bytes kmh holds inside
  refine wp_responseDecode holds inside ?_ ?_
  · intro _ _ absent
    cases absent
  · intro minimum kb holds' _ same
    cases same
    refine ⟨responseBody_responseOf minimum inside, ?_⟩
    rw [holds'.data_eq, List.nil_append]

theorem addDecode_reproduces :
    Reproduces .add addEncode addDecode := by
  refine reproduces addEncode_encodes ?_
  intro ctx size sp bytes kmh holds inside
  refine wp_addDecode holds inside ?_ ?_
  · intro _ _ absent
    cases absent
  · intro minimum kb holds' _ same
    cases same
    refine ⟨addBody_addOf minimum inside, ?_⟩
    rw [holds'.data_eq, List.nil_append]

/-- The encoders and decoders of the three messages are inverse. -/
theorem codecs_inverse :
    (∀ kmq : KcnMsgQuery,
      kmq.kmqEq.keType < 256 → kmq.kmqEq.keOp < 256 →
      RoundTrips .query queryEncode queryDecode kmq) ∧
    (∀ kmr : KcnMsgResponse,
      kmr.kmrLoc ≠ some [] →
      kmr.kmrLoclen ≤ kcnMsgMaxbodysiz - kcnMsgResponseMinsiz →
      RoundTrips .response responseEncode responseDecode kmr) ∧
    (∀ kma : KcnMsgAdd,
      kma.kmaType < 256 →
      kma.kmaLoc.length ≤ kcnMsgMaxlocsiz →
      RoundTrips .add addEncode addDecode kma) ∧
    Reproduces .query queryEncode queryDecode ∧
    Reproduces .response responseEncode responseDecode ∧
    Reproduces .add addEncode addDecode := by
  refine ⟨?_, ?_, ?_, queryDecode_reproduces,
    responseDecode_reproduces, addDecode_reproduces⟩
  · intro kmq type op
    have fits : (queryBody kmq).length ≤ kcnMsgMaxbodysiz := by
      rw [length_queryBody]
      decide
    exact roundTrips fits (queryEncode_encodes kmq)
      (queryDecode_decodes type op)
  · intro kmr present short
    have fits : (responseBody kmr).length ≤ kcnMsgMaxbodysiz := by
      rw [length_responseBody]
      exact Nat.add_le_of_le_sub' (by decide) short
    exact roundTrips fits (responseEncode_encodes kmr)
      (responseDecode_decodes present)
  · intro kma type short
    have fits : (addBody kma).length ≤ kcnMsgMaxbodysiz := by
      rw [length_addBody]
      exact Nat.add_le_of_le_sub' (by decide) short
    exact roundTrips fits (addEncode_encodes kma)
      (addDecode_decodes type)

/-- A query with extreme values in all its fields makes a round trip. -/
theorem codecs_inverse_query :
    RoundTrips .query queryEncode queryDecode {
      kmqLoctype := .uri
      kmqMaxcount := 255
      kmqEq := {
        keType := 255
        keOp := 0
        keVal := 0xffffffffffffffff
        keStart := -1
        keEnd := kcnTimeNow
      }
    } :=
  codecs_inverse.1 _ (by decide) (by decide)

end KcnMsg

end Kcn
