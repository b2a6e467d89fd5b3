import Kcn.FileRules
import Kcn.Server

namespace Kcn

open Program Bytes KcnBuf Framing

/-!
# Serving a stream

What the server makes of the bytes that have arrived is a framer, and the loop
of `kcndb_server_recv` handles its messages.
-/

/-- A message that the server takes off the stream. -/
inductive ServerFrame where
  /-- A query, or nothing where the decoder refuses its body. -/
  | query (kmq : Option KcnMsgQuery)
  | add (kma : KcnMsgAdd)
  deriving Repr, DecidableEq

/-- What `kcndb_server_recv` takes off the data at the head of the buffer. -/
def serverCut (bytes : List UInt8) : Cut UInt8 ServerFrame Errno :=
  match headerVerdict bytes with
  | .wait => .wait
  | .refuse error => .refuse error
  | .accept kmh =>
      let body := bytes.drop kcnMsgHdrsiz
      if kmh.kmhType = KcnMsgType.query.code then
        if kmh.kmhLen = kcnMsgQuerySiz then
          .take (.query (queryOf body)) (body.drop kmh.kmhLen)
        else
          .take (.query none) body
      else if kmh.kmhType = KcnMsgType.add.code then
        if kmh.kmhLen < kcnMsgAddMinsiz then
          .refuse Errno.einval
        else
          .take (.add (addOf kmh.kmhLen body)) (body.drop kmh.kmhLen)
      else
        .refuse Errno.eopnotsupp

/-! ### Later bytes do not matter -/

theorem octet_append
    {bytes : List UInt8} {index : Nat} (inside : index < bytes.length)
    (more : List UInt8) :
    octet (bytes ++ more) index = octet bytes index := by
  rw [octet, octet, List.getD_eq_getElem?_getD,
    List.getD_eq_getElem?_getD, List.getElem?_append_left inside]

theorem headerOf_append
    {bytes : List UInt8} (enough : kcnMsgHdrsiz ≤ bytes.length)
    (more : List UInt8) :
    headerOf (bytes ++ more) = headerOf bytes := by
  unfold kcnMsgHdrsiz at enough
  rw [headerOf, headerOf, octet_append (by omega),
    octet_append (by omega), slice_append_left _ _ _ _ enough]

/-- A header that was accepted or refused stays so. -/
theorem headerVerdict_append
    {bytes : List UInt8} (decided : headerVerdict bytes ≠ .wait)
    (more : List UInt8) :
    headerVerdict (bytes ++ more) = headerVerdict bytes := by
  unfold headerVerdict at decided ⊢
  by_cases short : bytes.length < kcnMsgHdrsiz
  · rw [if_pos short] at decided
    exact absurd rfl decided
  · have long : ¬ (bytes ++ more).length < kcnMsgHdrsiz := by
      rw [List.length_append]
      omega
    rw [if_neg short] at decided
    rw [headerOf_append (Nat.le_of_not_lt short), if_neg short,
      if_neg long]
    by_cases foreign : (headerOf bytes).kmhVersion ≠ kcnMsgVersion
    · rw [if_pos foreign, if_pos foreign]
    · rw [if_neg foreign] at decided ⊢
      rw [if_neg foreign]
      by_cases tooLong : (headerOf bytes).kmhLen > kcnMsgMaxbodysiz
      · rw [if_pos tooLong, if_pos tooLong]
      · rw [if_neg tooLong] at decided ⊢
        rw [if_neg tooLong]
        by_cases few :
            bytes.length < kcnMsgHdrsiz + (headerOf bytes).kmhLen
        · rw [if_pos few] at decided
          exact absurd rfl decided
        · have whole :
              ¬ (bytes ++ more).length <
                kcnMsgHdrsiz + (headerOf bytes).kmhLen := by
            rw [List.length_append]
            omega
          rw [if_neg few, if_neg whole]

theorem queryOf_append
    {body : List UInt8} (enough : kcnMsgQuerySiz ≤ body.length)
    (more : List UInt8) :
    queryOf (body ++ more) = queryOf body := by
  unfold kcnMsgQuerySiz at enough
  have fields : queryWith (body ++ more) = queryWith body := by
    funext loctype
    rw [queryWith, queryWith, octet_append (by omega),
      octet_append (by omega), octet_append (by omega),
      slice_append_left _ _ _ _ (by omega),
      slice_append_left _ _ _ _ (by omega),
      slice_append_left _ _ _ _ (by omega)]
  rw [queryOf, queryOf, octet_append (by omega), fields]

theorem addOf_append
    {body : List UInt8} {length : Nat}
    (minimum : kcnMsgAddMinsiz ≤ length)
    (enough : length ≤ body.length) (more : List UInt8) :
    addOf length (body ++ more) = addOf length body := by
  unfold kcnMsgAddMinsiz at minimum
  have loc :
      17 + (length - kcnMsgAddMinsiz) ≤ body.length := by
    unfold kcnMsgAddMinsiz
    omega
  rw [addOf, addOf, octet_append (by omega),
    slice_append_left _ _ _ _ (by omega),
    slice_append_left _ _ _ _ (by omega),
    slice_append_left _ _ _ _ loc]

/-- What the server makes of data whose header is accepted. -/
theorem serverCut_accepted
    {bytes : List UInt8} {kmh : KcnMsgHeader}
    (accepted : headerVerdict bytes = .accept kmh) :
    serverCut bytes =
      if kmh.kmhType = KcnMsgType.query.code then
        if kmh.kmhLen = kcnMsgQuerySiz then
          .take (.query (queryOf (bytes.drop kcnMsgHdrsiz)))
            ((bytes.drop kcnMsgHdrsiz).drop kmh.kmhLen)
        else
          .take (.query none) (bytes.drop kcnMsgHdrsiz)
      else if kmh.kmhType = KcnMsgType.add.code then
        if kmh.kmhLen < kcnMsgAddMinsiz then
          .refuse Errno.einval
        else
          .take (.add (addOf kmh.kmhLen (bytes.drop kcnMsgHdrsiz)))
            ((bytes.drop kcnMsgHdrsiz).drop kmh.kmhLen)
      else
        .refuse Errno.eopnotsupp := by
  rw [serverCut, accepted]

/-- Once the server does not wait, later bytes do not change what it does. -/
theorem serverCut_append
    {bytes : List UInt8} (decided : serverCut bytes ≠ .wait)
    (more : List UInt8) :
    serverCut (bytes ++ more) = (serverCut bytes).later more := by
  have headerDecided : headerVerdict bytes ≠ .wait := by
    intro waits
    rw [serverCut, waits] at decided
    exact decided rfl
  have same := headerVerdict_append headerDecided more
  cases verdict : headerVerdict bytes with
  | wait =>
      exact absurd verdict headerDecided
  | refuse error =>
      rw [verdict] at same
      rw [serverCut, serverCut, same, verdict]
      rfl
  | accept kmh =>
      rw [verdict] at same
      have whole := (accepted_of_verdict verdict).whole
      have header :
          (bytes ++ more).drop kcnMsgHdrsiz =
            bytes.drop kcnMsgHdrsiz ++ more :=
        List.drop_append_of_le_length (by omega)
      have bodyLength :
          kmh.kmhLen ≤ (bytes.drop kcnMsgHdrsiz).length := by
        rw [List.length_drop]
        omega
      rw [serverCut_accepted same, serverCut_accepted verdict, header,
        List.drop_append_of_le_length bodyLength]
      split
      · split
        · rename_i lenEq
          rw [queryOf_append (lenEq ▸ bodyLength)]
          rfl
        · rfl
      · split
        · split
          · rfl
          · rename_i long
            rw [addOf_append (Nat.le_of_not_lt long) bodyLength]
            rfl
        · rfl

/-- What is taken off is not empty. -/
theorem serverCut_shrinks
    {bytes rest : List UInt8} {message : ServerFrame}
    (takes : serverCut bytes = .take message rest) :
    rest.length < bytes.length := by
  cases verdict : headerVerdict bytes with
  | wait =>
      rw [serverCut, verdict] at takes
      cases takes
  | refuse error =>
      rw [serverCut, verdict] at takes
      cases takes
  | accept kmh =>
      have whole := (accepted_of_verdict verdict).whole
      have header : 0 < kcnMsgHdrsiz := by decide
      have less (count : Nat) :
          ((bytes.drop kcnMsgHdrsiz).drop count).length <
            bytes.length := by
        rw [List.length_drop, List.length_drop]
        omega
      rw [serverCut_accepted verdict] at takes
      split at takes
      · split at takes
        · cases takes
          exact less _
        · cases takes
          exact less 0
      · split at takes
        · split at takes
          · cases takes
          · cases takes
            exact less _
        · cases takes

/-- The framer of the server. -/
def serverFramer : Framer UInt8 ServerFrame Errno :=
  .ofLater serverCut (fun _ _ _ => serverCut_shrinks)
    fun _ more decided => serverCut_append decided more

/-- Data without a whole frame is shorter than the input buffer. -/
theorem length_of_headerVerdict_wait
    {bytes : List UInt8} (waits : headerVerdict bytes = .wait) :
    bytes.length < kcnMsgMaxsiz := by
  unfold headerVerdict at waits
  unfold kcnMsgMaxbodysiz kcnMsgMaxsiz kcnMsgHdrsiz at *
  split at waits
  · omega
  · split at waits
    · cases waits
    · split at waits
      · cases waits
      · split at waits
        · omega
        · cases waits

/-- Data that waits for more is shorter than the input buffer. -/
theorem length_of_serverCut_wait
    {bytes : List UInt8} (waits : serverCut bytes = .wait) :
    bytes.length < kcnMsgMaxsiz := by
  apply length_of_headerVerdict_wait
  cases verdict : headerVerdict bytes with
  | wait =>
      rfl
  | refuse error =>
      rw [serverCut, verdict] at waits
      cases waits
  | accept kmh =>
      rw [serverCut_accepted verdict] at waits
      split at waits
      · split at waits <;> cases waits
      · split at waits
        · split at waits <;> cases waits
        · cases waits

/-! ### What processing does -/

namespace ServerCalls

variable {σ : Type} (calls : ServerCalls σ)

/-- The time of the record that an add message asks for. -/
def timeOf (kma : KcnMsgAdd) :
    Program Stop (Served σ) (Except Errno Int64) :=
  if kma.kmaTime ≠ kcnTimeNow.toUInt64 then
    pure (.ok kma.kmaTime.toInt64)
  else
    Served.call calls.time

/-- Answer a query. -/
def handleQuery :
    Option KcnMsgQuery → Program Stop (Served σ) (Option Errno)
  | none => do
      Served.call (calls.respond Errno.einval)
      pure none
  | some kmq => do
      Served.hand (.query kmq)
      let result ← Served.call
        (calls.search kmq.kmqEq kmq.kmqMaxcount.toNat)
      Served.call (calls.respond (result.getD 0))
      pure none

/-- Store the record of an add message. -/
def handleAdd (kma : KcnMsgAdd) :
    Program Stop (Served σ) (Option Errno) := do
  Served.hand (.add kma)
  match ← calls.timeOf kma with
  | .error error => pure (some error)
  | .ok time =>
      Served.call
        (calls.recordAdd kma.kmaType {
          kdrTime := time
          kdrVal := kma.kmaVal
          kdrLocidx := 0
          kdrLoc := kma.kmaLoc
        })

/-- Handle a message, with the error that ends the session. -/
def handle : ServerFrame → Program Stop (Served σ) (Option Errno)
  | .query kmq => calls.handleQuery kmq
  | .add kma => calls.handleAdd kma

end ServerCalls

namespace ServerCtx

variable {σ : Type}

/-- A session with other contents in the buffer and in `errno`. -/
def moved
    (ctx : ServerCtx σ) (kb : KcnBuf) (errno : Errno)
    (served : Served σ) : ServerCtx σ where
  conn := { ctx.conn with kb := kb }
  env := { ctx.env with errno := errno }
  served := served

end ServerCtx

namespace KcndbServer

open ServerCtx

variable
  {σ : Type} {calls : ServerCalls σ}
  {halt : Stop → Prop} {ctx : ServerCtx σ}
  {size sp : Nat} {bytes : List UInt8}

/-- `kcndb_server_query_process` -/
theorem wp_queryProcess
    {post : Bool → ServerCtx σ → Prop} {kmh : KcnMsgHeader}
    (holds : ctx.conn.kb.Holds size sp [] bytes)
    (inside : kmh.kmhLen ≤ bytes.length)
    {kmq : Option KcnMsgQuery} {rest : List UInt8}
    (refused : kmh.kmhLen ≠ kcnMsgQuerySiz →
      kmq = none ∧ rest = bytes)
    (decoded : kmh.kmhLen = kcnMsgQuerySiz →
      kmq = queryOf bytes ∧ rest = bytes.drop kmh.kmhLen)
    (handled :
      wp (calls.handleQuery kmq)
        (fun result served => ∀ sp kb errno,
          kb.Holds size sp [] rest → result = none →
          post true (ctx.moved kb errno served))
        halt ctx.served) :
    wp (queryProcess calls kmh) post halt ctx := by
  unfold queryProcess
  simp only [msg, serve, wp_bind, wp_zoom]
  refine KcnMsg.wp_queryDecode holds inside ?_ ?_ ?_
  · intro other
    obtain ⟨rfl, rfl⟩ := refused other
    simp only [ServerCalls.handleQuery, wp_bind, wp_pure] at handled
    simp only [wp_bind, wp_pure, errno, wp_gets, wp_zoom]
    refine wp_imp handled fun _ served answered => ?_
    exact answered _ _ _ holds trivial
  · intro lenEq missing kb holds'
    obtain ⟨rfl, rfl⟩ := decoded lenEq
    rw [missing] at handled
    simp only [ServerCalls.handleQuery, wp_bind, wp_pure] at handled
    simp only [wp_bind, wp_pure, errno, wp_gets, wp_zoom]
    refine wp_imp handled fun _ served answered => ?_
    exact answered _ _ _ holds' trivial
  · intro kmq' lenEq found kb holds'
    obtain ⟨rfl, rfl⟩ := decoded lenEq
    rw [found] at handled
    simp only [ServerCalls.handleQuery, wp_bind, wp_pure] at handled
    simp only [wp_bind, wp_zoom]
    refine wp_imp handled fun _ handed searched => ?_
    refine wp_imp searched fun result served answered => ?_
    cases result with
    | none =>
        simp only [setErrno, msg, MsgCtx.setErrno, wp_zoom, wp_modify,
          errno, wp_gets, wp_pure, wp_bind]
        refine wp_imp answered fun _ served' finished => ?_
        exact finished _ _ _ holds' trivial
    | some error =>
        simp only [setErrno, msg, MsgCtx.setErrno, wp_zoom, wp_modify,
          errno, wp_gets, wp_pure, wp_bind]
        refine wp_imp answered fun _ served' finished => ?_
        exact finished _ _ _ holds' trivial

/-- `kcndb_server_add_process` -/
theorem wp_addProcess
    {post : Bool → ServerCtx σ → Prop} {kmh : KcnMsgHeader}
    (holds : ctx.conn.kb.Holds size sp [] bytes)
    (inside : kmh.kmhLen ≤ bytes.length)
    (badLength : kmh.kmhLen < kcnMsgAddMinsiz →
      post false (ctx.moved ctx.conn.kb Errno.einval ctx.served))
    (handled : kcnMsgAddMinsiz ≤ kmh.kmhLen →
      wp (calls.handleAdd (addOf kmh.kmhLen bytes))
        (fun result served => ∀ sp kb errno,
          kb.Holds size sp [] (bytes.drop kmh.kmhLen) →
          (∀ error, result = some error → errno = error) →
          post result.isNone (ctx.moved kb errno served))
        halt ctx.served) :
    wp (addProcess calls kmh) post halt ctx := by
  unfold addProcess
  simp only [msg, serve, wp_bind, wp_zoom]
  refine KcnMsg.wp_addDecode holds inside ?_ ?_
  · intro short
    exact badLength short
  · intro minimum kb holds'
    have handled := handled minimum
    simp only [ServerCalls.handleAdd, wp_bind] at handled
    simp only [wp_bind, wp_zoom]
    refine wp_imp handled fun _ handed timed => ?_
    unfold ServerCalls.timeOf at timed
    unfold addTime
    split at timed
    · rename_i given
      rw [if_pos given]
      simp only [wp_pure] at timed ⊢
      simp only [wp_bind, wp_zoom]
      refine wp_imp timed fun result served added => ?_
      cases result with
      | none =>
          exact added _ _ _ holds' fun _ same => by cases same
      | some error =>
          simp only [setErrno, msg, MsgCtx.setErrno, wp_bind, wp_zoom,
            wp_modify, wp_pure]
          exact added _ _ _ holds' fun _ => Option.some.inj
    · rename_i now
      rw [if_neg now]
      simp only [serve, wp_bind, wp_zoom]
      refine wp_imp timed fun clock ticked answered => ?_
      cases clock with
      | error error =>
          simp only [setErrno, msg, MsgCtx.setErrno, wp_bind, wp_zoom,
            wp_modify, wp_pure] at answered ⊢
          exact answered _ _ _ holds' fun _ => Option.some.inj
      | ok time =>
          simp only [wp_pure, wp_bind, wp_zoom] at answered ⊢
          refine wp_imp answered fun result served added => ?_
          cases result with
          | none =>
              exact added _ _ _ holds' fun _ same => by cases same
          | some error =>
              simp only [setErrno, msg, MsgCtx.setErrno, wp_bind,
                wp_zoom, wp_modify, wp_pure]
              exact added _ _ _ holds' fun _ => Option.some.inj

/-- One round of the loop of `kcndb_server_recv`. -/
theorem wp_recvStep
    {post : Option Errno → ServerCtx σ → Prop}
    (holds : ctx.conn.kb.Holds size sp [] bytes)
    (wait : serverCut bytes = .wait →
      ∀ kb, kb.Holds size sp [] bytes →
      post (some Errno.eagain)
        (ctx.moved kb Errno.eagain ctx.served))
    (refuse : ∀ error, serverCut bytes = .refuse error →
      ∀ kb, kb.size = size →
      post (some error) (ctx.moved kb error ctx.served))
    (take : ∀ message rest, serverCut bytes = .take message rest →
      wp (calls.handle message)
        (fun result served => ∀ sp kb errno,
          kb.Holds size sp [] rest →
          (∀ error, result = some error → errno = error) →
          post result (ctx.moved kb errno served))
        halt ctx.served) :
    wp (recvStep calls) post halt ctx := by
  unfold recvStep
  simp only [msg, wp_bind, wp_zoom]
  refine KcnMsg.wp_headerDecode holds ?_ ?_ ?_
  · intro waits kb holds'
    simp only [errno, wp_bind, wp_gets, wp_pure]
    have cutEq : serverCut bytes = .wait := by
      rw [serverCut, waits]
    exact wait cutEq kb holds'
  · intro error refused kb sizeEq
    simp only [errno, wp_bind, wp_gets, wp_pure]
    have cutEq : serverCut bytes = .refuse error := by
      rw [serverCut, refused]
    exact refuse error cutEq kb sizeEq
  · intro kmh accepted kb holds'
    have cutEq := serverCut_accepted accepted
    have whole := (accepted_of_verdict accepted).whole
    have inside : kmh.kmhLen ≤ (bytes.drop kcnMsgHdrsiz).length := by
      rw [List.length_drop]
      omega
    unfold process
    simp only [wp_bind]
    by_cases query : kmh.kmhType = KcnMsgType.query.code
    · rw [if_pos query] at cutEq ⊢
      by_cases lenEq : kmh.kmhLen = kcnMsgQuerySiz
      · rw [if_pos lenEq] at cutEq
        refine wp_queryProcess holds' inside
          (fun other => absurd lenEq other)
          (fun _ => ⟨rfl, rfl⟩) ?_
        refine wp_imp (take _ _ cutEq) fun result served done => ?_
        intro sp' kb' errno' holds₂ isNone
        subst isNone
        exact done sp' kb' errno' holds₂ fun _ same => by cases same
      · rw [if_neg lenEq] at cutEq
        refine wp_queryProcess holds' inside
          (fun _ => ⟨rfl, rfl⟩)
          (fun same => absurd same lenEq) ?_
        refine wp_imp (take _ _ cutEq) fun result served done => ?_
        intro sp' kb' errno' holds₂ isNone
        subst isNone
        exact done sp' kb' errno' holds₂ fun _ same => by cases same
    · rw [if_neg query] at cutEq ⊢
      by_cases add : kmh.kmhType = KcnMsgType.add.code
      · rw [if_pos add] at cutEq ⊢
        refine wp_addProcess holds' inside ?_ ?_
        · intro short
          rw [if_pos short] at cutEq
          simp only [Bool.false_eq_true, ↓reduceIte, wp_bind, errno,
            wp_gets]
          split
          · rename_i again
            cases again
          · exact refuse _ cutEq kb holds'.size_eq
        · intro minimum
          rw [if_neg (Nat.not_lt.mpr minimum)] at cutEq
          refine wp_imp (take _ _ cutEq) fun result served done => ?_
          intro sp' kb' errno' holds₂ errnoEq
          cases result with
          | none =>
              exact done sp' kb' errno' holds₂ errnoEq
          | some error =>
              have same := errnoEq error rfl
              subst same
              simp only [Option.isNone_some, Bool.false_eq_true,
                ↓reduceIte, wp_bind, errno, wp_gets]
              split
              · simp only [MsgCtx.buf, wp_bind, wp_zoom, wp_pure]
                refine wp_start holds₂ fun kb'' holds₃ => ?_
                exact done sp' kb'' _ holds₃ errnoEq
              · exact done sp' kb' _ holds₂ errnoEq
      · rw [if_neg add] at cutEq ⊢
        simp only [setErrno, msg, MsgCtx.setErrno, wp_bind, wp_zoom,
          wp_modify, wp_pure, Bool.false_eq_true, ↓reduceIte, errno,
          wp_gets]
        split
        · rename_i again
          cases again
        · exact refuse _ cutEq kb holds'.size_eq

end KcndbServer

end Kcn
