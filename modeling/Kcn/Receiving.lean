import Kcn.Client
import Kcn.Serving

namespace Kcn

open Program Bytes KcnBuf Framing

/-!
# Receiving responses

What the client makes of the bytes that have arrived is a framer, and the loop
of `kcn_client_read` handles its messages.
-/

/-- What ends the loop of `kcn_client_read`. -/
inductive ClientEnd where
  /-- A response without a locator. -/
  | answered (error : UInt8)
  | failed (error : Errno)
  deriving Repr, DecidableEq

/-- The value of `errno` that the loop leaves, from the one before. -/
def ClientEnd.errno (before : Errno) : ClientEnd → Errno
  | .answered error =>
      if error.toNat ≠ Errno.eagain then error.toNat else before
  | .failed error => error

theorem ClientEnd.errno_of_other
    {error : UInt8} (other : error.toNat ≠ Errno.eagain)
    (before : Errno) :
    (ClientEnd.answered error).errno before = error.toNat :=
  if_pos other

theorem ClientEnd.errno_of_again
    {error : UInt8} (again : error.toNat = Errno.eagain)
    (before : Errno) :
    (ClientEnd.answered error).errno before = before :=
  if_neg (not_not.mpr again)

/-- What `kcn_client_read` takes off the data at the head of the buffer. -/
def clientCut (bytes : List UInt8) :
    Cut UInt8 KcnMsgResponse ClientEnd :=
  match headerVerdict bytes with
  | .wait => .wait
  | .refuse error => .refuse (.failed error)
  | .accept kmh =>
      let body := bytes.drop kcnMsgHdrsiz
      if kmh.kmhType ≠ KcnMsgType.response.code then
        .refuse (.failed Errno.einval)
      else if kmh.kmhLen < kcnMsgResponseMinsiz then
        .refuse (.failed Errno.einval)
      else
        .take (responseOf kmh.kmhLen body) (body.drop kmh.kmhLen)

/-! ### Later bytes do not matter -/

theorem responseOf_append
    {body : List UInt8} {length : Nat}
    (minimum : kcnMsgResponseMinsiz ≤ length)
    (enough : length ≤ body.length) (more : List UInt8) :
    responseOf length (body ++ more) = responseOf length body := by
  unfold kcnMsgResponseMinsiz at minimum
  have loc :
      2 + (length - kcnMsgResponseMinsiz) ≤ body.length := by
    unfold kcnMsgResponseMinsiz
    omega
  rw [responseOf, responseOf, octet_append (by omega),
    octet_append (by omega), slice_append_left _ _ _ _ loc]

theorem clientCut_accepted
    {bytes : List UInt8} {kmh : KcnMsgHeader}
    (accepted : headerVerdict bytes = .accept kmh) :
    clientCut bytes =
      if kmh.kmhType ≠ KcnMsgType.response.code then
        .refuse (.failed Errno.einval)
      else if kmh.kmhLen < kcnMsgResponseMinsiz then
        .refuse (.failed Errno.einval)
      else
        .take (responseOf kmh.kmhLen (bytes.drop kcnMsgHdrsiz))
          ((bytes.drop kcnMsgHdrsiz).drop kmh.kmhLen) := by
  rw [clientCut, accepted]

/-- Once the client does not wait, later bytes do not change what it does. -/
theorem clientCut_append
    {bytes : List UInt8} (decided : clientCut bytes ≠ .wait)
    (more : List UInt8) :
    clientCut (bytes ++ more) = (clientCut bytes).later more := by
  have headerDecided : headerVerdict bytes ≠ .wait := by
    intro waits
    rw [clientCut, waits] at decided
    exact decided rfl
  have same := headerVerdict_append headerDecided more
  cases verdict : headerVerdict bytes with
  | wait =>
      exact absurd verdict headerDecided
  | refuse error =>
      rw [verdict] at same
      rw [clientCut, clientCut, same, verdict]
      rfl
  | accept kmh =>
      rw [verdict] at same
      have whole := (accepted_of_verdict verdict).whole
      have header :
          (bytes ++ more).drop kcnMsgHdrsiz =
            bytes.drop kcnMsgHdrsiz ++ more :=
        List.drop_append_of_le_length (by omega)
      have bodyLength :
          kmh.kmhLen ≤ (bytes.drop kcnMsgHdrsiz).length := by
        rw [List.length_drop]
        omega
      rw [clientCut_accepted same, clientCut_accepted verdict, header,
        List.drop_append_of_le_length bodyLength]
      split
      · rfl
      · split
        · rfl
        · rename_i long
          rw [responseOf_append (Nat.le_of_not_lt long) bodyLength]
          rfl

/-- What is taken off is not empty. -/
theorem clientCut_shrinks
    {bytes rest : List UInt8} {kmr : KcnMsgResponse}
    (takes : clientCut bytes = .take kmr rest) :
    rest.length < bytes.length := by
  cases verdict : headerVerdict bytes with
  | wait =>
      rw [clientCut, verdict] at takes
      cases takes
  | refuse error =>
      rw [clientCut, verdict] at takes
      cases takes
  | accept kmh =>
      have whole := (accepted_of_verdict verdict).whole
      have header : 0 < kcnMsgHdrsiz := by decide
      rw [clientCut_accepted verdict] at takes
      split at takes
      · cases takes
      · split at takes
        · cases takes
        · cases takes
          rw [List.length_drop, List.length_drop]
          omega

/-- The framer of the client. -/
def clientFramer : Framer UInt8 KcnMsgResponse ClientEnd :=
  .ofLater clientCut (fun _ _ _ => clientCut_shrinks)
    fun _ more decided => clientCut_append decided more

/-- Data that waits for more is shorter than the input buffer. -/
theorem length_of_clientCut_wait
    {bytes : List UInt8} (waits : clientCut bytes = .wait) :
    bytes.length < kcnMsgMaxsiz := by
  apply length_of_headerVerdict_wait
  cases verdict : headerVerdict bytes with
  | wait =>
      rfl
  | refuse error =>
      rw [clientCut, verdict] at waits
      cases waits
  | accept kmh =>
      rw [clientCut_accepted verdict] at waits
      split at waits
      · cases waits
      · split at waits <;> cases waits

/-! ### The loop of the client -/

/-- The locator that is stored for a response. -/
def KcnMsgResponse.stored (kmr : KcnMsgResponse) : KcnLoc where
  klUri := kmr.kmrLoc.getD [] ++ [0]
  klScore := kmr.kmrScore.toNat

namespace NetCtx

/-- A client that has read on and stored some more. -/
def storing
    (ctx : NetCtx KcnClientResponse) (kb : KcnBuf) (errno : Errno)
    (answers : List NetAnswer) (ki : KcnInfo) :
    NetCtx KcnClientResponse where
  kn := { ctx.kn with knIbuf := kb }
  io := {
    ctx.io with
    env := { ctx.io.env with errno := errno }
    answers := answers
  }
  data := { ctx.data with kcrKi := ki }

end NetCtx

namespace KcnClient

open NetCtx

/-- Responses with locators are taken off the data and stored. -/
structure Stored
    (ctx : NetCtx KcnClientResponse) (bytes : List UInt8)
    (kmrs : List KcnMsgResponse) (rest : List UInt8)
    (answers : List NetAnswer) (ki : KcnInfo) : Prop where
  takes : clientFramer.Takes bytes kmrs rest
  located : ∀ kmr ∈ kmrs, kmr.kmrLoclen ≠ 0
  answers_eq :
    ctx.io.answers =
      List.replicate kmrs.length (.malloc true) ++ answers
  loctype_eq : ki.kiLoctype = ctx.data.kcrKi.kiLoctype
  maxnlocs_eq : ki.kiMaxnlocs = ctx.data.kcrKi.kiMaxnlocs
  locs_eq :
    ki.kiLocs = ctx.data.kcrKi.kiLocs ++ kmrs.map KcnMsgResponse.stored

/-- How the loop of `kcn_client_read` ends, and what `errno` it leaves. -/
inductive Reads
    (ctx : NetCtx KcnClientResponse) (size : Nat) (bytes : List UInt8) :
    NetCtx KcnClientResponse → Prop where
  | waits
      (kmrs : List KcnMsgResponse) (rest : List UInt8)
      (answers : List NetAnswer) (ki : KcnInfo) (sp : Nat) (kb : KcnBuf) :
      Stored ctx bytes kmrs rest answers ki →
      clientCut rest = .wait →
      kb.Holds size sp [] rest →
      Reads ctx size bytes (ctx.storing kb Errno.eagain answers ki)
  | refuses
      (kmrs : List KcnMsgResponse) (rest : List UInt8)
      (answers : List NetAnswer) (ki : KcnInfo) (error : Errno)
      (kb : KcnBuf) :
      Stored ctx bytes kmrs rest answers ki →
      clientCut rest = .refuse (.failed error) →
      kb.size = size →
      Reads ctx size bytes (ctx.storing kb error answers ki)
  | answered
      (kmrs : List KcnMsgResponse) (rest : List UInt8)
      (answers : List NetAnswer) (ki : KcnInfo) (kmr : KcnMsgResponse)
      (later : List UInt8) (sp : Nat) (kb : KcnBuf) :
      Stored ctx bytes kmrs rest answers ki →
      clientCut rest = .take kmr later →
      kmr.kmrLoclen = 0 →
      kb.Holds size sp [] later →
      Reads ctx size bytes
        (ctx.storing kb
          ((ClientEnd.answered kmr.kmrError).errno ctx.io.env.errno)
          answers ki)
  | full
      (kmrs : List KcnMsgResponse) (rest : List UInt8)
      (answers : List NetAnswer) (ki : KcnInfo) (kmr : KcnMsgResponse)
      (later : List UInt8) (sp : Nat) (kb : KcnBuf) :
      Stored ctx bytes kmrs rest answers ki →
      clientCut rest = .take kmr later →
      kmr.kmrLoclen ≠ 0 →
      ki.kiMaxnlocs = ki.nlocs →
      kb.Holds size sp [] later →
      Reads ctx size bytes
        (ctx.storing kb Errno.etoomanyrefs answers ki)
  | noMemory
      (kmrs : List KcnMsgResponse) (rest : List UInt8)
      (answers : List NetAnswer) (ki : KcnInfo) (kmr : KcnMsgResponse)
      (later : List UInt8) (sp : Nat) (kb : KcnBuf) :
      Stored ctx bytes kmrs rest (.malloc false :: answers) ki →
      clientCut rest = .take kmr later →
      kmr.kmrLoclen ≠ 0 →
      kb.Holds size sp [] later →
      Reads ctx size bytes
        (ctx.storing kb IoError.enomem.errno answers ki)

variable
  {ctx : NetCtx KcnClientResponse} {size sp : Nat} {bytes : List UInt8}

/-- Nothing is taken yet. -/
theorem Stored.nil
    (ctx : NetCtx KcnClientResponse) (bytes : List UInt8) :
    Stored ctx bytes [] bytes ctx.io.answers ctx.data.kcrKi where
  takes := .nil bytes
  located := nofun
  answers_eq := rfl
  loctype_eq := rfl
  maxnlocs_eq := rfl
  locs_eq := by
    rw [List.map_nil, List.append_nil]

/-- The state after the first response is stored. -/
structure Next
    (ctx : NetCtx KcnClientResponse) (kmr : KcnMsgResponse)
    (answers : List NetAnswer) (ki : KcnInfo) : Prop where
  answers_eq : ctx.io.answers = .malloc true :: answers
  loctype_eq : ki.kiLoctype = ctx.data.kcrKi.kiLoctype
  maxnlocs_eq : ki.kiMaxnlocs = ctx.data.kcrKi.kiMaxnlocs
  locs_eq : ki.kiLocs = ctx.data.kcrKi.kiLocs ++ [kmr.stored]

theorem Stored.cons
    {later rest : List UInt8} {kmr : KcnMsgResponse}
    {kmrs : List KcnMsgResponse} {kb : KcnBuf} {errno : Errno}
    {answers answers' : List NetAnswer} {ki ki' : KcnInfo}
    (cut : clientCut bytes = .take kmr later)
    (located : kmr.kmrLoclen ≠ 0)
    (next : Next ctx kmr answers ki)
    (stored :
      Stored (ctx.storing kb errno answers ki) later kmrs rest answers'
        ki') :
    Stored ctx bytes (kmr :: kmrs) rest answers' ki' where
  takes := .cons cut stored.takes
  located := by
    intro kmr' member
    rcases List.mem_cons.mp member with rfl | inside
    · exact located
    · exact stored.located kmr' inside
  answers_eq := by
    have others : answers = _ := stored.answers_eq
    rw [next.answers_eq, others]
    rfl
  loctype_eq := stored.loctype_eq.trans next.loctype_eq
  maxnlocs_eq := stored.maxnlocs_eq.trans next.maxnlocs_eq
  locs_eq := by
    have others : ki'.kiLocs = ki.kiLocs ++ _ := stored.locs_eq
    rw [others, next.locs_eq, List.append_assoc]
    rfl

/-- What the loop does behind the first response is what it does. -/
theorem Reads.cons
    {later : List UInt8} {kmr : KcnMsgResponse} {kb : KcnBuf}
    {answers : List NetAnswer} {ki : KcnInfo}
    {ctx' : NetCtx KcnClientResponse}
    (cut : clientCut bytes = .take kmr later)
    (located : kmr.kmrLoclen ≠ 0)
    (next : Next ctx kmr answers ki)
    (reads :
      Reads (ctx.storing kb ctx.io.env.errno answers ki) size later
        ctx') :
    Reads ctx size bytes ctx' := by
  cases reads with
  | waits kmrs rest answers' ki' sp kb' stored waits holds =>
      exact .waits _ rest _ _ sp kb' (stored.cons cut located next) waits
        holds
  | refuses kmrs rest answers' ki' error kb' stored refuses sizeEq =>
      exact .refuses _ rest _ _ error kb' (stored.cons cut located next)
        refuses sizeEq
  | answered kmrs rest answers' ki' last more sp kb' stored takes none
      holds =>
      exact .answered _ rest _ _ last more sp kb'
        (stored.cons cut located next) takes none holds
  | full kmrs rest answers' ki' last more sp kb' stored takes some full
      holds =>
      exact .full _ rest _ _ last more sp kb'
        (stored.cons cut located next) takes some full holds
  | noMemory kmrs rest answers' ki' last more sp kb' stored takes some
      holds =>
      exact .noMemory _ rest _ _ last more sp kb'
        (stored.cons cut located next) takes some holds

/-- What `kcn_client_read` does with one response. -/
inductive Handles
    (ctx : NetCtx KcnClientResponse) (size : Nat) (bytes : List UInt8)
    (kmr : KcnMsgResponse) (kb : KcnBuf) :
    Bool → NetCtx KcnClientResponse → Prop where
  | ends {ctx' : NetCtx KcnClientResponse} :
      Reads ctx size bytes ctx' →
      Handles ctx size bytes kmr kb false ctx'
  | goesOn (answers : List NetAnswer) (ki : KcnInfo) :
      kmr.kmrLoclen ≠ 0 →
      Next ctx kmr answers ki →
      Handles ctx size bytes kmr kb true
        (ctx.storing kb ctx.io.env.errno answers ki)

/-- A response that is not stored ends the loop. -/
theorem wp_store
    (ctx : NetCtx KcnClientResponse) {halt : Stop → Prop}
    {kmr : KcnMsgResponse} {later : List UInt8} {kb : KcnBuf}
    (starved :
      kmr.kmrLoclen ≠ 0 →
      (∀ ok rest, ctx.io.answers ≠ .malloc ok :: rest) →
      halt .starved)
    (cut : clientCut bytes = .take kmr later)
    (holds : kb.Holds size sp [] later) :
    wp (store kmr) (Handles ctx size bytes kmr kb) halt
      (ctx.storing kb ctx.io.env.errno ctx.io.answers
        ctx.data.kcrKi) := by
  have none := Stored.nil ctx bytes
  unfold store
  split
  · rename_i ended
    have answered :=
      Reads.answered [] bytes _ _ kmr later sp kb none cut ended holds
    simp only [ClientEnd.errno] at answered
    split
    · rename_i other
      rw [if_pos other] at answered
      simp only [setErrno, sys, NetIo.setErrno, wp_bind, wp_zoom,
        wp_modify]
      exact .ends answered
    · rename_i again
      rw [if_neg again] at answered
      exact .ends answered
  · rename_i located
    rw [wp_bind, wp_gets]
    split
    · rename_i full
      simp only [setErrno, sys, NetIo.setErrno, wp_bind, wp_zoom,
        wp_modify]
      exact .ends
        (.full [] bytes _ _ kmr later sp kb none cut located full holds)
    · rename_i room
      unfold KcnInfo.locAdd
      rw [wp_bind, wp_gets]
      split
      · rename_i inside
        rw [wp_bind, sys, wp_zoom]
        apply NetIo.wp_malloc_cases (starved located)
        · intro rest answered
          refine .goesOn rest _ located ⟨answered, rfl, rfl, rfl⟩
        · intro rest answered
          have stored : Stored ctx bytes [] bytes (.malloc false :: rest)
              ctx.data.kcrKi :=
            { none with answers_eq := answered }
          exact .ends
            (.noMemory [] bytes _ _ kmr later sp kb stored cut located
              holds)
      · rename_i outside
        have limit := ctx.data.kcrKi.nlocs_le
        exact absurd
          (Nat.le_antisymm (Nat.le_of_not_lt outside) limit) room

/-- A locator is to be stored and no answer says whether there is memory. -/
def Starves (ctx : NetCtx KcnClientResponse) (bytes : List UInt8) :
    Prop :=
  ∃ kmrs rest answers ki kmr later,
    Stored ctx bytes kmrs rest answers ki ∧
      clientCut rest = .take kmr later ∧ kmr.kmrLoclen ≠ 0 ∧
      ∀ ok more, answers ≠ .malloc ok :: more

theorem Starves.behind
    {later : List UInt8} {kmr : KcnMsgResponse} {kb : KcnBuf}
    {errno : Errno} {answers : List NetAnswer} {ki : KcnInfo}
    (starves : Starves (ctx.storing kb errno answers ki) later)
    (cut : clientCut bytes = .take kmr later)
    (located : kmr.kmrLoclen ≠ 0)
    (next : Next ctx kmr answers ki) :
    Starves ctx bytes := by
  obtain ⟨kmrs, rest, answers', ki', last, more, stored, takes, some,
    missing⟩ := starves
  exact ⟨_, rest, answers', ki', last, more,
    stored.cons cut located next, takes, some, missing⟩

/-- The loop of `kcn_client_read` violates no assertion. -/
theorem wp_readLoop
    {halt : Stop → Prop}
    (starved : Starves ctx bytes → halt .starved)
    (holds : ctx.kn.knIbuf.Holds size sp [] bytes)
    {rounds : Nat} (bound : bytes.length < rounds) :
    wp (readLoop rounds) (fun _ ctx' => Reads ctx size bytes ctx') halt
      ctx := by
  induction rounds generalizing ctx sp bytes with
  | zero =>
      exact absurd bound (Nat.not_lt_zero _)
  | succ rounds inductionHypothesis =>
      have none := Stored.nil ctx bytes
      unfold readLoop
      rw [wp_bind, wp_zoom]
      apply KcnMsg.wp_headerDecode holds
      · intro waits kb holds'
        have cutEq : clientCut bytes = .wait := by
          rw [clientCut, waits]
        exact .waits [] bytes _ _ sp kb none cutEq holds'
      · intro error refused kb sizeEq
        have cutEq : clientCut bytes = .refuse (.failed error) := by
          rw [clientCut, refused]
        exact .refuses [] bytes _ _ error kb none cutEq sizeEq
      · intro kmh accepted kb holds'
        have cutEq := clientCut_accepted accepted
        have whole := (accepted_of_verdict accepted).whole
        have inside :
            kmh.kmhLen ≤ (bytes.drop kcnMsgHdrsiz).length := by
          rw [List.length_drop]
          omega
        simp only
        split
        · rename_i foreign
          rw [if_pos foreign] at cutEq
          simp only [setErrno, sys, NetIo.setErrno, wp_zoom, wp_modify]
          exact .refuses [] bytes _ _ Errno.einval kb none cutEq
            holds'.size_eq
        · rename_i isResponse
          rw [if_neg isResponse] at cutEq
          rw [wp_bind, wp_zoom]
          apply KcnMsg.wp_responseDecode holds' inside
          · intro short
            rw [if_pos short] at cutEq
            exact .refuses [] bytes _ _ Errno.einval kb none cutEq
              holds'.size_eq
          · intro long kb' holds''
            rw [if_neg (Nat.not_lt.mpr long)] at cutEq
            have shorter := clientCut_shrinks cutEq
            simp only [wp_bind]
            have here :
                (responseOf kmh.kmhLen
                  (bytes.drop kcnMsgHdrsiz)).kmrLoclen ≠ 0 →
                (∀ ok rest, ctx.io.answers ≠ .malloc ok :: rest) →
                halt .starved :=
              fun located missing =>
                starved ⟨[], bytes, _, _, _, _, none, cutEq, located,
                  missing⟩
            apply wp_imp (wp_store ctx here cutEq holds'')
            rintro goes ctx' outcome
            cases outcome with
            | ends reads =>
                rw [if_neg Bool.false_ne_true]
                exact reads
            | goesOn answers ki located next =>
                rw [if_pos rfl]
                apply wp_imp
                  (inductionHypothesis
                    (fun starves =>
                      starved (starves.behind cutEq located next))
                    holds''
                    (Nat.lt_of_lt_of_le shorter
                      (Nat.le_of_lt_succ bound)))
                intro _ ctx'' reads
                exact reads.cons cutEq located next

/-- `kcn_client_read` -/
theorem wp_read
    {halt : Stop → Prop}
    (starved : Starves ctx bytes → halt .starved)
    {post : Errno → NetCtx KcnClientResponse → Prop}
    (holds : ctx.kn.knIbuf.Holds size sp [] bytes)
    (next : ∀ ctx', Reads ctx size bytes ctx' →
      post ctx'.io.env.errno {
        ctx' with
        data := { ctx'.data with kcrError := ctx'.io.env.errno }
      }) :
    wp read post halt ctx := by
  unfold read
  rw [wp_bind, wp_gets, holds.trailingdata_eq, wp_bind]
  apply wp_imp (wp_readLoop starved holds (Nat.lt_succ_self _))
  intro _ ctx' reads
  exact next ctx' reads

end KcnClient

end Kcn
