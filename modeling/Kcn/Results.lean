import Kcn.Delivery
import Kcn.Receiving

namespace Kcn

open Program Bytes KcnBuf Framing

/-!
# The stream of results

What the server sends for the results of a search and what the client makes of
it.  A response without a locator ends the results, and so does one whose
locator is empty.
-/

/-- The response for a result and its score. -/
def resultResponse (result : KcndbDbRecord × Nat) : KcnMsgResponse where
  kmrError := 0
  kmrScore := UInt8.ofNat result.2
  kmrLoc := some result.1.kdrLoc

/-- The response that ends the results. -/
def finalResponse (error : UInt8) : KcnMsgResponse where
  kmrError := error
  kmrScore := 0
  kmrLoc := none

/-- The bytes of a response. -/
def responseFrame (kmr : KcnMsgResponse) : List UInt8 :=
  frame .response (responseBody kmr)

/-- The bytes that the server sends for a search. -/
def resultStream
    (results : List (KcndbDbRecord × Nat)) (error : UInt8) :
    List UInt8 :=
  (results.map fun result => responseFrame (resultResponse result)).flatten
    ++ responseFrame (finalResponse error)

/-- The body of a result fits into a frame. -/
theorem length_resultResponse
    {result : KcndbDbRecord × Nat}
    (fits : result.1.kdrLoc.length ≤ kcnMsgMaxlocsiz) :
    kcnMsgResponseMinsiz + (resultResponse result).kmrLoclen ≤
      kcnMsgMaxbodysiz := by
  have located :
      (resultResponse result).kmrLoclen = result.1.kdrLoc.length :=
    rfl
  rw [located]
  unfold kcnMsgMaxlocsiz kcnMsgMaxbodysiz kcnMsgMaxsiz kcnMsgHdrsiz
    kcnMsgResponseMinsiz kcnMsgAddMinsiz at *
  omega

/-- The body of the final response fits into a frame. -/
theorem length_finalResponse (error : UInt8) :
    kcnMsgResponseMinsiz + (finalResponse error).kmrLoclen ≤
      kcnMsgMaxbodysiz := by
  have unlocated : (finalResponse error).kmrLoclen = 0 := rfl
  rw [unlocated]
  decide

/-! ### The server -/

namespace KcndbServer

open NetCtx

/-- One `kcndb_server_response_send` for each result, and the final one. -/
def respondAll {δ : Type} (error : UInt8) :
    List (KcndbDbRecord × Nat) → NetOp δ Bool
  | [] => responseSend none error.toNat
  | result :: later => do
      if ← responseSend (some result.1) result.2 then
        respondAll error later
      else
        pure false

variable
  {δ : Type} {halt : Stop → Prop} {ctx : NetCtx δ}

/-- What `kcn_net_write` leaves of the output buffer and the queue. -/
structure Wrote (ctx : NetCtx δ) (message : List UInt8) (ok : Bool)
    (ctx' : NetCtx δ) : Prop where
  size_eq :
    ctx'.kn.knObufdata.kbdSize = ctx.kn.knObufdata.kbdSize
  queued_eq : ok = true →
    ctx'.io.queued = ctx.io.queued ++ [message]

theorem wp_write (starved : halt .starved) :
    wp KcnNet.write (Wrote ctx ctx.kn.knObufdata.init.data) halt ctx := by
  unfold KcnNet.write
  simp only [wp_bind, state, wp_gets]
  split
  · exact ⟨rfl, fun sent => by cases sent⟩
  · simp only [KcnNet.enqueue, sys, wp_bind, wp_zoom]
    apply NetIo.wp_malloc starved
    intro ok env rest _
    cases ok with
    | false =>
        exact ⟨rfl, fun sent => by cases sent⟩
    | true =>
        simp only [↓reduceIte, wp_bind, setKn, wp_modify, wp_pure]
        apply KcnNet.wp_writeEnable starved
        · intro _
          exact ⟨rfl, fun _ => rfl⟩
        · intro _ _ _
          exact ⟨rfl, fun _ => rfl⟩
        · intro _ _ _ _
          exact ⟨rfl, fun sent => by cases sent⟩

/-- Sending a response that fits queues its frame. -/
theorem wp_sendEncoded
    (starved : halt .starved) (kmr : KcnMsgResponse)
    (output : ctx.kn.knObufdata.kbdSize = kcnMsgMaxsiz)
    (fits : (responseBody kmr).length ≤ kcnMsgMaxbodysiz) :
    wp
      (do
        zoom obufLens (KcnMsg.responseEncode kmr)
        KcnNet.write)
      (Wrote ctx (responseFrame kmr)) halt ctx := by
  rw [wp_bind]
  apply wp_encode (KcnMsg.responseEncode_encodes kmr) output fits
  intro kb sizeEq data
  have wrote :
      wp KcnNet.write
        (Wrote (obufLens.set ctx kb) (KcnBufData.ofBuf kb).init.data)
        halt (obufLens.set ctx kb) :=
    wp_write starved
  rw [data] at wrote
  apply wp_imp wrote
  rintro ok ctx' ⟨sameSize, queuedEq⟩
  exact ⟨sameSize.trans (sizeEq.trans output.symm), queuedEq⟩

theorem wp_responseSend_result
    (starved : halt .starved) (result : KcndbDbRecord × Nat)
    (output : ctx.kn.knObufdata.kbdSize = kcnMsgMaxsiz)
    (fits : result.1.kdrLoc.length ≤ kcnMsgMaxlocsiz) :
    wp (responseSend (some result.1) result.2)
      (Wrote ctx (responseFrame (resultResponse result))) halt ctx := by
  apply wp_sendEncoded starved (resultResponse result) output
  rw [length_responseBody]
  exact length_resultResponse fits

theorem wp_responseSend_final
    (starved : halt .starved) (error : UInt8)
    (output : ctx.kn.knObufdata.kbdSize = kcnMsgMaxsiz) :
    wp (responseSend none error.toNat)
      (Wrote ctx (responseFrame (finalResponse error))) halt ctx := by
  have same : finalResponse error = finalResponse (.ofNat error.toNat) := by
    rw [UInt8.ofNat_toNat]
  rw [same]
  apply wp_sendEncoded starved (finalResponse _) output
  rw [length_responseBody]
  exact length_finalResponse _

/-- The server queues the stream of the results. -/
theorem wp_respondAll
    (starved : halt .starved) (error : UInt8)
    (results : List (KcndbDbRecord × Nat))
    (output : ctx.kn.knObufdata.kbdSize = kcnMsgMaxsiz)
    (fits : ∀ result ∈ results,
      result.1.kdrLoc.length ≤ kcnMsgMaxlocsiz) :
    wp (respondAll error results)
      (fun ok ctx' => ok = true →
        ctx'.io.queued.flatten =
          ctx.io.queued.flatten ++ resultStream results error)
      halt ctx := by
  induction results generalizing ctx with
  | nil =>
      apply wp_imp (wp_responseSend_final starved error output)
      rintro ok ctx' wrote sent
      rw [wrote.queued_eq sent, List.flatten_append,
        List.flatten_singleton]
      rfl
  | cons result later inductionHypothesis =>
      unfold respondAll
      rw [wp_bind]
      apply wp_imp
        (wp_responseSend_result starved result output
          (fits result List.mem_cons_self))
      rintro ok ctx₁ wrote
      cases ok with
      | false =>
          exact nofun
      | true =>
          rw [if_pos rfl]
          apply wp_imp
            (inductionHypothesis (wrote.size_eq.trans output)
              fun result' member =>
                fits result' (List.mem_cons_of_mem _ member))
          intro ok ctx' queued sent
          rw [queued sent, wrote.queued_eq rfl, List.flatten_append,
            List.flatten_singleton, List.append_assoc]
          simp only [resultStream, List.map_cons, List.flatten_cons,
            List.append_assoc]

end KcndbServer

/-! ### What the stream says -/

/-- A proper beginning of a frame waits for the rest. -/
theorem clientCut_wait
    {kmr : KcnMsgResponse} {bytes more : List UInt8}
    (fits : (responseBody kmr).length ≤ kcnMsgMaxbodysiz)
    (whole : bytes ++ more = responseFrame kmr)
    (nonempty : more ≠ []) :
    clientCut bytes = .wait := by
  have accepted := headerVerdict_frame .response fits []
  have verdict : headerVerdict bytes = .wait := by
    by_contra decided
    have same := headerVerdict_append decided more
    rw [List.append_nil] at accepted
    rw [whole, responseFrame, accepted] at same
    have enough := (accepted_of_verdict same.symm).whole
    have length := congrArg List.length whole
    have positive := List.length_pos_iff.mpr nonempty
    rw [List.length_append, responseFrame, length_frame] at length
    simp only at enough
    omega
  rw [clientCut, verdict]

/-- A response as it is received: no locator in the place of an empty one. -/
def KcnMsgResponse.received (kmr : KcnMsgResponse) : KcnMsgResponse :=
  { kmr with
    kmrLoc := if kmr.kmrLoclen = 0 then none else kmr.kmrLoc }

theorem responseBody_received (kmr : KcnMsgResponse) :
    responseBody kmr.received = responseBody kmr := by
  unfold KcnMsgResponse.received
  split
  · rename_i empty
    have none : kmr.kmrLoc.getD [] = [] :=
      List.length_eq_zero_iff.mp empty
    simp only [responseBody, none, Option.getD_none]
  · rfl

/-- A frame is taken off, whatever follows it. -/
theorem clientCut_frame
    {kmr : KcnMsgResponse}
    (fits : (responseBody kmr).length ≤ kcnMsgMaxbodysiz)
    (rest : List UInt8) :
    clientCut (responseFrame kmr ++ rest) =
      .take kmr.received rest := by
  have present : kmr.received.kmrLoc ≠ some [] := by
    unfold KcnMsgResponse.received
    simp only
    split
    · exact nofun
    · rename_i located
      intro empty
      apply located
      rw [KcnMsgResponse.kmrLoclen, empty]
      rfl
  have decoded := responseOf_responseBody present rest
  rw [responseBody_received] at decoded
  have accepted := headerVerdict_frame .response fits rest
  have body :
      (responseFrame kmr ++ rest).drop kcnMsgHdrsiz =
        responseBody kmr ++ rest :=
    rfl
  have minimum :
      ¬ (responseBody kmr).length < kcnMsgResponseMinsiz := by
    rw [length_responseBody]
    exact Nat.not_lt.mpr (Nat.le_add_right _ _)
  rw [responseFrame] at body
  rw [responseFrame, clientCut_accepted accepted, body]
  simp only [ne_eq, not_true_eq_false, ↓reduceIte, minimum, decoded,
    List.drop_left]

/-- The bytes of responses, one after the other. -/
def responseStream (kmrs : List KcnMsgResponse) : List UInt8 :=
  (kmrs.map responseFrame).flatten

@[simp] theorem responseStream_cons
    (kmr : KcnMsgResponse) (kmrs : List KcnMsgResponse) :
    responseStream (kmr :: kmrs) =
      responseFrame kmr ++ responseStream kmrs :=
  rfl

/-- The responses for a search. -/
def responsesOf
    (results : List (KcndbDbRecord × Nat)) (error : UInt8) :
    List KcnMsgResponse :=
  results.map resultResponse ++ [finalResponse error]

theorem resultStream_eq
    (results : List (KcndbDbRecord × Nat)) (error : UInt8) :
    resultStream results error =
      responseStream (responsesOf results error) := by
  induction results with
  | nil =>
      simp [resultStream, responsesOf, responseStream]
  | cons result later inductionHypothesis =>
      simp only [resultStream, responsesOf, List.map_cons,
        List.flatten_cons, List.append_assoc, List.cons_append,
        responseStream_cons] at inductionHypothesis ⊢
      rw [inductionHypothesis]

/-- Every response fits into a frame. -/
def AllFit (kmrs : List KcnMsgResponse) : Prop :=
  ∀ kmr ∈ kmrs, (responseBody kmr).length ≤ kcnMsgMaxbodysiz

theorem AllFit.drop
    {kmrs : List KcnMsgResponse} (fits : AllFit kmrs) (count : Nat) :
    AllFit (kmrs.drop count) :=
  fun kmr member => fits kmr (List.mem_of_mem_drop member)

section Parts

variable
  {sent todo kmrs : List KcnMsgResponse}
  {bytes rest more : List UInt8}

/-- What the client takes off a part of a stream, and when it waits. -/
theorem clientCut_part
    (fits : AllFit todo) (whole : rest ++ more = responseStream todo) :
    clientCut rest = .wait ∧ (more = [] → todo = []) ∨
      ∃ kmr later todo', todo = kmr :: todo' ∧
        clientCut rest = .take kmr.received later ∧
        later ++ more = responseStream todo' := by
  cases todo with
  | nil =>
      have empty : rest = [] := (List.append_eq_nil_iff.mp whole).1
      rw [empty]
      exact Or.inl ⟨rfl, fun _ => rfl⟩
  | cons kmr todo' =>
      have fitsFirst := fits kmr List.mem_cons_self
      rw [responseStream_cons] at whole
      rcases List.append_eq_append_iff.mp whole with
        ⟨missing, frameEq, moreEq⟩ | ⟨later, restEq, streamEq⟩
      · by_cases none : missing = []
        · refine Or.inr ⟨kmr, [], todo', rfl, ?_, ?_⟩
          · have atEnd := clientCut_frame fitsFirst []
            rw [frameEq, none, List.append_nil, List.append_nil] at atEnd
            exact atEnd
          · rw [moreEq, none]
            rfl
        · refine Or.inl ⟨clientCut_wait fitsFirst frameEq.symm none, ?_⟩
          intro empty
          rw [empty] at moreEq
          exact absurd (List.append_eq_nil_iff.mp moreEq.symm).1 none
      · refine Or.inr ⟨kmr, later, todo', rfl, ?_, streamEq.symm⟩
        rw [restEq]
        exact clientCut_frame fitsFirst later

/-- The messages taken off a part of a stream are the first ones. -/
theorem takes_part
    (takes : clientFramer.Takes bytes kmrs rest)
    (fits : AllFit sent) (whole : bytes ++ more = responseStream sent) :
    kmrs = (sent.take kmrs.length).map KcnMsgResponse.received ∧
      rest ++ more = responseStream (sent.drop kmrs.length) := by
  induction takes generalizing sent with
  | nil bytes =>
      exact ⟨rfl, whole⟩
  | cons cut _ inductionHypothesis =>
      rcases clientCut_part fits whole with
        ⟨waits, _⟩ | ⟨kmr, later, todo', rfl, takes, laterEq⟩
      · exact absurd (cut.symm.trans waits) nofun
      · cases cut.symm.trans takes
        obtain ⟨others, restEq⟩ :=
          inductionHypothesis
            (fun kmr' member =>
              fits kmr' (List.mem_cons_of_mem _ member))
            laterEq
        refine ⟨?_, restEq⟩
        rw [List.length_cons, List.take_succ_cons, List.map_cons,
          ← others]

end Parts

/-! ### The client -/

theorem stored_received (kmr : KcnMsgResponse) :
    kmr.received.stored = kmr.stored := by
  unfold KcnMsgResponse.received
  split
  · rename_i empty
    have none : kmr.kmrLoc.getD [] = [] :=
      List.length_eq_zero_iff.mp empty
    simp only [KcnMsgResponse.stored, none, Option.getD_none]
  · rfl

theorem kmrLoclen_received (kmr : KcnMsgResponse) :
    kmr.received.kmrLoclen = kmr.kmrLoclen := by
  unfold KcnMsgResponse.received
  split
  · rename_i empty
    rw [empty]
    rfl
  · rfl

namespace KcnClient

open NetCtx

/--
The client has received a part of the responses, taken the first `count` off
it and has the data `bytes` left.  There is memory and room for the first
`limit` locators, and no other response has one.
-/
structure Receiving
    (sent : List KcnMsgResponse) (limit : Nat)
    (ctx : NetCtx KcnClientResponse) (bytes : List UInt8)
    (count : Nat) : Prop where
  fits : AllFit sent
  unlocated : ∀ kmr ∈ sent.drop limit, kmr.kmrLoclen = 0
  incoming_eq : ctx.io.incoming = responseStream sent
  takes :
    clientFramer.Takes (ctx.io.incoming.take ctx.io.received)
      ((sent.take count).map KcnMsgResponse.received) bytes
  count_le : count ≤ sent.length
  located : ∀ kmr ∈ sent.take count, kmr.kmrLoclen ≠ 0
  granted : ∀ answer ∈ ctx.io.answers, answer = .malloc true
  enough : limit ≤ count + ctx.io.answers.length
  room : limit ≤ ctx.data.kcrKi.kiMaxnlocs
  locs_eq :
    ctx.data.kcrKi.kiLocs =
      (sent.take count).map KcnMsgResponse.stored

/--
All up to the first response without a locator is stored, when `unread` is
still to come.
-/
def Ended
    (sent : List KcnMsgResponse) (unread : List UInt8)
    (before error : Errno) (ki : KcnInfo) : Prop :=
  ∃ first last later,
    sent = first ++ last :: later ∧
      (∀ kmr ∈ first, kmr.kmrLoclen ≠ 0) ∧ last.kmrLoclen = 0 ∧
      (later = [] → unread = []) ∧
      ki.kiLocs = first.map KcnMsgResponse.stored ∧
      error = (ClientEnd.answered last.kmrError).errno before

variable
  {sent : List KcnMsgResponse} {limit size sp count : Nat}
  {ctx ctx' : NetCtx KcnClientResponse} {bytes : List UInt8}

namespace Receiving

/-- What is left of the stream is that of the responses still to come. -/
theorem rest
    (receiving : Receiving sent limit ctx bytes count) :
    bytes ++ ctx.io.incoming.drop ctx.io.received =
      responseStream (sent.drop count) := by
  have whole :
      ctx.io.incoming.take ctx.io.received ++
          ctx.io.incoming.drop ctx.io.received =
        responseStream sent := by
    rw [List.take_append_drop, receiving.incoming_eq]
  have left := (takes_part receiving.takes receiving.fits whole).2
  rw [List.length_map, List.length_take,
    Nat.min_eq_left receiving.count_le] at left
  exact left

/-- What `kcn_client_read` took off the data. -/
theorem stored
    (receiving : Receiving sent limit ctx bytes count)
    {kmrs : List KcnMsgResponse} {rest : List UInt8}
    {answers : List NetAnswer} {ki : KcnInfo}
    (stored : Stored ctx bytes kmrs rest answers ki)
    (kb : KcnBuf) (errno : Errno) :
    Receiving sent limit (ctx.storing kb errno answers ki) rest
      (count + kmrs.length) := by
  obtain ⟨kmrsEq, _⟩ :=
    takes_part stored.takes (receiving.fits.drop count) receiving.rest
  have length := congrArg List.length kmrsEq
  rw [List.length_map, List.length_take, List.length_drop] at length
  have countLe := receiving.count_le
  have taken :
      sent.take (count + kmrs.length) =
        sent.take count ++ (sent.drop count).take kmrs.length :=
    List.take_add
  exact {
    fits := receiving.fits
    unlocated := receiving.unlocated
    incoming_eq := receiving.incoming_eq
    takes := by
      rw [taken, List.map_append, ← kmrsEq]
      exact receiving.takes.append stored.takes
    count_le := by
      omega
    located := by
      intro kmr member
      rw [taken] at member
      rcases List.mem_append.mp member with earlier | newer
      · exact receiving.located kmr earlier
      · rw [← kmrLoclen_received]
        apply stored.located
        rw [kmrsEq]
        exact List.mem_map_of_mem newer
    granted := by
      intro answer member
      apply receiving.granted
      rw [stored.answers_eq]
      exact List.mem_append_right _ member
    enough := by
      have lengths := congrArg List.length stored.answers_eq
      rw [List.length_append, List.length_replicate] at lengths
      have enough := receiving.enough
      simp only [NetCtx.storing]
      omega
    room := by
      have same := stored.maxnlocs_eq
      simp only [NetCtx.storing]
      rw [same]
      exact receiving.room
    locs_eq := by
      have newer :
          kmrs.map KcnMsgResponse.stored =
            ((sent.drop count).take kmrs.length).map
              KcnMsgResponse.stored := by
        calc
          kmrs.map KcnMsgResponse.stored =
              (((sent.drop count).take kmrs.length).map
                KcnMsgResponse.received).map KcnMsgResponse.stored :=
            congrArg _ kmrsEq
          _ = ((sent.drop count).take kmrs.length).map
                KcnMsgResponse.stored := by
            rw [List.map_map]
            exact List.map_congr_left fun kmr _ => stored_received kmr
      have locs := stored.locs_eq
      simp only [NetCtx.storing]
      rw [locs, receiving.locs_eq, taken, List.map_append, newer]
  }

/-- The data never makes the client refuse it. -/
theorem not_refused
    (receiving : Receiving sent limit ctx bytes count)
    (finish : ClientEnd) :
    clientCut bytes ≠ .refuse finish := by
  rcases clientCut_part (receiving.fits.drop count) receiving.rest with
    ⟨waits, _⟩ | ⟨_, _, _, _, takes, _⟩
  · rw [waits]
    exact nofun
  · rw [takes]
    exact nofun

/-- What is taken off the data is the next response. -/
theorem next
    (receiving : Receiving sent limit ctx bytes count)
    {kmr : KcnMsgResponse} {later : List UInt8}
    (cut : clientCut bytes = .take kmr later) :
    ∃ response todo, sent.drop count = response :: todo ∧
      kmr = response.received ∧
      later ++ ctx.io.incoming.drop ctx.io.received =
        responseStream todo := by
  rcases clientCut_part (receiving.fits.drop count) receiving.rest with
    ⟨waits, _⟩ | ⟨response, later', todo, dropEq, takes, laterEq⟩
  · rw [waits] at cut
    cases cut
  · rw [takes] at cut
    cases cut
    exact ⟨response, todo, dropEq, rfl, laterEq⟩

/-- Only the first `limit` responses have a locator. -/
theorem count_lt
    (receiving : Receiving sent limit ctx bytes count)
    {kmr : KcnMsgResponse} {later : List UInt8}
    (cut : clientCut bytes = .take kmr later)
    (located : kmr.kmrLoclen ≠ 0) :
    count < limit := by
  obtain ⟨response, todo, dropEq, rfl, _⟩ := receiving.next cut
  rw [kmrLoclen_received] at located
  by_contra past
  apply located
  apply receiving.unlocated
  have split :
      sent.drop count = (sent.drop limit).drop (count - limit) := by
    rw [List.drop_drop, Nat.add_sub_cancel' (Nat.le_of_not_lt past)]
  apply List.mem_of_mem_drop
  rw [← split, dropEq]
  exact List.mem_cons_self

/-- There is an answer about the memory for the next locator. -/
theorem not_starves
    (receiving : Receiving sent limit ctx bytes count) :
    ¬ Starves ctx bytes := by
  rintro ⟨kmrs, rest, answers, ki, kmr, later, stored, cut, located,
    missing⟩
  have after := receiving.stored stored ctx.kn.knIbuf ctx.io.env.errno
  have below := after.count_lt cut located
  have enough := after.enough
  simp only [NetCtx.storing] at enough
  cases answers with
  | nil =>
      rw [List.length_nil] at enough
      omega
  | cons answer others =>
      have granted := after.granted answer List.mem_cons_self
      exact missing true others (by rw [granted])

/-- What one `kcn_client_read` makes of a part of the stream. -/
theorem reads
    (receiving : Receiving sent limit ctx bytes count)
    (reads : Reads ctx size bytes ctx') :
    (∃ rest sp count',
      Receiving sent limit ctx' rest count' ∧
        ctx'.kn.knIbuf.Holds size sp [] rest ∧
        clientCut rest = .wait ∧
        ctx'.io.env.errno = Errno.eagain) ∨
      Ended sent (ctx.io.incoming.drop ctx.io.received)
        ctx.io.env.errno ctx'.io.env.errno ctx'.data.kcrKi := by
  cases reads with
  | waits kmrs rest answers ki sp kb stored waits holds =>
      exact Or.inl ⟨rest, sp, _, receiving.stored stored kb _, holds,
        waits, rfl⟩
  | refuses kmrs rest answers ki error kb stored refuses _ =>
      have after := receiving.stored stored kb error
      exact absurd refuses (after.not_refused _)
  | answered kmrs rest answers ki kmr later sp kb stored takes none _ =>
      have after := receiving.stored stored kb ctx.io.env.errno
      obtain ⟨response, todo, dropEq, rfl, laterEq⟩ := after.next takes
      refine Or.inr
        ⟨sent.take (count + kmrs.length), response, todo, ?_,
          after.located, ?_, ?_, after.locs_eq, rfl⟩
      · rw [← dropEq, List.take_append_drop]
      · rw [← kmrLoclen_received]
        exact none
      · intro last
        rw [last] at laterEq
        exact (List.append_eq_nil_iff.mp laterEq).2
  | full kmrs rest answers ki kmr later sp kb stored takes some full _ =>
      have after := receiving.stored stored kb ctx.io.env.errno
      have below := after.count_lt takes some
      have room := after.room
      have locs := congrArg List.length after.locs_eq
      rw [List.length_map, List.length_take] at locs
      simp only [NetCtx.storing] at room locs
      unfold KcnInfo.nlocs at full
      omega
  | noMemory kmrs rest answers ki kmr later sp kb stored takes some _ =>
      have refused : NetAnswer.malloc false ∈ ctx.io.answers := by
        rw [stored.answers_eq]
        exact List.mem_append_right _ List.mem_cons_self
      cases receiving.granted _ refused

end Receiving

/-- `kcn_buf_read` and `kcn_client_read` as `kcn_net_read_cb` calls them. -/
def readStep : ClientOp Errno := do
  let error ← zoom ibufLens KcndbFile.bufRead
  if error = 0 then
    read
  else
    pure error

/-- Reads until all is received or the client does not go on. -/
def receiveLoop : Nat → ClientOp Errno
  | 0 => stop .starved
  | rounds + 1 => do
      if ← gets fun ctx =>
          decide (ctx.io.received < ctx.io.incoming.length) then
        let error ← readStep
        if error = Errno.eagain then
          receiveLoop rounds
        else
          pure error
      else
        pure Errno.eagain

/-- Receive what the server sends. -/
def receive : ClientOp Errno := do
  let rounds ← gets fun ctx => ctx.io.env.trace.length + 1
  receiveLoop rounds

/-- A client that waits for what the server sends. -/
def listening
    (incoming : List UInt8) (memory : KcndbServer.InputBlock) (env : Env)
    (answers : List NetAnswer) (ki : KcnInfo) :
    NetCtx KcnClientResponse where
  kn := {
    KcnNet.setUp 0 memory.val [] with
    knState := .established
  }
  io := NetIo.start env answers incoming
  data := { kcrError := 0, kcrKi := ki }

/-- What one read adds to the data. -/
theorem Receiving.grow
    (receiving : Receiving sent limit ctx bytes count)
    {new : List UInt8} (kb : KcnBuf) (env : Env)
    (newEq :
      new = slice ctx.io.incoming ctx.io.received new.length) :
    Receiving sent limit
      (ibufLens.set ctx {
        file := {
          content := ctx.io.incoming
          off := ctx.io.received + new.length
          kb := kb
        }
        env := env
      })
      (bytes ++ new) count := by
  have longer :
      ctx.io.incoming.take (ctx.io.received + new.length) =
        ctx.io.incoming.take ctx.io.received ++ new := by
    rw [List.take_add]
    exact congrArg _ newEq.symm
  exact {
    receiving with
    takes := by
      simp only [ibufLens]
      rw [longer]
      exact receiving.takes.more new
  }

/-- `kcn_client_read` only moves in the data that was received. -/
theorem Reads.socket (reads : Reads ctx size bytes ctx') :
    ctx'.io.incoming = ctx.io.incoming ∧
      ctx'.io.received = ctx.io.received ∧
      ctx'.io.env.trace = ctx.io.env.trace := by
  cases reads <;> exact ⟨rfl, rfl, rfl⟩

/-- One read of a part of the stream that moves bytes. -/
theorem wp_readStep
    {post : Errno → NetCtx KcnClientResponse → Prop}
    {halt : Stop → Prop} {event : Event} {trace : Trace}
    (receiving : Receiving sent limit ctx bytes count)
    (holds : ctx.kn.knIbuf.Holds kcnMsgMaxsiz sp [] bytes)
    (few : bytes.length < kcnMsgMaxsiz)
    (answer : ctx.io.env.trace = event :: trace)
    (moves : event.Moves)
    (more : ctx.io.received < ctx.io.incoming.length)
    (goesOn : ∀ rest sp' count' ctx',
      Receiving sent limit ctx' rest count' →
      ctx'.kn.knIbuf.Holds kcnMsgMaxsiz sp' [] rest →
      clientCut rest = .wait →
      ctx'.io.incoming = ctx.io.incoming →
      ctx.io.received < ctx'.io.received →
      ctx'.io.env.errno = Errno.eagain →
      ctx'.io.env.trace = trace →
      (sp = 0 → ∀ transfer, event = .read transfer →
        ctx'.io.received =
          ctx.io.received +
            transfer.amount
              (min (kcnMsgMaxsiz - bytes.length)
                (ctx.io.incoming.length - ctx.io.received))) →
      post Errno.eagain ctx')
    (ends : ∀ unread error ctx',
      Ended sent unread ctx.io.env.errno error ctx'.data.kcrKi →
      ctx'.data.kcrError = error →
      ctx'.io.incoming = ctx.io.incoming →
      unread = ctx.io.incoming.drop ctx'.io.received →
      (sp = 0 → ∀ transfer, event = .read transfer →
        ctx'.io.received =
          ctx.io.received +
            transfer.amount
              (min (kcnMsgMaxsiz - bytes.length)
                (ctx.io.incoming.length - ctx.io.received))) →
      post error ctx') :
    wp readStep post halt ctx := by
  have len : ctx.kn.knIbuf.len = bytes.length := by
    rw [holds.len_eq, List.length_nil, Nat.zero_add]
  have room :
      (ibufLens.get ctx).file.kb.len < (ibufLens.get ctx).file.kb.size := by
    have size : ctx.kn.knIbuf.size = kcnMsgMaxsiz := holds.size_eq
    simp only [ibufLens, len, size]
    exact few
  unfold readStep
  rw [wp_bind, wp_zoom]
  apply KcndbFile.wp_bufRead_moves answer moves room more
  intro new kb nonempty newEq _ amount holds'
  have grown :=
    receiving.grow kb { ctx.io.env with trace := trace } newEq
  have holds'' : kb.Holds kcnMsgMaxsiz kb.sp [] (bytes ++ new) := by
    have same := holds'
    rw [show (ibufLens.get ctx).file.kb = ctx.kn.knIbuf from rfl,
      holds.size_eq, holds.before_eq, holds.after_eq] at same
    exact same
  rw [if_pos rfl]
  apply wp_read (fun starves => absurd starves grown.not_starves) holds''
  intro ctx₁ reads
  obtain ⟨incomingEq, receivedEq, traceEq⟩ := reads.socket
  have positive := List.length_pos_iff.mpr nonempty
  have moved (start : sp = 0) (transfer : Transfer)
      (same : event = .read transfer) :
      ctx₁.io.received =
        ctx.io.received +
          transfer.amount
            (min (kcnMsgMaxsiz - bytes.length)
              (ctx.io.incoming.length - ctx.io.received)) := by
    have startEq : (ibufLens.get ctx).file.kb.sp = 0 :=
      holds.sp_eq.trans start
    have count := amount startEq transfer same
    simp only [ibufLens, len, holds.size_eq] at count
    rw [receivedEq]
    simp only [ibufLens, count]
  rcases grown.reads reads with
    ⟨rest, sp', count', receiving', holds₁, waits, errnoEq⟩ | ended
  · rw [errnoEq]
    refine goesOn rest sp' count' _ { receiving' with } holds₁ waits
      incomingEq ?_ errnoEq traceEq moved
    simp only [receivedEq, ibufLens]
    omega
  · refine ends _ _ _ ended rfl incomingEq ?_ moved
    rw [receivedEq]
    rfl

/-- A stream has one final response and ends with it if it says `EAGAIN`. -/
structure Finished (sent : List KcnMsgResponse) : Prop where
  final : ∃ kmr ∈ sent, kmr.kmrLoclen = 0
  again : ∀ first last later, sent = first ++ last :: later →
    last.kmrError.toNat = Errno.eagain → later = []

/-- Before its final response a stream is not taken off completely. -/
theorem Receiving.incomplete
    (receiving : Receiving sent limit ctx bytes count)
    (finished : Finished sent) :
    count < sent.length := by
  obtain ⟨kmr, member, unlocated⟩ := finished.final
  by_contra complete
  have all : sent.take count = sent :=
    List.take_of_length_le (Nat.le_of_not_lt complete)
  have located := receiving.located
  rw [all] at located
  exact located kmr member unlocated

/-- While the client waits, something is still to come. -/
theorem Receiving.more
    (receiving : Receiving sent limit ctx bytes count)
    (finished : Finished sent) (waits : clientCut bytes = .wait) :
    ctx.io.received < ctx.io.incoming.length := by
  by_contra done
  have none :
      ctx.io.incoming.drop ctx.io.received = [] :=
    List.drop_eq_nil_of_le (Nat.le_of_not_lt done)
  rcases clientCut_part (receiving.fits.drop count) receiving.rest with
    ⟨_, last⟩ | ⟨_, _, _, _, takes, _⟩
  · have incomplete := receiving.incomplete finished
    have length := List.drop_eq_nil_iff.mp (last none)
    exact absurd incomplete (Nat.not_lt.mpr length)
  · rw [waits] at takes
    cases takes

/-- A stream that ended with `EAGAIN` was received completely. -/
theorem Ended.unread
    {unread : List UInt8} {before : Errno} {ki : KcnInfo}
    (ended : Ended sent unread before Errno.eagain ki)
    (finished : Finished sent) :
    unread = [] := by
  obtain ⟨first, last, later, sentEq, _, _, complete, _, errorEq⟩ := ended
  apply complete
  apply finished.again first last later sentEq
  unfold ClientEnd.errno at errorEq
  simp only at errorEq
  split at errorEq
  · exact errorEq.symm
  · rename_i again
    exact not_not.mp again

/-- There is nothing to receive any more. -/
theorem wp_receiveLoop_done
    {post : Errno → NetCtx KcnClientResponse → Prop}
    {halt : Stop → Prop} {rounds : Nat}
    (some : 0 < rounds)
    (done : ctx.io.incoming.length ≤ ctx.io.received)
    (next : post Errno.eagain ctx) :
    wp (receiveLoop rounds) post halt ctx := by
  cases rounds with
  | zero =>
      exact absurd some (Nat.lt_irrefl _)
  | succ rounds =>
      unfold receiveLoop
      rw [wp_bind, wp_gets, if_neg]
      · exact next
      · rw [decide_eq_true_eq]
        exact Nat.not_lt.mpr done

/--
The rest of the stream, after the first read: what ends the client finds the
`errno` that waiting left.
-/
theorem wp_receiveLoop
    {rounds : Nat}
    (finished : Finished sent)
    (receiving : Receiving sent limit ctx bytes count)
    (holds : ctx.kn.knIbuf.Holds kcnMsgMaxsiz sp [] bytes)
    (waits : clientCut bytes = .wait)
    (errnoEq : ctx.io.env.errno = Errno.eagain)
    (delivers :
      ctx.io.env.trace.Delivers
        (ctx.io.incoming.length - ctx.io.received))
    (bound : ctx.io.incoming.length - ctx.io.received < rounds) :
    wp (receiveLoop rounds)
      (fun _ ctx' => ∃ unread,
        Ended sent unread Errno.eagain ctx'.data.kcrError
          ctx'.data.kcrKi)
      (fun _ => False) ctx := by
  induction rounds generalizing ctx sp bytes count with
  | zero =>
      exact absurd bound (Nat.not_lt_zero _)
  | succ rounds inductionHypothesis =>
      have more := receiving.more finished waits
      unfold receiveLoop
      rw [wp_bind, wp_gets, if_pos (decide_eq_true more), wp_bind]
      obtain ⟨event, trace, answer, moves, delivers'⟩ :=
        delivers.next (Nat.sub_pos_of_lt more)
      apply wp_readStep receiving holds (length_of_clientCut_wait waits)
        answer moves more
      · intro rest sp' count' ctx' receiving' holds' waits' incomingEq
          further errnoEq' traceEq _
        rw [if_pos rfl]
        have less :
            ctx'.io.incoming.length - ctx'.io.received <
              ctx.io.incoming.length - ctx.io.received := by
          rw [incomingEq]
          omega
        apply inductionHypothesis receiving' holds' waits' errnoEq'
        · rw [traceEq]
          exact delivers' _ less
        · exact Nat.lt_of_lt_of_le less (Nat.le_of_lt_succ bound)
      · intro unread error ctx' ended errorEq incomingEq unreadEq _
        rw [errnoEq] at ended
        split
        · rename_i again
          have known :
              Ended sent unread Errno.eagain ctx'.data.kcrError
                ctx'.data.kcrKi := by
            rw [errorEq]
            exact ended
          rw [again] at ended
          have none := ended.unread finished
          rw [none] at unreadEq
          apply wp_receiveLoop_done
          · omega
          · rw [incomingEq]
            exact List.drop_eq_nil_iff.mp unreadEq.symm
          · exact ⟨unread, known⟩
        · rw [← errorEq] at ended
          exact ⟨unread, ended⟩

/-- The first read returns all of a stream of the given length. -/
def AtOnce (trace : Trace) (total : Nat) : Prop :=
  ∃ transfer, trace.head? = some (.read transfer) ∧
    transfer.amount (min kcnMsgMaxsiz total) = total

/-- A client that listens stores the results up to the first end. -/
theorem wp_receive
    {incoming : List UInt8} {memory : KcndbServer.InputBlock} {env : Env}
    {answers : List NetAnswer} {ki : KcnInfo}
    (finished : Finished sent)
    (receiving :
      Receiving sent limit (listening incoming memory env answers ki) []
        0)
    (delivers : env.trace.Delivers incoming.length) :
    wp receive
      (fun _ ctx' => ∃ unread before,
        Ended sent unread before ctx'.data.kcrError ctx'.data.kcrKi ∧
          (AtOnce env.trace incoming.length → before = env.errno) ∧
          (¬ AtOnce env.trace incoming.length →
            before = Errno.eagain ∨ unread ≠ []))
      (fun _ => False) (listening incoming memory env answers ki) := by
  have holds :
      (listening incoming memory env answers ki).kn.knIbuf.Holds
        kcnMsgMaxsiz 0 [] [] := by
    have fresh := holds_new memory.val
    rw [memory.property] at fresh
    exact fresh
  have more := receiving.more finished rfl
  obtain ⟨event, trace, answer, moves, delivers'⟩ := delivers.next more
  unfold receive
  rw [wp_bind, wp_gets]
  unfold receiveLoop
  rw [wp_bind, wp_gets, if_pos (decide_eq_true more), wp_bind]
  apply wp_readStep receiving holds (by decide) answer moves more
  · intro rest sp' count' ctx' receiving' holds' waits' incomingEq further
      errnoEq traceEq moved
    have total : ctx'.io.incoming.length = incoming.length :=
      congrArg List.length incomingEq
    have left : ctx'.io.incoming.length - ctx'.io.received <
        incoming.length := by
      rw [total]
      exact Nat.sub_lt more (Nat.zero_lt_of_lt further)
    rw [if_pos rfl]
    apply wp_imp
      (wp_receiveLoop finished receiving' holds' waits' errnoEq
        (by
          rw [traceEq]
          exact delivers' _ left)
        (Nat.lt_of_lt_of_le left delivers.enough))
    rintro _ ctx'' ⟨unread, ended⟩
    refine ⟨unread, Errno.eagain, ended, ?_, fun _ => Or.inl rfl⟩
    rintro ⟨transfer, head, all⟩
    have same : event = .read transfer := by
      have first : env.trace.head? = some event :=
        congrArg List.head? answer
      exact Option.some.inj (first.symm.trans head)
    have received : ctx'.io.received = incoming.length := by
      rw [moved rfl transfer same]
      simp only [listening, NetIo.start, List.length_nil, Nat.sub_zero,
        Nat.zero_add]
      exact all
    have unfinished := receiving'.more finished waits'
    rw [total, received] at unfinished
    exact absurd unfinished (Nat.lt_irrefl _)
  · intro unread error ctx' ended errorEq incomingEq unreadEq moved
    have result :
        ∃ unread before,
          Ended sent unread before ctx'.data.kcrError ctx'.data.kcrKi ∧
            (AtOnce env.trace incoming.length → before = env.errno) ∧
            (¬ AtOnce env.trace incoming.length →
              before = Errno.eagain ∨ unread ≠ []) := by
      refine ⟨unread, env.errno, ?_, fun _ => rfl, ?_⟩
      · rw [errorEq]
        exact ended
      · intro parts
        apply Or.inr
        intro none
        apply parts
        obtain ⟨transfer, same⟩ :
            ∃ transfer, event = .read transfer := by
          cases event with
          | read transfer => exact ⟨transfer, rfl⟩
          | _ => exact moves.elim
        have head : env.trace.head? = some (.read transfer) := by
          have first : env.trace.head? = some event :=
            congrArg List.head? answer
          rw [first, same]
        have most :=
          transfer.amount_le (min kcnMsgMaxsiz incoming.length)
        have received := moved rfl transfer same
        simp only [listening, NetIo.start, List.length_nil,
          Nat.sub_zero, Nat.zero_add] at received
        rw [none] at unreadEq
        have all := List.drop_eq_nil_iff.mp unreadEq.symm
        rw [received] at all
        exact ⟨transfer, head,
          Nat.le_antisymm (Nat.le_trans most (Nat.min_le_right _ _)) all⟩
    split
    · rename_i again
      rw [again] at ended
      have none := ended.unread finished
      rw [none] at unreadEq
      apply wp_receiveLoop_done
      · exact Nat.lt_of_lt_of_le more delivers.enough
      · rw [incomingEq]
        exact List.drop_eq_nil_iff.mp unreadEq.symm
      · exact result
    · exact result

/-! ### What is stored and reported -/

/-- The first part of a list that a predicate does not hold behind. -/
theorem eq_of_first_final
    {α : Type} {holds : α → Prop} {items first later : List α}
    {final last : α}
    (partsEq : items ++ [final] = first ++ last :: later)
    (all : ∀ item ∈ items, holds item)
    (allFirst : ∀ item ∈ first, holds item)
    (notFinal : ¬ holds final) (notLast : ¬ holds last) :
    first = items ∧ last = final ∧ later = [] := by
  induction items generalizing first with
  | nil =>
      cases first with
      | nil =>
          simp only [List.nil_append, List.cons.injEq] at partsEq
          exact ⟨rfl, partsEq.1.symm, partsEq.2.symm⟩
      | cons item first =>
          simp only [List.nil_append, List.cons_append,
            List.cons.injEq] at partsEq
          rw [partsEq.1] at notFinal
          exact absurd (allFirst item List.mem_cons_self) notFinal
  | cons item items inductionHypothesis =>
      cases first with
      | nil =>
          simp only [List.nil_append, List.cons_append,
            List.cons.injEq] at partsEq
          rw [← partsEq.1] at notLast
          exact absurd (all item List.mem_cons_self) notLast
      | cons item' first =>
          simp only [List.cons_append, List.cons.injEq] at partsEq
          obtain ⟨rfl, restEq⟩ := partsEq
          obtain ⟨rfl, lastEq, laterEq⟩ :=
            inductionHypothesis restEq
              (fun item' member =>
                all item' (List.mem_cons_of_mem _ member))
              (fun item' member =>
                allFirst item' (List.mem_cons_of_mem _ member))
          exact ⟨rfl, lastEq, laterEq⟩

/-- The string of a stored locator is the locator if it has no NUL. -/
theorem takeWhile_terminated (loc : List UInt8) :
    (loc ++ [0]).takeWhile (· ≠ 0) = loc ↔ 0 ∉ loc := by
  induction loc with
  | nil =>
      simp
  | cons byte loc inductionHypothesis =>
      by_cases zero : byte = 0
      · simp [zero]
      · have other : 0 ≠ byte := fun same => zero same.symm
        simp only [List.cons_append, ne_eq, zero, not_false_eq_true,
          decide_true, List.takeWhile_cons_of_pos, List.cons.injEq,
          true_and, List.mem_cons, other, false_or] at *
        exact inductionHypothesis

/-- Locators that a search can deliver. -/
def Plain (results : List (KcndbDbRecord × Nat)) : Prop :=
  ∀ result ∈ results, result.1.kdrLoc ≠ [] ∧ 0 ∉ result.1.kdrLoc

/-- The strings of the stored results are their locators. -/
theorem locs_stored
    (results : List (KcndbDbRecord × Nat)) {ki : KcnInfo}
    (locsEq :
      ki.kiLocs =
        (results.map resultResponse).map KcnMsgResponse.stored) :
    ki.locs = results.map (fun result => result.1.kdrLoc) ↔
      ∀ result ∈ results, 0 ∉ result.1.kdrLoc := by
  rw [KcnInfo.locs, locsEq, List.map_map, List.map_map,
    List.map_inj_left]
  apply forall₂_congr
  intro result _
  exact takeWhile_terminated result.1.kdrLoc

/-- Where all results have locators, the end is the final response. -/
theorem Ended.of_located
    {results : List (KcndbDbRecord × Nat)} {error : UInt8}
    {unread : List UInt8} {before reported : Errno} {ki : KcnInfo}
    (ended :
      Ended (responsesOf results error) unread before reported ki)
    (located : ∀ result ∈ results, result.1.kdrLoc ≠ []) :
    unread = [] ∧
      ki.kiLocs =
        (results.map resultResponse).map KcnMsgResponse.stored ∧
      reported = (ClientEnd.answered error).errno before := by
  obtain ⟨first, last, later, partsEq, allFirst, unlocated, complete,
    locsEq, errorEq⟩ := ended
  have all : ∀ kmr ∈ results.map resultResponse, kmr.kmrLoclen ≠ 0 := by
    intro kmr member
    obtain ⟨result, inside, rfl⟩ := List.mem_map.mp member
    intro none
    exact located result inside (List.length_eq_zero_iff.mp none)
  obtain ⟨rfl, rfl, rfl⟩ :=
    eq_of_first_final partsEq all allFirst
      (fun some => some rfl) (fun some => some unlocated)
  exact ⟨complete rfl, locsEq, errorEq⟩

/-- When a stream is stored and its error is reported as it was sent. -/
theorem ended_iff
    {results : List (KcndbDbRecord × Nat)} {error : UInt8}
    {unread : List UInt8} {before reported : Errno} {ki : KcnInfo}
    (ended :
      Ended (responsesOf results error) unread before reported ki) :
    (ki.locs = results.map (fun result => result.1.kdrLoc) ∧
        reported = error.toNat) ↔
      Plain results ∧
        (error.toNat ≠ Errno.eagain ∨ before = Errno.eagain) := by
  by_cases located : ∀ result ∈ results, result.1.kdrLoc ≠ []
  · obtain ⟨_, locsEq, errorEq⟩ := ended.of_located located
    have strings := locs_stored results locsEq
    constructor
    · rintro ⟨locs, reportedEq⟩
      refine ⟨fun result member =>
        ⟨located result member, strings.mp locs result member⟩, ?_⟩
      by_cases again : error.toNat = Errno.eagain
      · apply Or.inr
        have unchanged := errorEq.trans (ClientEnd.errno_of_again again _)
        exact unchanged.symm.trans (reportedEq.trans again)
      · exact Or.inl again
    · rintro ⟨plain, reports⟩
      refine ⟨strings.mpr fun result member =>
        (plain result member).2, ?_⟩
      by_cases again : error.toNat = Errno.eagain
      · have unchanged := errorEq.trans (ClientEnd.errno_of_again again _)
        have before := reports.resolve_left (not_not.mpr again)
        exact unchanged.trans (before.trans again.symm)
      · exact errorEq.trans (ClientEnd.errno_of_other again _)
  · obtain ⟨first, last, later, partsEq, allFirst, _, _, locsEq, _⟩ :=
      ended
    constructor
    · rintro ⟨locs, _⟩
      have length := congrArg List.length locs
      rw [KcnInfo.locs, locsEq, List.length_map, List.length_map,
        List.length_map] at length
      have same : (results.map resultResponse).length = first.length := by
        rw [List.length_map]
        exact length.symm
      obtain ⟨firstEq, _⟩ := List.append_inj partsEq same
      exfalso
      apply located
      intro result member none
      apply allFirst (resultResponse result)
      · rw [← firstEq]
        exact List.mem_map_of_mem member
      · exact List.length_eq_zero_iff.mpr none
    · rintro ⟨plain, _⟩
      exact absurd (fun result member => (plain result member).1)
        located

/-- The responses for a search are a stream with one end. -/
theorem finished_responsesOf
    (results : List (KcndbDbRecord × Nat)) (error : UInt8) :
    Finished (responsesOf results error) where
  final :=
    ⟨finalResponse error,
      List.mem_append_right _ List.mem_cons_self, rfl⟩
  again := by
    intro first last later partsEq again
    cases List.eq_nil_or_concat later with
    | inl none =>
        exact none
    | inr more =>
        obtain ⟨middle, final, rfl⟩ := more
        have split :
            results.map resultResponse ++ [finalResponse error] =
              (first ++ last :: middle) ++ [final] := by
          rw [List.append_assoc, List.cons_append]
          rw [List.concat_eq_append] at partsEq
          exact partsEq
        obtain ⟨itemsEq, _⟩ := List.append_inj' split rfl
        have member : last ∈ results.map resultResponse := by
          rw [itemsEq]
          exact List.mem_append_right _ List.mem_cons_self
        obtain ⟨result, _, rfl⟩ := List.mem_map.mp member
        cases again

/-- A client with room for the results is ready to receive them. -/
theorem receiving_start
    {results : List (KcndbDbRecord × Nat)} {error : UInt8}
    {answers : List NetAnswer} {ki : KcnInfo}
    (memory : KcndbServer.InputBlock) (env : Env)
    (fits : ∀ result ∈ results,
      result.1.kdrLoc.length ≤ kcnMsgMaxlocsiz)
    (granted : ∀ answer ∈ answers, answer = .malloc true)
    (enough : results.length ≤ answers.length)
    (empty : ki.kiLocs = [])
    (room : results.length ≤ ki.kiMaxnlocs) :
    Receiving (responsesOf results error) results.length
      (listening (resultStream results error) memory env answers ki) []
      0 where
  fits := by
    intro kmr member
    rw [length_responseBody]
    rcases List.mem_append.mp member with inside | isFinal
    · obtain ⟨result, isResult, rfl⟩ := List.mem_map.mp inside
      exact length_resultResponse (fits result isResult)
    · rw [List.mem_singleton.mp isFinal]
      exact length_finalResponse error
  unlocated := by
    intro kmr member
    rw [responsesOf, List.drop_left' (List.length_map _)] at member
    rw [List.mem_singleton.mp member]
    rfl
  incoming_eq := resultStream_eq results error
  takes := .nil _
  count_le := Nat.zero_le _
  located := nofun
  granted := granted
  enough := by
    rw [Nat.zero_add]
    exact enough
  room := room
  locs_eq := empty

/--
The client stores the results that the server sends and reports their error, if
and only if every locator is plain and the error is not an `EAGAIN` that meets
another `errno` in the first and only read.
-/
theorem results_received
    {δ : Type} {server server' : NetCtx δ}
    {results : List (KcndbDbRecord × Nat)} {error : UInt8}
    {ki : KcnInfo} {env : Env}
    (output : server.kn.knObufdata.kbdSize = kcnMsgMaxsiz)
    (idle : server.io.queued = [])
    (fits : ∀ result ∈ results,
      result.1.kdrLoc.length ≤ kcnMsgMaxlocsiz)
    (sent :
      KcndbServer.respondAll error results server = .ok (true, server'))
    (empty : ki.kiLocs = [])
    (room : results.length ≤ ki.kiMaxnlocs)
    (memory : KcndbServer.InputBlock)
    (delivers : env.trace.Delivers server'.io.queued.flatten.length) :
    ∃ errno ctx',
      receive
          (listening server'.io.queued.flatten memory env
            (List.replicate results.length (.malloc true)) ki) =
        .ok (errno, ctx') ∧
      (ctx'.data.kcrKi.locs =
            results.map (fun result => result.1.kdrLoc) ∧
          ctx'.data.kcrError = error.toNat ↔
        Plain results ∧
          (error.toNat ≠ Errno.eagain ∨ env.errno = Errno.eagain ∨
            ¬ AtOnce env.trace server'.io.queued.flatten.length)) := by
  have streamEq :
      server'.io.queued.flatten = resultStream results error := by
    have queues :
        wp (KcndbServer.respondAll error results)
          (fun ok ctx' => ok = true →
            ctx'.io.queued.flatten =
              server.io.queued.flatten ++ resultStream results error)
          (fun _ => True) server :=
      KcndbServer.wp_respondAll trivial error results output fits
    have queued := wp_ok queues sent rfl
    rw [idle] at queued
    exact queued
  rw [streamEq] at delivers ⊢
  have receives :=
    wp_receive (finished_responsesOf results error)
      (receiving_start memory env fits
        (fun _ member => (List.mem_replicate.mp member).2)
        (Nat.le_of_eq List.length_replicate.symm) empty room)
      delivers
  obtain ⟨errno, ctx', returns, unread, before, ended, atOnce, parts⟩ :=
    wp_returns receives
  refine ⟨errno, ctx', returns, (ended_iff ended).trans ?_⟩
  apply and_congr_right
  intro plain
  obtain ⟨complete, _⟩ :=
    ended.of_located fun result member => (plain result member).1
  by_cases once : AtOnce env.trace (resultStream results error).length
  · rw [atOnce once]
    simp only [once, not_true_eq_false, or_false]
  · rcases parts once with again | missing
    · simp only [again, once, not_false_eq_true, or_true]
    · exact absurd complete missing

/-- A server with an empty output buffer and memory for three messages. -/
def answering : NetCtx Unit :=
  built 3 [] (List.replicate kcnMsgMaxsiz 0)
    { errno := 0, trace := [] }
    [.malloc true, .malloc true, .malloc true] []

/-- A result with the given locator. -/
def resultAt (loc : List UInt8) : KcndbDbRecord × Nat :=
  ({ kdrTime := 0, kdrVal := 0, kdrLocidx := 0, kdrLoc := loc }, 0)

/-- Whether the server sends the results in at most 30 bytes. -/
def sendsShort
    (error : UInt8) (results : List (KcndbDbRecord × Nat)) : Bool :=
  match KcndbServer.respondAll error results answering with
  | .ok (true, server) => server.io.queued.flatten.length ≤ 30
  | _ => false

theorem sent_of_sendsShort
    {error : UInt8} {results : List (KcndbDbRecord × Nat)}
    (sends : sendsShort error results = true) :
    ∃ server,
      KcndbServer.respondAll error results answering =
        .ok (true, server) ∧
      server.io.queued.flatten.length ≤ 30 := by
  unfold sendsShort at sends
  split at sends
  · rename_i server sent
    exact ⟨server, sent, of_decide_eq_true sends⟩
  · cases sends

/-- Two results in one read, to which `results_received` applies. -/
theorem results_received_two :
    ∃ server errno ctx',
      KcndbServer.respondAll 3 [resultAt [97], resultAt [98, 99]]
          answering = .ok (true, server) ∧
      receive
          (listening server.io.queued.flatten
            ⟨List.replicate kcnMsgMaxsiz 0, List.length_replicate⟩
            { errno := 0, trace := List.replicate 30 (.read .full) }
            [.malloc true, .malloc true] (KcnInfo.new .uri 2)) =
        .ok (errno, ctx') ∧
      ctx'.data.kcrKi.locs = [[97], [98, 99]] ∧
      ctx'.data.kcrError = 3 := by
  obtain ⟨server, sent, short⟩ :=
    sent_of_sendsShort
      (show sendsShort 3 [resultAt [97], resultAt [98, 99]] = true by
        decide +kernel)
  have delivers :
      (Env.mk 0 (List.replicate 30 (.read .full))).trace.Delivers
        server.io.queued.flatten.length := by
    refine ⟨?_, by rw [List.length_replicate]; exact short⟩
    intro event member
    rw [(List.mem_replicate.mp member).2]
    trivial
  have fits :
      ∀ result ∈ [resultAt [97], resultAt [98, 99]],
        result.1.kdrLoc.length ≤ kcnMsgMaxlocsiz := by
    decide
  have plain : Plain [resultAt [97], resultAt [98, 99]] := by
    unfold Plain
    decide
  have output : answering.kn.knObufdata.kbdSize = kcnMsgMaxsiz := by
    show (List.replicate kcnMsgMaxsiz (0 : UInt8)).length = kcnMsgMaxsiz
    exact List.length_replicate
  obtain ⟨errno, ctx', returns, reported⟩ :=
    results_received output rfl fits sent
      (show (KcnInfo.new .uri 2).kiLocs = [] from rfl) (Nat.le_refl 2)
      ⟨List.replicate kcnMsgMaxsiz 0, List.length_replicate⟩ delivers
  obtain ⟨locs, error⟩ := reported.mpr ⟨plain, Or.inl (by decide)⟩
  exact ⟨server, errno, ctx', sent, returns, locs, error⟩

/-- What the client stores and reports, if the server sends the results. -/
def exchange
    (error : UInt8) (results : List (KcndbDbRecord × Nat)) :
    Option (List (List UInt8) × Errno) :=
  match KcndbServer.respondAll error results answering with
  | .ok (true, server) =>
      match receive
          (listening server.io.queued.flatten KcndbServer.zeros
            { errno := 0, trace := List.replicate 30 (.read .full) }
            (List.replicate results.length (.malloc true))
            (KcnInfo.new .uri results.length)) with
      | .ok (_, ctx') =>
          some (ctx'.data.kcrKi.locs, ctx'.data.kcrError)
      | .error _ => none
  | _ => none

/--
An empty locator ends the results before the one that follows it, and an
`EAGAIN` is lost when `errno` is 0.
-/
theorem results_cut :
    exchange 0 [resultAt [], resultAt [97]] = some ([], 0) ∧
      exchange 11 [resultAt [97]] = some ([[97]], 0) := by
  decide +kernel

end KcnClient

end Kcn
