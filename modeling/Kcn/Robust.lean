import Kcn.Search

namespace Kcn

open Program Bytes KcnBuf Framing

/-!
# A client and any server

Whatever a server sends, `kcn_client_search` violates no assertion and stores
the first locators of the responses that the stream begins with.
-/

/-! ### Why a connection stops -/

/-- The reasons to stop of the operations of `kcn_net`. -/
def NetStops (reason : Stop) : Prop :=
  reason = .starved ∨ reason = .netAssertion

/-- A call only waits for the environment. -/
abbrev Starved (reason : Stop) : Prop :=
  reason = .starved

namespace NetIo

theorem stops_malloc : StopsFor NetStops malloc :=
  fun _ => wp_malloc (Or.inl rfl) fun _ _ _ _ => trivial

theorem stops_event : StopsFor NetStops event :=
  fun _ => wp_event (Or.inl rfl) fun _ _ _ _ => trivial

theorem stops_socketClose (fd : Option Nat) :
    StopsFor NetStops (socketClose fd) := by
  cases fd with
  | none =>
      exact .pure _
  | some number =>
      exact .bind (.modify _) fun _ => .pure _

end NetIo

namespace KcnNet

open NetCtx

variable {δ : Type}

theorem stops_evreadEnable :
    StopsFor NetStops (evreadEnable : NetOp δ Bool) :=
  .bind (.gets _) fun _ =>
    .ite (.pure _) (.bind (.zoom NetIo.stops_event) fun _ =>
      .ite (.bind (.modify _) fun _ => .pure _) (.pure _))

theorem stops_writeEnable :
    StopsFor NetStops (writeEnable : NetOp δ Bool) :=
  .bind (.gets _) fun _ =>
    .ite (.pure _) (.bind (.zoom NetIo.stops_event) fun _ =>
      .ite (.bind (.modify _) fun _ => .pure _) (.pure _))

theorem stops_readEnable :
    StopsFor NetStops (readEnable : NetOp δ Bool) :=
  .bind (.gets _) fun _ =>
    .ite (.stop (Or.inr rfl)) (.bind (.gets _) fun _ =>
      .ite (.bind (.modify _) fun _ => .pure _) stops_evreadEnable)

theorem stops_stateChange (nstate : KcnNetState) :
    StopsFor NetStops (stateChange nstate : NetOp δ Unit) :=
  .bind (.gets _) fun _ =>
    .bind (.modify _) fun _ =>
      .ite (.bind stops_readEnable fun _ => .pure _) (.pure _)

theorem stops_disconnect :
    StopsFor NetStops (disconnect : NetOp δ Unit) :=
  .bind (.gets _) fun _ =>
    .ite (.pure _) (.bind (.modify _) fun _ =>
      .bind (.modify _) fun _ =>
        .bind (.gets _) fun fd =>
          .bind (.zoom (NetIo.stops_socketClose fd)) fun _ =>
            .bind (.modify _) fun _ => stops_stateChange _)

theorem stops_eventCheck (events : EventFlags) :
    StopsFor NetStops (eventCheck events : NetOp δ Bool) :=
  .ite (.bind (stops_stateChange _) fun _ => .pure _)
    (.ite (.bind stops_disconnect fun _ => .pure _) (.pure _))

theorem stops_write : StopsFor NetStops (write : NetOp δ Bool) := by
  refine .bind (.gets _) fun _ => .ite ?_ ?_
  · exact .bind (.zoom (.modify _)) fun _ => .pure _
  · refine .bind ?_ fun _ => .ite ?_ (.pure _)
    · exact .bind (.zoom NetIo.stops_malloc) fun _ =>
        .ite (.bind (.modify _) fun _ => .pure _) (.pure _)
    · exact .bind stops_writeEnable fun _ =>
        .ite (.bind (.modify _) fun _ => .pure _) (.pure _)

theorem stops_bufWrite : StopsFor NetStops KcndbFile.bufWrite :=
  fun _ => KcndbFile.wp_bufWrite_any (Or.inl rfl) fun _ _ _ => trivial

theorem stops_writeLoop (rounds : Nat) :
    StopsFor NetStops (writeLoop rounds : NetOp δ Unit) := by
  induction rounds with
  | zero =>
      exact .stop (Or.inl rfl)
  | succ rounds inductionHypothesis =>
      refine .bind (.gets _) fun queue => ?_
      cases queue with
      | nil =>
          exact .pure _
      | cons kbd rest =>
          refine .bind (.zoom stops_bufWrite) fun error => .ite ?_ ?_
          · exact .bind stops_writeEnable fun _ => .pure _
          · refine .ite stops_disconnect (.bind (.gets _) fun queue => ?_)
            cases queue with
            | nil =>
                exact .pure _
            | cons kbd rest =>
                exact .ite (.bind (.modify _) fun _ => inductionHypothesis)
                  inductionHypothesis

theorem stops_writeCb (fd : Option Nat) (events : EventFlags) :
    StopsFor NetStops (writeCb fd events : NetOp δ Unit) := by
  refine .bind ?_ fun _ => .bind (.gets _) fun _ => .ite ?_ ?_
  · exact .bind (.gets _) fun _ => .ite (.pure _) (.stop (Or.inr rfl))
  · exact stops_stateChange _
  · exact .bind (stops_eventCheck events) fun _ =>
      .ite (.bind (.gets _) fun _ => stops_writeLoop _) (.pure _)

/-- An operation without a failing assertion of `kcn_net` only waits. -/
theorem wp_starved
    {α σ : Type} {program : Program Stop σ α} {post : α → σ → Prop}
    {s : σ} (stops : StopsFor NetStops program)
    (established : wp program post Asserted s) :
    wp program post Starved s := by
  apply wp_mono (stops.wp established) fun _ _ => id
  rintro reason ⟨asserted, starved | netAssertion⟩
  · exact starved
  · exact absurd netAssertion asserted

end KcnNet

/-! ### The responses of a stream -/

namespace KcnClient

open NetCtx

/-- The well-formed responses that a stream begins with. -/
def responses (stream : List UInt8) : List KcnMsgResponse :=
  clientFramer.messages stream

/-- The response has a locator. -/
def located (kmr : KcnMsgResponse) : Bool :=
  decide (kmr.kmrLoclen ≠ 0)

/-- What is stored for the locators of some responses. -/
def storedOf (kmrs : List KcnMsgResponse) : List KcnLoc :=
  (kmrs.filter located).map KcnMsgResponse.stored

/--
A client took off some responses of the stream and stored their locators;
`rest` is left of what it received.
-/
structure Tracked
    (stream : List UInt8) (maxnlocs : Nat)
    (ctx : NetCtx KcnClientResponse) (rest : List UInt8) : Prop where
  incoming_eq : ctx.io.incoming = stream
  max_eq : ctx.data.kcrKi.kiMaxnlocs = maxnlocs
  taken : ∃ kmrs,
    clientFramer.Takes (ctx.io.incoming.take ctx.io.received) kmrs
        rest ∧
      ctx.data.kcrKi.kiLocs = storedOf kmrs

variable
  {fd size maxnlocs : Nat} {stream bytes rest : List UInt8}
  {ctx ctx' : NetCtx KcnClientResponse}

theorem Tracked.same
    (tracked : Tracked stream maxnlocs ctx rest)
    (same : ctx'.inbound = ctx.inbound) :
    Tracked stream maxnlocs ctx' rest := by
  obtain ⟨dataEq, _, incomingEq, receivedEq⟩ := inbound_parts same
  obtain ⟨stream, max, taken⟩ := tracked
  constructor
  · rwa [incomingEq]
  · rwa [dataEq]
  · rwa [dataEq, incomingEq, receivedEq]

/-- The bytes that are read follow those that are left. -/
theorem Tracked.grow
    {taken : Trace} {new : List UInt8} {part : FileCtx}
    (tracked : Tracked stream maxnlocs ctx rest)
    (grown : KcndbFile.Grown (ibufLens.get ctx) taken new part) :
    Tracked stream maxnlocs (ibufLens.set ctx part) (rest ++ new) := by
  obtain ⟨kmrs, takes, locs⟩ := tracked.taken
  have offEq : part.file.off = ctx.io.received + new.length :=
    grown.off_eq
  have newEq :
      new = slice ctx.io.incoming ctx.io.received new.length :=
    grown.new_eq
  have longer :
      ctx.io.incoming.take (ctx.io.received + new.length) =
        ctx.io.incoming.take ctx.io.received ++ new := by
    rw [List.take_add]
    exact congrArg _ newEq.symm
  refine ⟨tracked.incoming_eq, tracked.max_eq, kmrs, ?_, locs⟩
  simp only [ibufLens, offEq]
  rw [longer]
  exact takes.more new

/-- Responses with locators are all stored. -/
theorem storedOf_located
    {kmrs : List KcnMsgResponse}
    (all : ∀ kmr ∈ kmrs, kmr.kmrLoclen ≠ 0) :
    storedOf kmrs = kmrs.map KcnMsgResponse.stored := by
  rw [storedOf, List.filter_eq_self.mpr]
  intro kmr member
  exact decide_eq_true (all kmr member)

theorem storedOf_append (first later : List KcnMsgResponse) :
    storedOf (first ++ later) = storedOf first ++ storedOf later := by
  simp [storedOf]

/-- What a round of `kcn_client_read` stores is tracked. -/
theorem Tracked.stored
    {kmrs : List KcnMsgResponse} {rest' : List UInt8}
    {answers answers' : List NetAnswer} {ki : KcnInfo} {kb : KcnBuf}
    {errno : Errno}
    (tracked : Tracked stream maxnlocs ctx bytes)
    (stored : Stored ctx bytes kmrs rest' answers ki) :
    Tracked stream maxnlocs (ctx.storing kb errno answers' ki) rest' := by
  obtain ⟨before, taken, locs⟩ := tracked.taken
  refine ⟨tracked.incoming_eq, ?_, before ++ kmrs,
    taken.append stored.takes, ?_⟩
  · exact stored.maxnlocs_eq.trans tracked.max_eq
  · rw [storedOf_append, storedOf_located stored.located, ← locs]
    exact stored.locs_eq

/-- A response without a locator is passed over. -/
theorem Tracked.pass
    {kmr : KcnMsgResponse} {later : List UInt8}
    (tracked : Tracked stream maxnlocs ctx rest)
    (cut : clientCut rest = .take kmr later)
    (unlocated : kmr.kmrLoclen = 0) :
    Tracked stream maxnlocs ctx later := by
  obtain ⟨kmrs, taken, locs⟩ := tracked.taken
  refine ⟨tracked.incoming_eq, tracked.max_eq, kmrs ++ [kmr],
    taken.snoc cut, ?_⟩
  rw [storedOf_append, locs]
  simp [storedOf, located, unlocated]

/-- There is room in the input buffer behind what is left. -/
def Roomy (ctx : NetCtx KcnClientResponse) (rest : List UInt8) : Prop :=
  ∃ sp, ctx.kn.knIbuf.Holds kcnMsgMaxsiz sp [] rest ∧
    rest.length < kcnMsgMaxsiz

/-- After `kcn_client_read` there is room again if it asks for more. -/
theorem Reads.tracked
    (reads : Reads ctx kcnMsgMaxsiz bytes ctx')
    (tracked : Tracked stream maxnlocs ctx bytes)
    (fits : bytes.length ≤ kcnMsgMaxsiz) :
    ∃ rest, Tracked stream maxnlocs ctx' rest ∧
      (ctx'.io.env.errno = Errno.eagain → Roomy ctx' rest) := by
  cases reads with
  | waits kmrs rest answers ki sp kb stored waits holds =>
      refine ⟨rest, tracked.stored stored, fun _ => ⟨sp, holds, ?_⟩⟩
      exact length_of_clientCut_wait waits
  | refuses kmrs rest answers ki error kb stored refuses _ =>
      refine ⟨rest, tracked.stored stored, fun again => ?_⟩
      exact absurd again (errno_of_clientCut refuses).2
  | answered kmrs rest answers ki kmr later sp kb stored cut unlocated
      holds =>
      refine ⟨later, (tracked.stored stored).pass cut unlocated,
        fun _ => ⟨sp, holds, ?_⟩⟩
      have shorter := clientCut_shrinks cut
      have left := stored.takes.length_le
      omega
  | full kmrs rest answers ki kmr later sp kb stored _ _ _ _ =>
      exact ⟨rest, tracked.stored stored,
        fun again => absurd again (by simp only [storing]; decide)⟩
  | noMemory kmrs rest answers ki kmr later sp kb stored _ _ _ =>
      exact ⟨rest, tracked.stored stored,
        fun again => absurd again (by simp only [storing]; decide)⟩

/-! ### The event loop -/

/-- What a client knows between two events. -/
inductive Going
    (fd maxnlocs : Nat) (stream : List UInt8)
    (ctx : NetCtx KcnClientResponse) : Prop where
  | reading (rest : List UInt8) :
      Sound fd 0 True False False ctx →
      Tracked stream maxnlocs ctx rest →
      Roomy ctx rest →
      Going fd maxnlocs stream ctx
  | finished (rest : List UInt8) :
      Sound fd 2 False False False ctx →
      Tracked stream maxnlocs ctx rest →
      Going fd maxnlocs stream ctx

theorem Roomy.same
    (roomy : Roomy ctx rest) (same : ctx'.inbound = ctx.inbound) :
    Roomy ctx' rest := by
  obtain ⟨_, kbEq, _, _⟩ := inbound_parts same
  unfold Roomy
  rw [kbEq]
  exact roomy

/-- A connection that does not read again. -/
theorem sound_over
    (sound : Sound fd 0 True False False ctx)
    (least : 2 ≤ ctx.kn.knState.rank)
    (quiet : ctx.kn.evread = false) :
    Sound fd 2 False False False ctx where
  least := least
  forward := sound.forward
  last := sound.last
  pending := by
    intro pending
    rw [pending] at least
    exact absurd least (by decide)
  reading := by
    intro registered
    rw [quiet] at registered
    cases registered
  entered := sound.entered
  evwriteFd := sound.evwriteFd
  alive := sound.alive
  dead := sound.dead
  registers := sound.registers
  faithful := sound.faithful
  armed := sound.armed

/-- A connection that is torn down does not read again. -/
theorem wp_disconnect_going
    (sound : Sound fd 0 True False False ctx)
    (tracked : Tracked stream maxnlocs ctx rest) :
    wp KcnNet.disconnect
      (fun _ ctx' => Going fd maxnlocs stream ctx') Starved ctx := by
  have closes :
      wp KcnNet.disconnect
        (fun _ ctx' =>
          Sound fd 0 True False False ctx' ∧
            ctx'.kn.knState = .disconnected)
        Asserted ctx :=
    sound.wp_disconnect
  apply wp_imp
    (KcnNet.wp_starved KcnNet.stops_disconnect
      (KcnNet.keeps_disconnect.wp closes))
  rintro _ ctx' ⟨⟨sound', dead⟩, same⟩
  refine .finished rest (sound_over sound' ?_ (sound'.dead dead).1)
    (tracked.same same)
  rw [dead]
  decide

/-- The read callback goes on only if there is room. -/
theorem wp_readOut_going
    {error : Errno}
    (sound : Sound fd 0 True False False ctx)
    (entered : ctx.kn.knState = .established)
    (once : ctx.kn.evread = false)
    (tracked : Tracked stream maxnlocs ctx rest)
    (room : error = Errno.eagain → Roomy ctx rest) :
    wp (KcnNet.readOut error)
      (fun _ ctx' => Going fd maxnlocs stream ctx') Starved ctx := by
  unfold KcnNet.readOut
  split
  case isTrue again =>
      have alive : ctx.kn.knState ≠ .disconnected := by
        rw [entered]
        exact nofun
      rw [wp_bind]
      apply wp_imp
        (KcnNet.wp_starved KcnNet.stops_readEnable
          (KcnNet.keeps_readEnable.wp
            (sound.wp_readEnable trivial alive)))
      rintro _ ctx' ⟨⟨sound', _⟩, same⟩
      exact .reading rest sound' (tracked.same same)
        ((room again).same same)
  case isFalse =>
      split
      · exact wp_disconnect_going sound tracked
      · refine .finished rest (sound_over sound ?_ once) tracked
        rw [entered]
        decide

/-- What the read callback does with a connection that has data. -/
theorem wp_received_going
    (sound : Sound fd 0 True False False ctx)
    (entered : ctx.kn.knState = .established)
    (once : ctx.kn.evread = false)
    (tracked : Tracked stream maxnlocs ctx rest)
    (roomy : Roomy ctx rest) :
    wp
      (do
        let error ← zoom ibufLens KcndbFile.bufRead
        if error = 0 then
          let error ← read
          KcnNet.readOut error
        else
          KcnNet.readOut error)
      (fun _ ctx' => Going fd maxnlocs stream ctx') Starved ctx := by
  obtain ⟨sp, holds, few⟩ := roomy
  have notFull :
      (ibufLens.get ctx).file.kb.len ≠
        (ibufLens.get ctx).file.kb.size := by
    have len : ctx.kn.knIbuf.len = rest.length := by
      rw [holds.len_eq, List.length_nil, Nat.zero_add]
    have sizeEq : ctx.kn.knIbuf.size = kcnMsgMaxsiz := holds.size_eq
    simp only [ibufLens, len, sizeEq]
    omega
  rw [wp_bind, wp_zoom]
  have waits : Starved .starved := rfl
  apply KcndbFile.wp_bufRead waits
  · exact fun full => absurd full notFull
  intro error part result _
  have received :
      Sound fd 0 True False False (ibufLens.set ctx part) :=
    { sound with }
  have holds' {taken : Trace} {new : List UInt8}
      (grown : KcndbFile.Grown (ibufLens.get ctx) taken new part) :
      part.file.kb.Holds kcnMsgMaxsiz part.file.kb.sp []
        (rest ++ new) := {
    size_eq := grown.size_eq.trans holds.size_eq
    sp_eq := rfl
    before_eq := grown.before_eq.trans holds.before_eq
    after_eq := by
      rw [← holds.after_eq]
      exact grown.after_eq
  }
  have quiet
      {taken : Trace} (nonzero : error ≠ 0)
      (grown : KcndbFile.Grown (ibufLens.get ctx) taken [] part) :
      wp (KcnNet.readOut error)
        (fun _ ctx' => Going fd maxnlocs stream ctx') Starved
        (ibufLens.set ctx part) := by
    have tracked' := tracked.grow grown
    have there := holds' grown
    rw [List.append_nil] at tracked' there
    exact wp_readOut_going received entered once tracked'
      fun _ => ⟨_, there, few⟩
  cases result with
  | failed taken error grown _ _ =>
      rw [if_neg error.errno_ne_zero]
      exact quiet error.errno_ne_zero grown
  | ended taken grown _ _ =>
      rw [if_neg (by decide)]
      exact quiet (by decide) grown
  | got taken new grown _ _ _ =>
      have there := holds' grown
      have fits : (rest ++ new).length ≤ kcnMsgMaxsiz := by
        have inside := there.le_size
        rw [List.length_nil] at inside
        omega
      rw [if_pos rfl, wp_bind]
      have there' : (ibufLens.set ctx part).kn.knIbuf.Holds kcnMsgMaxsiz
          part.file.kb.sp [] (rest ++ new) := there
      apply wp_read (fun _ => waits) there'
      intro ctx' reads
      obtain ⟨rest', tracked', room⟩ :=
        reads.tracked (tracked.grow grown) fits
      have settled :
          Sound fd 0 True False False ctx' ∧
            ctx'.kn.knState = .established ∧
            ctx'.kn.evread = false := by
        cases reads <;>
          exact ⟨{ received with registers := False.elim }, entered,
            once⟩
      obtain ⟨sound', entered', once'⟩ := settled
      have sound'' :
          Sound fd 0 True False False {
            ctx' with
            data := { ctx'.data with kcrError := ctx'.io.env.errno }
          } :=
        { sound' with }
      apply wp_readOut_going sound'' entered' once'
      · exact ⟨tracked'.incoming_eq, tracked'.max_eq, tracked'.taken⟩
      · exact room

/-- The delivery of the read event. -/
theorem wp_readEvent_going
    {events : EventFlags} {step : NetStep}
    (sound : Sound fd 0 True False False ctx)
    (tracked : Tracked stream maxnlocs ctx rest)
    (roomy : Roomy ctx rest)
    (registered : ctx.kn.evread = true)
    (delivered : events.Delivered) :
    wp ((NetAction.readEvent events).run read)
      (fun _ ctx' => Going fd maxnlocs stream ctx') Starved
      (ctx.answered step) := by
  have entered : ctx.kn.knState = .established := sound.entered registered
  have alive : ctx.kn.knState ≠ .disconnected := by
    rw [entered]
    exact nofun
  let ctx₁ : NetCtx KcnClientResponse := {
    ctx.answered step with
    kn := { ctx.kn with evread := false }
  }
  have sound₁ : Sound fd 0 True False False ctx₁ :=
    {
      sound with
      reading := nofun
      entered := nofun
      dead := fun dead => absurd dead alive
      registers := False.elim
    }
  have tracked₁ : Tracked stream maxnlocs ctx₁ rest :=
    ⟨tracked.incoming_eq, tracked.max_eq, tracked.taken⟩
  have roomy₁ : Roomy ctx₁ rest := roomy
  have callback :
      wp (KcnNet.readCb read ctx.kn.knFd events)
        (fun _ ctx' => Going fd maxnlocs stream ctx') Starved ctx₁ := by
    simp only [KcnNet.readCb, KcnNet.assertFd, wp_bind, wp_gets]
    rw [if_pos (show ctx₁.kn.knFd = ctx.kn.knFd from rfl), wp_pure]
    by_cases ready : events.ready = true
    · have entered₁ : ctx₁.kn.knState = .established := entered
      apply wp_eventCheck_established entered₁ ready
      rw [if_pos rfl]
      exact wp_received_going sound₁ entered rfl tracked₁ roomy₁
    · have timeout : events.timeout = true :=
        delivered.resolve_left ready
      unfold KcnNet.eventCheck
      rw [if_neg ready, if_pos timeout, wp_bind]
      apply wp_imp (wp_disconnect_going sound₁ tracked₁)
      intro _ ctx' going
      exact going
  simp only [NetAction.run, wp_bind, setKn, wp_modify, wp_gets, wp_pure]
  exact callback

/-- The write event leaves what was received alone. -/
theorem keeps_writeEvent (events : EventFlags) :
    Keeps (@inbound KcnClientResponse)
      ((NetAction.writeEvent events).run read) := by
  apply Keeps.bind
  · exact keeps_setKn fun _ => rfl
  intro _
  apply Keeps.bind (.gets _)
  intro number
  exact (KcnNet.keeps_writeCb _ _).bind fun _ => .pure _

theorem stops_writeEvent (events : EventFlags) :
    StopsFor NetStops ((NetAction.writeEvent events).run read) :=
  .bind (.modify _) fun _ =>
    .bind (.gets _) fun _ =>
      .bind (KcnNet.stops_writeCb _ _) fun _ => .pure _

/-- One event of the loop. -/
theorem Going.wp_event
    {step : NetStep}
    (going : Going fd maxnlocs stream ctx)
    (isEvent : step.action.IsEvent)
    (enabled : step.action.Enabled ctx.kn) :
    wp (step.action.run read)
      (fun _ ctx' => Going fd maxnlocs stream ctx') Starved
      (ctx.answered step) := by
  have unchanged : (ctx.answered step).inbound = ctx.inbound := rfl
  obtain ⟨action, env, answers⟩ := step
  cases action with
  | call user =>
      exact isEvent.elim
  | readEvent events =>
      obtain ⟨registered, delivered⟩ := enabled
      cases going with
      | reading rest sound tracked roomy =>
          exact wp_readEvent_going sound tracked roomy registered delivered
      | finished rest sound _ =>
          exact (sound.reading registered).elim
  | writeEvent events =>
      obtain ⟨registered, delivered⟩ := enabled
      cases going with
      | reading rest sound tracked roomy =>
          have answered :
              Sound fd 0 True False False
                (ctx.answered ⟨.writeEvent events, env, answers⟩) :=
            { sound with registers := False.elim }
          apply wp_imp
            (KcnNet.wp_starved (stops_writeEvent events)
              ((keeps_writeEvent events).wp
                (answered.wp_writeEvent registered delivered
                  False.elim)))
          rintro _ ctx' ⟨sound', same⟩
          have same := same.trans unchanged
          exact .reading rest sound' (tracked.same same)
            (roomy.same same)
      | finished rest sound tracked =>
          have answered :
              Sound fd 2 False False False
                (ctx.answered ⟨.writeEvent events, env, answers⟩) :=
            { sound with registers := False.elim }
          apply wp_imp
            (KcnNet.wp_starved (stops_writeEvent events)
              ((keeps_writeEvent events).wp
                (answered.wp_writeEvent registered delivered
                  False.elim)))
          rintro _ ctx' ⟨sound', same⟩
          exact .finished rest sound' (tracked.same (same.trans unchanged))

/-- The event loop of a client. -/
theorem Going.wp_loop
    (going : Going fd maxnlocs stream ctx)
    (deliveries : List NetStep) :
    wp (KcnNet.loop read deliveries)
      (fun _ ctx' => Going fd maxnlocs stream ctx') Starved ctx := by
  induction deliveries generalizing ctx with
  | nil =>
      exact going
  | cons step later inductionHypothesis =>
      unfold KcnNet.loop
      rw [wp_bind, wp_gets]
      split
      · rename_i delivered
        simp only [wp_bind, wp_modify]
        apply wp_imp (going.wp_event delivered.1 delivered.2)
        intro _ ctx' going'
        exact inductionHypothesis going'
      · rfl

/-! ### The search -/

/-- What a client has stored of a stream. -/
structure Faithful
    (stream : List UInt8) (maxnlocs : Nat) (ki : KcnInfo) : Prop where
  bounded : ki.nlocs ≤ maxnlocs
  inOrder : ki.kiLocs <+: storedOf (responses stream)

theorem Tracked.faithful (tracked : Tracked stream maxnlocs ctx rest) :
    Faithful stream maxnlocs ctx.data.kcrKi where
  bounded := by
    rw [← tracked.max_eq]
    exact ctx.data.kcrKi.nlocs_le
  inOrder := by
    obtain ⟨kmrs, takes, locs⟩ := tracked.taken
    have whole := takes.more (ctx.io.incoming.drop ctx.io.received)
    rw [List.take_append_drop, tracked.incoming_eq] at whole
    rw [locs]
    exact (whole.prefix_messages.filter _).map _

theorem Going.faithful (going : Going fd maxnlocs stream ctx) :
    Faithful stream maxnlocs ctx.data.kcrKi := by
  cases going with
  | reading rest _ tracked _ =>
      exact tracked.faithful
  | finished rest _ tracked =>
      exact tracked.faithful

/-- A connection that was just made with blocks for whole messages. -/
theorem opened_going
    {ibuf obuf : List UInt8} {env : Env} {answers : List NetAnswer}
    {kn : KcnNet} {io : NetIo}
    (makes :
      KcnNet.new fd ibuf obuf (NetIo.start env answers stream) =
        .ok (some kn, io))
    (ibufSize : ibuf.length = kcnMsgMaxsiz)
    (obufSize : obuf.length = kcnMsgMaxsiz)
    (loctype : KcnLocType) (maxnlocs : Nat) :
    Tracked stream maxnlocs
        (opened kn io (KcnInfo.new loctype maxnlocs)) [] ∧
      Roomy (opened kn io (KcnInfo.new loctype maxnlocs)) [] ∧
      kn.knObufdata.kbdSize = kcnMsgMaxsiz := by
  have making :
      wp (KcnNet.new fd ibuf obuf)
        (Made fd ibuf obuf (NetIo.start env answers stream))
        (fun _ => True) (NetIo.start env answers stream) :=
    KcnNet.wp_new fd ibuf obuf _ trivial
  have outcome := wp_ok making makes
  cases outcome with
  | made env rest _ =>
      refine ⟨⟨rfl, rfl, [], .nil _, rfl⟩, ⟨0, ?_, by decide⟩, obufSize⟩
      rw [← ibufSize]
      exact KcnBuf.holds_new ibuf

/-- A client that sends its query goes on from there. -/
theorem wp_querySend_going
    {kmq : KcnMsgQuery}
    (sound : Sound fd 0 True False False ctx)
    (isInit : ctx.kn.knState = .init)
    (output : ctx.kn.knObufdata.kbdSize = kcnMsgMaxsiz)
    (tracked : Tracked stream maxnlocs ctx rest)
    (roomy : Roomy ctx rest) :
    wp (querySend kmq) (fun _ ctx' => Going fd maxnlocs stream ctx')
      Starved ctx := by
  unfold querySend
  rw [wp_bind]
  apply wp_encode (KcnMsg.queryEncode_encodes kmq) output
  · have length : (queryBody kmq).length = 28 := length_queryBody kmq
    rw [length]
    decide
  intro kb _ _
  have encoded : Sound fd 0 True False False (obufLens.set ctx kb) :=
    { sound with }
  have tracked' : Tracked stream maxnlocs (obufLens.set ctx kb) rest :=
    ⟨tracked.incoming_eq, tracked.max_eq, tracked.taken⟩
  have roomy' : Roomy (obufLens.set ctx kb) rest := roomy
  rw [wp_bind]
  apply wp_imp
    (KcnNet.wp_starved KcnNet.stops_write
      (KcnNet.keeps_write.wp encoded.wp_write))
  rintro ok ctx₁ ⟨⟨sound₁, stateEq⟩, same⟩
  cases ok with
  | false =>
      exact .reading rest sound₁ (tracked'.same same) (roomy'.same same)
  | true =>
      rw [if_pos rfl]
      have alive : ctx₁.kn.knState ≠ .disconnected := by
        rw [stateEq]
        intro dead
        exact nomatch isInit.symm.trans dead
      apply wp_imp
        (KcnNet.wp_starved KcnNet.stops_readEnable
          (KcnNet.keeps_readEnable.wp
            (sound₁.wp_readEnable trivial alive)))
      rintro _ ctx₂ ⟨⟨sound₂, _⟩, same₂⟩
      have same := same₂.trans same
      exact .reading rest sound₂ (tracked'.same same) (roomy'.same same)

/-- A client that is torn down keeps what it has stored. -/
theorem Going.wp_destroy
    (going : Going fd maxnlocs stream ctx) :
    wp KcnNet.destroy
      (fun _ ctx' => Faithful stream maxnlocs ctx'.data.kcrKi) Starved
      ctx := by
  have faithful := going.faithful
  have closes : wp (KcnNet.destroy : ClientOp Unit) (fun _ _ => True)
      Asserted ctx := by
    have closed {low : Nat} {asked : Prop}
        (sound : Sound fd low asked False False ctx) :
        wp KcnNet.disconnect
          (fun _ ctx' => Sound fd low asked False False ctx' ∧
            ctx'.kn.knState = .disconnected)
          Asserted ctx :=
      sound.wp_disconnect
    cases going with
    | reading rest sound _ _ =>
        exact wp_imp (closed sound) fun _ _ _ => trivial
    | finished rest sound _ =>
        exact wp_imp (closed sound) fun _ _ _ => trivial
  apply wp_imp
    (KcnNet.wp_starved KcnNet.stops_disconnect
      (KcnNet.keeps_disconnect.wp closes))
  rintro _ ctx' ⟨_, same⟩
  rw [(inbound_parts same).1]
  exact faithful

/--
Whatever the server sends, in whatever reads, and whatever `errno` is before
each event, a search only waits for the environment and stores the first
locators of the stream's responses, as many as there is room for.
-/
theorem client_robust
    {ibuf obuf : List UInt8} {env : Env} {answers : List NetAnswer}
    {kn : KcnNet} {io : NetIo}
    (makes :
      KcnNet.new fd ibuf obuf (NetIo.start env answers stream) =
        .ok (some kn, io))
    (ibufSize : ibuf.length = kcnMsgMaxsiz)
    (obufSize : obuf.length = kcnMsgMaxsiz)
    (loctype : KcnLocType) (maxnlocs : Nat)
    (kmq : KcnMsgQuery) (deliveries : List NetStep) :
    wp (search deliveries kmq)
      (fun _ ctx' => Faithful stream maxnlocs ctx'.data.kcrKi)
      (fun reason => reason = .starved)
      (opened kn io (KcnInfo.new loctype maxnlocs)) := by
  obtain ⟨sound, _, isInit⟩ :=
    opened_phase makes (KcnInfo.new loctype maxnlocs)
  obtain ⟨tracked, roomy, output⟩ :=
    opened_going makes ibufSize obufSize loctype maxnlocs
  unfold search
  rw [wp_bind]
  apply wp_imp
    (wp_querySend_going sound isInit output tracked roomy)
  rintro ok ctx₁ going₁
  split
  · rw [wp_bind]
    apply wp_imp (going₁.wp_loop deliveries)
    intro _ ctx₂ going₂
    rw [wp_bind, wp_gets]
    split
    · rw [wp_bind]
      have going₃ : Going fd maxnlocs stream {
          ctx₂ with
          io := {
            ctx₂.io with
            env := {
              ctx₂.io.env with errno := ctx₂.data.kcrError
            }
          }
        } := by
        cases going₂ with
        | reading rest sound tracked roomy =>
            exact .reading rest { sound with }
              ⟨tracked.incoming_eq, tracked.max_eq, tracked.taken⟩ roomy
        | finished rest sound tracked =>
            exact .finished rest { sound with }
              ⟨tracked.incoming_eq, tracked.max_eq, tracked.taken⟩
      simp only [setErrno, sys, NetIo.setErrno, wp_zoom, wp_modify,
        wp_bind]
      apply wp_imp going₃.wp_destroy
      intro _ ctx₄ faithful
      exact faithful
    · rw [wp_bind]
      apply wp_imp going₂.wp_destroy
      intro _ ctx₃ faithful
      exact faithful
  · rw [wp_bind]
    apply wp_imp going₁.wp_destroy
    intro _ ctx₂ faithful
    exact faithful

/-- A server that sends two locators to a client with room for one. -/
theorem client_robust_two :
    wp (search [writes .full, readsAll] query)
      (fun _ ctx' =>
        Faithful
          (frame .response [0, 1, 0x61] ++ frame .response [0, 2, 0x62]) 1
          ctx'.data.kcrKi)
      (fun reason => reason = .starved)
      (asking
        (frame .response [0, 1, 0x61] ++
          frame .response [0, 2, 0x62])) := by
  unfold asking
  have length :
      (List.replicate kcnMsgMaxsiz (0 : UInt8)).length = kcnMsgMaxsiz :=
    List.length_replicate
  generalize List.replicate kcnMsgMaxsiz (0 : UInt8) = block at length ⊢
  have makes := new_built 3 block block { errno := 0, trace := [] }
    [.malloc true]
      (frame .response [0, 1, 0x61] ++ frame .response [0, 2, 0x62])
  exact client_robust makes length length .uri 1 query
    [writes .full, readsAll]

end KcnClient

end Kcn
