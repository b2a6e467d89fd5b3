import Kcn.Receiving

namespace Kcn

open Program Bytes KcnBuf Framing

/-!
# The success of a search

`kcn_client_search` succeeds when its event loop ends and no error was noted.
It is known to have the results if some data arrived and no `EAGAIN` at the end
of the results met an `errno` of 0.
-/

/-! ### What only reading changes -/

/-- What was received of the bytes that the peer sends. -/
def NetIo.inbound (io : NetIo) : List UInt8 × Nat :=
  (io.incoming, io.received)

namespace NetIo

theorem keeps_next : Keeps inbound next := by
  intro io
  apply wp_next trivial
  intro answer rest _
  rfl

theorem keeps_setErrno (errno : Errno) :
    Keeps inbound (setErrno errno) :=
  .modify fun _ => rfl

theorem keeps_malloc : Keeps inbound malloc := by
  unfold malloc
  apply keeps_next.bind
  intro answer
  cases answer with
  | malloc ok =>
      apply Keeps.ite (.pure _)
      exact (keeps_setErrno _).bind fun _ => .pure _
  | eventAdd error | callback take calls error =>
      exact .stop _

theorem keeps_event : Keeps inbound event := by
  unfold event
  apply keeps_next.bind
  intro answer
  cases answer with
  | eventAdd error =>
      cases error with
      | none =>
          exact .pure _
      | some error =>
          exact (keeps_setErrno _).bind fun _ => .pure _
  | malloc ok | callback take calls error =>
      exact .stop _

theorem keeps_socketClose (fd : Option Nat) :
    Keeps inbound (socketClose fd) := by
  cases fd with
  | none =>
      exact .pure _
  | some number =>
      apply Keeps.bind
      · exact .modify fun _ => rfl
      · exact fun _ => .pure _

end NetIo

namespace NetCtx

variable {δ : Type}

/-- The receiving side of a connection and what its user has. -/
def inbound (ctx : NetCtx δ) : δ × KcnBuf × List UInt8 × Nat :=
  (ctx.data, ctx.kn.knIbuf, ctx.io.inbound)

/-- The parts of the receiving side are the same. -/
theorem inbound_parts
    {ctx ctx' : NetCtx δ} (same : ctx'.inbound = ctx.inbound) :
    ctx'.data = ctx.data ∧ ctx'.kn.knIbuf = ctx.kn.knIbuf ∧
      ctx'.io.incoming = ctx.io.incoming ∧
      ctx'.io.received = ctx.io.received := by
  obtain ⟨dataEq, sameRest⟩ := Prod.mk.inj same
  obtain ⟨kbEq, sameIo⟩ := Prod.mk.inj sameRest
  obtain ⟨incomingEq, receivedEq⟩ := Prod.mk.inj sameIo
  exact ⟨dataEq, kbEq, incomingEq, receivedEq⟩

theorem keeps_sys
    {α : Type} {op : Program Stop NetIo α}
    (keeps : Keeps NetIo.inbound op) :
    Keeps (@inbound δ) (sys op) := by
  apply keeps.zoom_part
  intro ctx io same
  exact congrArg (fun part => (ctx.data, ctx.kn.knIbuf, part)) same

theorem keeps_setKn
    {update : KcnNet → KcnNet}
    (same : ∀ kn, (update kn).knIbuf = kn.knIbuf) :
    Keeps (@inbound δ) (setKn update) := by
  apply Keeps.modify
  intro ctx
  exact congrArg (fun kb => (ctx.data, kb, ctx.io.inbound)) (same ctx.kn)

end NetCtx

namespace KcnNet

open NetCtx

variable {δ : Type}

theorem keeps_stateAssign (nstate : KcnNetState) :
    Keeps (@inbound δ) (stateAssign nstate) := by
  apply Keeps.modify
  intro ctx
  split <;> rfl

theorem keeps_evreadEnable : Keeps (@inbound δ) evreadEnable := by
  unfold evreadEnable
  apply Keeps.bind (.gets _)
  intro registered
  apply Keeps.ite (.pure _)
  apply (keeps_sys NetIo.keeps_event).bind
  intro ok
  apply Keeps.ite _ (.pure _)
  apply Keeps.bind
  · exact keeps_setKn fun _ => rfl
  · exact fun _ => .pure _

theorem keeps_writeEnable : Keeps (@inbound δ) writeEnable := by
  unfold writeEnable
  apply Keeps.bind (.gets _)
  intro registered
  apply Keeps.ite (.pure _)
  apply (keeps_sys NetIo.keeps_event).bind
  intro ok
  apply Keeps.ite _ (.pure _)
  apply Keeps.bind
  · exact keeps_setKn fun _ => rfl
  · exact fun _ => .pure _

theorem keeps_readEnable : Keeps (@inbound δ) readEnable := by
  unfold readEnable
  apply Keeps.bind (.gets _)
  intro nstate
  apply Keeps.ite (.stop _)
  apply Keeps.bind (.gets _)
  intro nstate
  apply Keeps.ite _ keeps_evreadEnable
  exact (keeps_stateAssign _).bind fun _ => .pure _

theorem keeps_stateChange (nstate : KcnNetState) :
    Keeps (@inbound δ) (stateChange nstate) := by
  unfold stateChange
  apply Keeps.bind (.gets _)
  intro ostate
  apply (keeps_stateAssign _).bind
  intro _
  apply Keeps.ite _ (.pure _)
  exact keeps_readEnable.bind fun _ => .pure _

theorem keeps_disconnect : Keeps (@inbound δ) disconnect := by
  unfold disconnect
  apply Keeps.bind (.gets _)
  intro nstate
  apply Keeps.ite (.pure _)
  apply Keeps.bind
  · exact keeps_setKn fun _ => rfl
  intro _
  apply Keeps.bind
  · exact keeps_setKn fun _ => rfl
  intro _
  apply Keeps.bind (.gets _)
  intro fd
  apply (keeps_sys (NetIo.keeps_socketClose fd)).bind
  intro fd
  apply Keeps.bind
  · exact keeps_setKn fun _ => rfl
  · exact fun _ => keeps_stateChange _

theorem keeps_eventCheck (events : EventFlags) :
    Keeps (@inbound δ) (eventCheck events) := by
  unfold eventCheck
  apply Keeps.ite
  · exact (keeps_stateChange _).bind fun _ => .pure _
  · apply Keeps.ite _ (.pure _)
    exact keeps_disconnect.bind fun _ => .pure _

theorem keeps_write : Keeps (@inbound δ) write := by
  unfold write enqueue
  apply Keeps.bind (.gets _)
  intro nstate
  apply Keeps.ite
  · exact (keeps_sys (NetIo.keeps_setErrno _)).bind fun _ => .pure _
  · apply Keeps.bind
    · apply (keeps_sys NetIo.keeps_malloc).bind
      intro ok
      apply Keeps.ite _ (.pure _)
      apply Keeps.bind
      · exact keeps_setKn fun _ => rfl
      · exact fun _ => .pure _
    · intro ok
      apply Keeps.ite _ (.pure _)
      apply keeps_writeEnable.bind
      intro ok
      apply Keeps.ite _ (.pure _)
      apply Keeps.bind
      · exact .modify fun _ => rfl
      · exact fun _ => .pure _

theorem keeps_readOut (error : Errno) :
    Keeps (@inbound δ) (readOut error) := by
  unfold readOut
  apply Keeps.ite
  · exact keeps_readEnable.bind fun _ => .pure _
  · exact Keeps.ite keeps_disconnect (.pure _)

theorem keeps_writeLoop (rounds : Nat) :
    Keeps (@inbound δ) (writeLoop rounds) := by
  induction rounds with
  | zero =>
      exact .stop _
  | succ rounds inductionHypothesis =>
      unfold writeLoop
      apply Keeps.bind (.gets _)
      intro queue
      cases queue with
      | nil =>
          exact .pure _
      | cons kbd rest =>
          apply Keeps.bind
          · exact .zoom fun _ _ => rfl
          intro error
          apply Keeps.ite
          · exact keeps_writeEnable.bind fun _ => .pure _
          · apply Keeps.ite keeps_disconnect
            apply Keeps.bind (.gets _)
            intro queue
            cases queue with
            | nil =>
                exact .pure _
            | cons kbd rest =>
                apply Keeps.ite _ inductionHypothesis
                apply Keeps.bind
                · exact keeps_setKn fun _ => rfl
                · exact fun _ => inductionHypothesis

theorem keeps_writeCb (fd : Option Nat) (events : EventFlags) :
    Keeps (@inbound δ) (writeCb fd events) := by
  unfold writeCb assertFd
  apply Keeps.bind
  · apply Keeps.bind (.gets _)
    exact fun _ => Keeps.ite (.pure _) (.stop _)
  · intro _
    apply Keeps.bind (.gets _)
    intro nstate
    apply Keeps.ite (keeps_stateChange _)
    apply (keeps_eventCheck events).bind
    intro ok
    apply Keeps.ite _ (.pure _)
    apply Keeps.bind (.gets _)
    exact fun _ => keeps_writeLoop _

end KcnNet

namespace KcnClient

open NetCtx

/-! ### When a search can succeed -/

/-- What `kcn_buf_read` leaves if the step then calls `kcn_client_read`. -/
def arrival (ctx : NetCtx KcnClientResponse) (step : NetStep) :
    Option FileCtx :=
  match step.action with
  | .readEvent events =>
      if events.ready then
        match KcndbFile.bufRead (ibufLens.get (ctx.answered step)) with
        | .ok (error, part) => if error = 0 then some part else none
        | .error _ => none
      else
        none
  | .call _ | .writeEvent _ => none

/-- A response without a locator and with error 0 is complete in the bytes. -/
def Terminates (bytes : List UInt8) : Prop :=
  ∃ kmrs rest,
    clientFramer.Takes bytes kmrs rest ∧
      ∃ kmr ∈ kmrs, kmr.kmrLoclen = 0 ∧ kmr.kmrError.toNat = 0

/-- `kcn_client_read` ends on a response without a locator and `EAGAIN`. -/
def EndsAgain (ctx : NetCtx KcnClientResponse) (bytes : List UInt8) :
    Prop :=
  ∃ kmrs rest answers ki kmr later,
    Stored ctx bytes kmrs rest answers ki ∧
      clientCut rest = .take kmr later ∧ kmr.kmrLoclen = 0 ∧
      kmr.kmrError.toNat = Errno.eagain

/-- An `EAGAIN` ends the results while `errno` is 0. -/
def Forgets (ctx : NetCtx KcnClientResponse) (step : NetStep) : Prop :=
  ∃ part, arrival ctx step = some part ∧ part.env.errno = 0 ∧
    EndsAgain (ibufLens.set (ctx.answered step) part) part.file.kb.after

/-- No event of the loop ends the results with an `EAGAIN` that is lost. -/
def Remembers
    (ctx : NetCtx KcnClientResponse) (deliveries : List NetStep) :
    Prop :=
  ∀ earlier step later between,
    deliveries = earlier ++ step :: later →
    KcnNet.loop read earlier ctx = .ok ((), between) →
    ¬ Forgets between step

/-- Some event of the loop calls `kcn_client_read`. -/
def Arrives
    (ctx : NetCtx KcnClientResponse) (deliveries : List NetStep) :
    Prop :=
  ∃ earlier step later between,
    deliveries = earlier ++ step :: later ∧
      KcnNet.loop read earlier ctx = .ok ((), between) ∧
      (arrival between step).isSome = true

/-- Responses were taken off what was received, and the rest is buffered. -/
def Pending (ctx : NetCtx KcnClientResponse) (rest : List UInt8) :
    Prop :=
  (∃ kmrs,
    clientFramer.Takes (ctx.io.incoming.take ctx.io.received) kmrs
      rest) ∧
    ∃ size sp, ctx.kn.knIbuf.Holds size sp [] rest

/--
What a client knows between two events, if `known` says that some data has
arrived.
-/
inductive Phase
    (fd : Nat) (known : Prop) (ctx : NetCtx KcnClientResponse) :
    Prop where
  | reading (rest : List UInt8) :
      (known → ctx.data.kcrError ≠ 0) →
      Sound fd 0 True False False ctx →
      Pending ctx rest →
      Phase fd known ctx
  | failed :
      ctx.data.kcrError ≠ 0 →
      ctx.kn.evread = false →
      ctx.kn.evwrite = false →
      Phase fd known ctx
  | done :
      Terminates (ctx.io.incoming.take ctx.io.received) →
      Sound fd 2 False False False ctx →
      Phase fd known ctx

variable
  {fd size : Nat} {known : Prop} {bytes rest : List UInt8}
  {ctx ctx' : NetCtx KcnClientResponse}

/-- Less needs to have arrived. -/
theorem Phase.mono
    {known' : Prop} (phase : Phase fd known ctx)
    (less : known' → known) :
    Phase fd known' ctx := by
  cases phase with
  | reading rest unknown sound pending =>
      exact .reading rest (fun isKnown => unknown (less isKnown)) sound
        pending
  | failed nonzero noRead noWrite =>
      exact .failed nonzero noRead noWrite
  | done terminates sound =>
      exact .done terminates sound

theorem Pending.same
    (pending : Pending ctx rest) (same : ctx'.inbound = ctx.inbound) :
    Pending ctx' rest := by
  obtain ⟨_, kbEq, incomingEq, receivedEq⟩ := inbound_parts same
  unfold Pending
  rw [kbEq, incomingEq, receivedEq]
  exact pending

/-- The bytes that are read follow those in the buffer. -/
theorem Pending.grow
    {taken : Trace} {new : List UInt8} {part : FileCtx}
    (pending : Pending ctx rest)
    (grown : KcndbFile.Grown (ibufLens.get ctx) taken new part) :
    Pending (ibufLens.set ctx part) (rest ++ new) := by
  obtain ⟨⟨kmrs, takes⟩, size, sp, holds⟩ := pending
  have contentEq : part.file.content = ctx.io.incoming :=
    grown.content_eq
  have offEq : part.file.off = ctx.io.received + new.length :=
    grown.off_eq
  have newEq :
      new = slice ctx.io.incoming ctx.io.received new.length :=
    grown.new_eq
  constructor
  · refine ⟨kmrs, ?_⟩
    simp only [ibufLens, offEq]
    have longer :
        ctx.io.incoming.take (ctx.io.received + new.length) =
          ctx.io.incoming.take ctx.io.received ++ new := by
      rw [List.take_add]
      exact congrArg _ newEq.symm
    rw [longer]
    exact takes.more new
  · refine ⟨size, part.file.kb.sp, ?_⟩
    exact {
      size_eq := grown.size_eq.trans holds.size_eq
      sp_eq := rfl
      before_eq := grown.before_eq.trans holds.before_eq
      after_eq := by
        have afterEq : part.file.kb.after =
            ctx.kn.knIbuf.after ++ new :=
          grown.after_eq
        rw [← holds.after_eq]
        exact afterEq
    }

/-- What refuses the data is neither success nor a reason to go on. -/
theorem errno_of_clientCut
    {error : Errno}
    (refuses : clientCut bytes = .refuse (.failed error)) :
    error ≠ 0 ∧ error ≠ Errno.eagain := by
  unfold clientCut headerVerdict at refuses
  split at refuses
  · cases refuses
  · rename_i errno verdict
    cases refuses
    split at verdict
    · cases verdict
    · split at verdict
      · cases verdict
        decide
      · split at verdict
        · cases verdict
          decide
        · split at verdict <;> cases verdict
  · split at refuses
    · cases refuses
      decide
    · split at refuses
      · cases refuses
        decide
      · cases refuses

/-- How `kcn_client_read` ends, for the rest of the search. -/
theorem Reads.outcome
    (reads : Reads ctx size bytes ctx')
    (pending : Pending ctx bytes)
    (remembered : ctx.io.env.errno = 0 → ¬ EndsAgain ctx bytes) :
    ctx'.io.env.errno = 0 ∧
        Terminates (ctx'.io.incoming.take ctx'.io.received) ∨
      ctx'.io.env.errno ≠ 0 ∧
        (ctx'.io.env.errno = Errno.eagain →
          ∃ rest, Pending ctx' rest) := by
  obtain ⟨⟨before, taken⟩, _⟩ := pending
  cases reads with
  | waits kmrs rest answers ki sp kb stored _ holds =>
      have all := taken.append stored.takes
      apply Or.inr
      simp only [storing]
      exact ⟨by decide, fun _ => ⟨rest, ⟨_, all⟩, size, sp, holds⟩⟩
  | refuses kmrs rest answers ki error kb _ refuses _ =>
      obtain ⟨nonzero, other⟩ := errno_of_clientCut refuses
      exact Or.inr ⟨nonzero, fun again => absurd again other⟩
  | answered kmrs rest answers ki kmr later sp kb stored cut unlocated
      holds =>
      have all : clientFramer.Takes
          (ctx.io.incoming.take ctx.io.received)
          (before ++ (kmrs ++ [kmr])) later :=
        taken.append (stored.takes.snoc cut)
      have isLast : kmr ∈ before ++ (kmrs ++ [kmr]) :=
        List.mem_append_right _
          (List.mem_append_right _ List.mem_cons_self)
      simp only [storing]
      by_cases again : kmr.kmrError.toNat = Errno.eagain
      · rw [ClientEnd.errno_of_again again]
        apply Or.inr
        constructor
        · intro zero
          exact remembered zero
            ⟨kmrs, rest, answers, ki, kmr, later, stored, cut, unlocated,
              again⟩
        · exact fun _ => ⟨later, ⟨_, all⟩, size, sp, holds⟩
      · rw [ClientEnd.errno_of_other again]
        by_cases zero : kmr.kmrError.toNat = 0
        · exact Or.inl
            ⟨zero, _, later, all, kmr, isLast, unlocated, zero⟩
        · exact Or.inr ⟨zero, fun same => absurd same again⟩
  | full kmrs rest answers ki kmr later sp kb _ _ _ _ _ =>
      apply Or.inr
      simp only [storing]
      exact ⟨by decide, fun again => absurd again (by decide)⟩
  | noMemory kmrs rest answers ki kmr later sp kb _ _ _ _ =>
      apply Or.inr
      simp only [storing]
      exact ⟨by decide, fun again => absurd again (by decide)⟩

/-- After `kcn_client_read` the search is over, failed or goes on. -/
theorem wp_readOut_phase
    (sound : Sound fd 0 True False False ctx)
    (entered : ctx.kn.knState = .established)
    (once : ctx.kn.evread = false)
    (outcome :
      ctx.data.kcrError = 0 ∧
          Terminates (ctx.io.incoming.take ctx.io.received) ∨
        ctx.data.kcrError ≠ 0 ∧
          (ctx.data.kcrError = Errno.eagain →
            ∃ rest, Pending ctx rest)) :
    wp (KcnNet.readOut ctx.data.kcrError)
      (fun _ ctx' => Phase fd known ctx') Asserted ctx := by
  rcases outcome with ⟨zero, terminates⟩ | ⟨nonzero, again⟩
  · rw [zero]
    apply Phase.done terminates
    exact {
      sound with
      least := by
        rw [entered]
        exact Nat.le_refl 2
      pending := fun pending => nomatch entered.symm.trans pending
      reading := fun registered => nomatch once.symm.trans registered
      armed := fun _ => False.elim
    }
  · unfold KcnNet.readOut
    split
    · rename_i isAgain
      obtain ⟨rest, pending⟩ := again isAgain
      have alive : ctx.kn.knState ≠ .disconnected := by
        rw [entered]
        exact nofun
      rw [wp_bind]
      apply wp_imp
        (KcnNet.keeps_readEnable.wp (sound.wp_readEnable trivial alive))
      rintro _ ctx' ⟨⟨sound', _⟩, same⟩
      apply Phase.reading rest _ sound' (pending.same same)
      intro _
      rw [(inbound_parts same).1]
      exact nonzero
    · have closes :
          wp KcnNet.disconnect
            (fun _ ctx' =>
              Sound fd 0 True False False ctx' ∧
                ctx'.kn.knState = .disconnected)
            Asserted ctx :=
        sound.wp_disconnect
      apply wp_imp (KcnNet.keeps_disconnect.wp closes)
      rintro _ ctx' ⟨⟨sound', dead⟩, same⟩
      obtain ⟨noRead, noWrite, _⟩ := sound'.dead dead
      apply Phase.failed _ noRead noWrite
      rw [(inbound_parts same).1]
      exact nonzero

/-- An established connection goes on to read. -/
theorem wp_eventCheck_established
    {post : Bool → NetCtx KcnClientResponse → Prop} {halt : Stop → Prop}
    {events : EventFlags}
    (entered : ctx.kn.knState = .established)
    (ready : events.ready = true)
    (next : post true ctx) :
    wp (KcnNet.eventCheck events) post halt ctx := by
  simp only [KcnNet.eventCheck, ready, if_true, wp_bind,
    KcnNet.stateChange, state, wp_gets, KcnNet.stateAssign, wp_modify,
    entered, reduceCtorEq, false_and, if_false, wp_pure]
  exact next

/-- What the read callback does with a connection that has data. -/
theorem wp_received_phase
    (unknown : known → ctx.data.kcrError ≠ 0)
    (sound : Sound fd 0 True False False ctx)
    (pending : Pending ctx rest)
    (entered : ctx.kn.knState = .established)
    (once : ctx.kn.evread = false)
    (remembers : ∀ part,
      KcndbFile.bufRead (ibufLens.get ctx) = .ok (0, part) →
        part.env.errno = 0 →
        ¬ EndsAgain (ibufLens.set ctx part) part.file.kb.after) :
    wp
      (do
        let error ← zoom ibufLens KcndbFile.bufRead
        if error = 0 then
          let error ← read
          KcnNet.readOut error
        else
          KcnNet.readOut error)
      (fun _ ctx' =>
        Phase fd
          (known ∨
            ∃ part,
              KcndbFile.bufRead (ibufLens.get ctx) = .ok (0, part))
          ctx')
      Asserted ctx := by
  have reads :
      wp KcndbFile.bufRead
        (fun error part =>
          KcndbFile.BufReadResult (ibufLens.get ctx) part error)
        Asserted (ibufLens.get ctx) := by
    apply KcndbFile.wp_bufRead (by decide) (fun _ => by decide)
    exact fun _ _ result _ => result
  rw [wp_bind, wp_zoom]
  apply wp_imp (wp_returned reads)
  rintro error part ⟨result, returns⟩
  have received :
      Sound fd 0 True False False (ibufLens.set ctx part) :=
    { sound with }
  -- without data the client only registers the event again or disconnects
  have quiet
      (taken : Trace) (nonzero : error ≠ 0)
      (grown : KcndbFile.Grown (ibufLens.get ctx) taken [] part) :
      wp (KcnNet.readOut error)
        (fun _ ctx' =>
          Phase fd
            (known ∨
              ∃ part,
                KcndbFile.bufRead (ibufLens.get ctx) = .ok (0, part))
            ctx')
        Asserted (ibufLens.set ctx part) := by
    have pending' := pending.grow grown
    rw [List.append_nil] at pending'
    apply wp_imp
      ((KcnNet.keeps_readOut error).wp
        (received.wp_readOut trivial entered error))
    rintro _ ctx' ⟨sound', same⟩
    apply Phase.reading rest _ sound' (pending'.same same)
    rintro (isKnown | ⟨part', data⟩)
    · rw [(inbound_parts same).1]
      exact unknown isKnown
    · rw [returns] at data
      cases data
      exact absurd rfl nonzero
  cases result with
  | failed taken error grown _ _ =>
      rw [if_neg error.errno_ne_zero]
      exact quiet taken error.errno_ne_zero grown
  | ended taken grown _ _ =>
      rw [if_neg (by decide)]
      exact quiet taken (by decide) grown
  | got taken new grown _ _ _ =>
      have pending' := pending.grow grown
      obtain ⟨_, size, sp, holds⟩ := pending'
      rw [if_pos rfl, wp_bind]
      apply wp_read (fun _ => by decide) holds
      intro ctx' readsOn
      have remembered :
          (ibufLens.set ctx part).io.env.errno = 0 →
            ¬ EndsAgain (ibufLens.set ctx part) (rest ++ new) := by
        intro zero ends
        apply remembers part returns zero
        rw [← holds.after_eq] at ends
        exact ends
      have outcome := readsOn.outcome (pending.grow grown) remembered
      have settled :
          Sound fd 0 True False False ctx' ∧
            ctx'.kn.knState = .established ∧
            ctx'.kn.evread = false := by
        cases readsOn <;>
          exact ⟨{ received with registers := False.elim }, entered,
            once⟩
      obtain ⟨sound', entered', once'⟩ := settled
      have sound'' :
          Sound fd 0 True False False {
            ctx' with
            data := { ctx'.data with kcrError := ctx'.io.env.errno }
          } :=
        { sound' with }
      exact wp_readOut_phase sound'' entered' once' outcome

/-- Data arrives when the event says so and the read returns some. -/
theorem arrival_eq_some
    {events : EventFlags} {env : Env} {answers : List NetAnswer}
    {part : FileCtx} :
    arrival ctx ⟨.readEvent events, env, answers⟩ = some part ↔
      events.ready = true ∧
        KcndbFile.bufRead
            (ibufLens.get
              (ctx.answered ⟨.readEvent events, env, answers⟩)) =
          .ok (0, part) := by
  unfold arrival
  by_cases ready : events.ready = true
  · simp only [ready, if_true, true_and]
    split
    · rename_i error part' returns
      rw [returns]
      constructor
      · intro arrives
        split at arrives
        · rename_i zero
          cases arrives
          rw [zero]
        · cases arrives
      · intro same
        cases same
        exact if_pos rfl
    · rename_i reason stops
      rw [stops]
      exact ⟨nofun, nofun⟩
  · simp only [ready]
    exact ⟨nofun, nofun⟩

/-- The delivery of the read event while the client waits for data. -/
theorem wp_readEvent_phase
    {events : EventFlags} {env : Env} {answers : List NetAnswer}
    (unknown : known → ctx.data.kcrError ≠ 0)
    (sound : Sound fd 0 True False False ctx)
    (pending : Pending ctx rest)
    (registered : ctx.kn.evread = true)
    (delivered : events.Delivered)
    (remembers :
      ¬ Forgets ctx ⟨.readEvent events, env, answers⟩) :
    wp ((NetAction.readEvent events).run read)
      (fun _ ctx' =>
        Phase fd
          (known ∨
            (arrival ctx ⟨.readEvent events, env, answers⟩).isSome =
              true)
          ctx')
      Asserted
      (ctx.answered ⟨.readEvent events, env, answers⟩) := by
  have entered : ctx.kn.knState = .established := sound.entered registered
  have alive : ctx.kn.knState ≠ .disconnected := by
    rw [entered]
    exact nofun
  let ctx₁ : NetCtx KcnClientResponse := {
    ctx.answered ⟨.readEvent events, env, answers⟩ with
    kn := { ctx.kn with evread := false }
  }
  have sound₁ : Sound fd 0 True False False ctx₁ :=
    {
      sound with
      reading := nofun
      entered := nofun
      dead := fun dead => absurd dead alive
      registers := False.elim
    }
  have pending₁ : Pending ctx₁ rest := pending
  have entered₁ : ctx₁.kn.knState = .established := entered
  have unknown₁ : known → ctx₁.data.kcrError ≠ 0 := unknown
  have callback :
      wp (KcnNet.readCb read ctx.kn.knFd events)
        (fun _ ctx' =>
          Phase fd
            (known ∨
              (arrival ctx ⟨.readEvent events, env, answers⟩).isSome =
                true)
            ctx')
        Asserted ctx₁ := by
    simp only [KcnNet.readCb, KcnNet.assertFd, wp_bind, wp_gets]
    rw [if_pos (show ctx₁.kn.knFd = ctx.kn.knFd from rfl), wp_pure]
    by_cases ready : events.ready = true
    · apply wp_eventCheck_established entered₁ ready
      have remembers₁ (part : FileCtx)
          (returns :
            KcndbFile.bufRead (ibufLens.get ctx₁) = .ok (0, part))
          (zero : part.env.errno = 0) :
          ¬ EndsAgain (ibufLens.set ctx₁ part) part.file.kb.after := by
        rintro ⟨kmrs, rest', answers', ki, kmr, later, stored, ends⟩
        have arrives := arrival_eq_some.mpr ⟨ready, returns⟩
        exact remembers
          ⟨part, arrives, zero, kmrs, rest', answers', ki, kmr, later,
            { stored with }, ends⟩
      rw [if_pos rfl]
      apply wp_imp
        (wp_received_phase unknown₁ sound₁ pending₁ entered₁ rfl
          remembers₁)
      intro _ ctx' phase
      apply phase.mono
      rintro (isKnown | arrived)
      · exact Or.inl isKnown
      · obtain ⟨part, arrives⟩ := Option.isSome_iff_exists.mp arrived
        exact Or.inr ⟨part, (arrival_eq_some.mp arrives).2⟩
    · have timeout : events.timeout = true :=
        delivered.resolve_left ready
      have closes :
          wp KcnNet.disconnect
            (fun _ ctx' =>
              Sound fd 0 True False False ctx' ∧
                ctx'.kn.knState = .disconnected)
            Asserted ctx₁ :=
        sound₁.wp_disconnect
      unfold KcnNet.eventCheck
      rw [if_neg ready, if_pos timeout, wp_bind]
      apply wp_imp (KcnNet.keeps_disconnect.wp closes)
      rintro _ ctx' ⟨⟨sound', _⟩, same⟩
      apply Phase.reading rest _ sound' (pending₁.same same)
      rintro (isKnown | arrived)
      · rw [(inbound_parts same).1]
        exact unknown isKnown
      · obtain ⟨part, arrives⟩ := Option.isSome_iff_exists.mp arrived
        exact absurd (arrival_eq_some.mp arrives).1 ready
  simp only [NetAction.run, wp_bind, setKn, wp_modify, wp_gets, wp_pure]
  exact callback

/-- One event of the loop. -/
theorem Phase.wp_event
    {step : NetStep}
    (phase : Phase fd known ctx)
    (isEvent : step.action.IsEvent)
    (enabled : step.action.Enabled ctx.kn)
    (remembers : ¬ Forgets ctx step) :
    wp (step.action.run read)
      (fun _ ctx' =>
        Phase fd (known ∨ (arrival ctx step).isSome = true) ctx')
      Asserted (ctx.answered step) := by
  obtain ⟨action, env, answers⟩ := step
  cases action with
  | call user =>
      exact isEvent.elim
  | readEvent events =>
      obtain ⟨registered, delivered⟩ := enabled
      cases phase with
      | reading rest unknown sound pending =>
          exact wp_readEvent_phase unknown sound pending registered
            delivered remembers
      | failed _ noRead _ =>
          cases registered.symm.trans noRead
      | done _ sound =>
          exact (sound.reading registered).elim
  | writeEvent events =>
      obtain ⟨registered, delivered⟩ := enabled
      have silent :
          known ∨ (arrival ctx ⟨.writeEvent events, env, answers⟩).isSome =
              true →
            known := by
        rintro (isKnown | arrived)
        · exact isKnown
        · cases arrived
      have keeps :
          Keeps (@inbound KcnClientResponse)
            ((NetAction.writeEvent events).run read) := by
        apply Keeps.bind
        · exact keeps_setKn fun _ => rfl
        intro _
        apply Keeps.bind (.gets _)
        intro number
        exact (KcnNet.keeps_writeCb _ _).bind fun _ => .pure _
      cases phase with
      | reading rest unknown sound pending =>
          have answered :
              Sound fd 0 True False False
                (ctx.answered ⟨.writeEvent events, env, answers⟩) :=
            { sound with registers := False.elim }
          apply wp_imp
            (keeps.wp
              (answered.wp_writeEvent registered delivered False.elim))
          rintro _ ctx' ⟨sound', same⟩
          apply Phase.reading rest _ sound' (pending.same same)
          intro isKnown
          rw [(inbound_parts same).1]
          exact unknown (silent isKnown)
      | failed _ _ noWrite =>
          cases registered.symm.trans noWrite
      | done terminates sound =>
          have answered :
              Sound fd 2 False False False
                (ctx.answered ⟨.writeEvent events, env, answers⟩) :=
            { sound with registers := False.elim }
          apply wp_imp
            (keeps.wp
              (answered.wp_writeEvent registered delivered False.elim))
          rintro _ ctx' ⟨sound', same⟩
          apply Phase.done _ sound'
          obtain ⟨_, _, incomingEq, receivedEq⟩ := inbound_parts same
          rw [incomingEq, receivedEq]
          exact terminates

/-- The loop goes on behind its first event. -/
theorem loop_cons
    {step : NetStep} {ok : Bool} {ctx₁ : NetCtx KcnClientResponse}
    (isEvent : step.action.IsEvent)
    (enabled : step.action.Enabled ctx.kn)
    (ran : step.action.run read (ctx.answered step) = .ok (ok, ctx₁))
    (later : List NetStep) :
    KcnNet.loop read (step :: later) ctx = KcnNet.loop read later ctx₁ := by
  have both : step.action.IsEvent ∧ step.action.Enabled ctx.kn :=
    ⟨isEvent, enabled⟩
  simp [KcnNet.loop, bind, gets, Program.modify, both, ran]

/-- The event loop of a client. -/
theorem Phase.wp_loop
    {deliveries : List NetStep}
    (phase : Phase fd known ctx)
    (remembers : Remembers ctx deliveries) :
    wp (KcnNet.loop read deliveries)
      (fun _ ctx' => Phase fd (known ∨ Arrives ctx deliveries) ctx')
      Asserted ctx := by
  induction deliveries generalizing known ctx with
  | nil =>
      apply phase.mono
      rintro (isKnown | ⟨earlier, step, later, _, shape, _⟩)
      · exact isKnown
      · cases earlier <;> cases shape
  | cons step later inductionHypothesis =>
      unfold KcnNet.loop
      rw [wp_bind, wp_gets]
      split
      · rename_i delivered
        obtain ⟨isEvent, enabled⟩ := delivered
        simp only [wp_bind, wp_modify]
        have first : ¬ Forgets ctx step :=
          remembers [] step later ctx rfl rfl
        apply wp_imp
          (wp_returned (phase.wp_event isEvent enabled first))
        rintro ok ctx₁ ⟨phase₁, ran⟩
        have goes := loop_cons isEvent enabled ran
        have others : Remembers ctx₁ later := by
          intro earlier next more between shape loops
          apply remembers (step :: earlier) next more between
          · rw [shape, List.cons_append]
          · rw [goes earlier]
            exact loops
        apply wp_imp (inductionHypothesis phase₁ others)
        intro _ ctx' phase'
        apply phase'.mono
        rintro (isKnown | ⟨earlier, next, more, between, shape, loops,
          arrived⟩)
        · exact Or.inl (Or.inl isKnown)
        · cases earlier with
          | nil =>
              cases shape
              cases loops
              exact Or.inl (Or.inr arrived)
          | cons head earlier =>
              cases shape
              rw [goes earlier] at loops
              exact Or.inr
                ⟨earlier, next, more, between, rfl, loops, arrived⟩
      · rintro ⟨⟩

/-! ### The search -/

/-- `kcn_client_search` when `kcn_client_init` made the connection. -/
def opened (kn : KcnNet) (io : NetIo) (ki : KcnInfo) :
    NetCtx KcnClientResponse where
  kn := kn
  io := io
  data := { kcrError := 0, kcrKi := ki }

/-- A connection that was just made has received nothing. -/
theorem opened_phase
    {ibuf obuf incoming : List UInt8} {env : Env}
    {answers : List NetAnswer} {kn : KcnNet} {io : NetIo}
    (makes :
      KcnNet.new fd ibuf obuf (NetIo.start env answers incoming) =
        .ok (some kn, io))
    (ki : KcnInfo) :
    Sound fd 0 True False False (opened kn io ki) ∧
      Pending (opened kn io ki) [] ∧
      (opened kn io ki).kn.knState = .init := by
  have making :
      wp (KcnNet.new fd ibuf obuf)
        (Made fd ibuf obuf (NetIo.start env answers incoming))
        (fun _ => True) (NetIo.start env answers incoming) :=
    KcnNet.wp_new fd ibuf obuf _ trivial
  have outcome := wp_ok making makes
  cases outcome with
  | made env rest _ =>
      have base :
          Sound fd 0 True False False
            (built fd ibuf obuf env rest incoming).waiting :=
        sound_built fd ibuf obuf env rest incoming
      refine ⟨{ base with registers := False.elim }, ?_, rfl⟩
      exact ⟨⟨[], .nil _⟩, ibuf.length, 0, KcnBuf.holds_new ibuf⟩

/-- Once its query is queued a client waits for the responses. -/
theorem wp_querySend
    (sound : Sound fd 0 True False False ctx)
    (pending : Pending ctx rest)
    (isInit : ctx.kn.knState = .init)
    (kmq : KcnMsgQuery) :
    wp (querySend kmq) (fun _ ctx' => Phase fd False ctx')
      (fun _ => True) ctx := by
  unfold querySend
  rw [wp_bind, wp_zoom]
  apply wp_of_ok
  intro _ part _
  have encoded :
      Sound fd 0 True False False (obufLens.set ctx part) :=
    { sound with }
  have pending' : Pending (obufLens.set ctx part) rest := pending
  rw [wp_bind]
  apply wp_mono (KcnNet.keeps_write.wp encoded.wp_write) _
    fun _ _ => trivial
  rintro ok ctx₁ ⟨⟨sound₁, stateEq⟩, same⟩
  cases ok with
  | false =>
      exact .reading rest False.elim sound₁ (pending'.same same)
  | true =>
      rw [if_pos rfl]
      have alive : ctx₁.kn.knState ≠ .disconnected := by
        rw [stateEq]
        intro dead
        exact nomatch isInit.symm.trans dead
      apply wp_mono
        (KcnNet.keeps_readEnable.wp (sound₁.wp_readEnable trivial alive))
        _ fun _ _ => trivial
      rintro _ ctx₂ ⟨⟨sound₂, _⟩, same₂⟩
      exact .reading rest False.elim sound₂
        (pending'.same (same₂.trans same))

/--
A search that reads some data succeeds only after a final response with error 0
was received completely, unless it loses an `EAGAIN`.
-/
theorem search_completes
    {ibuf obuf incoming : List UInt8} {env : Env}
    {answers : List NetAnswer} {kn : KcnNet} {io : NetIo} {ki : KcnInfo}
    {kmq : KcnMsgQuery} {deliveries : List NetStep}
    {ctx₁ : NetCtx KcnClientResponse}
    (makes :
      KcnNet.new fd ibuf obuf (NetIo.start env answers incoming) =
        .ok (some kn, io))
    (queued : querySend kmq (opened kn io ki) = .ok (true, ctx₁))
    (arrives : Arrives ctx₁ deliveries)
    (remembers : Remembers ctx₁ deliveries)
    (succeeds :
      search deliveries kmq (opened kn io ki) = .ok (true, ctx')) :
    Terminates (ctx'.io.incoming.take ctx'.io.received) := by
  obtain ⟨sound, pending, isInit⟩ := opened_phase makes ki
  have waiting := wp_ok (wp_querySend sound pending isInit kmq) queued
  have searches :
      wp (search deliveries kmq)
        (fun ok ctx' =>
          ok = true →
            Terminates (ctx'.io.incoming.take ctx'.io.received))
        (fun _ => True) (opened kn io ki) := by
    unfold search
    rw [wp_bind_of_ok queued, if_pos rfl, wp_bind]
    apply wp_mono (waiting.wp_loop remembers) _ fun _ _ => trivial
    intro _ ctx₂ phase
    rw [wp_bind, wp_gets]
    have known : False ∨ Arrives ctx₁ deliveries := Or.inr arrives
    split
    · apply wp_of_ok
      intro ok ctx₃ returns isTrue
      obtain ⟨_, _, _, rest⟩ := bind_ok returns
      obtain ⟨_, _, _, last⟩ := bind_ok rest
      cases last
      cases isTrue
    · rename_i zero
      rw [wp_bind]
      apply wp_imp (KcnNet.keeps_disconnect ctx₂)
      intro _ ctx₃ same _
      have terminates :
          Terminates (ctx₂.io.incoming.take ctx₂.io.received) := by
        cases phase with
        | reading rest unknown _ _ =>
            exact absurd (unknown known) zero
        | failed nonzero _ _ =>
            exact absurd nonzero zero
        | done terminates _ =>
            exact terminates
      obtain ⟨_, _, incomingEq, receivedEq⟩ := inbound_parts same
      rw [incomingEq, receivedEq]
      exact terminates
  exact wp_ok searches succeeds rfl

/-- The connection that `kcn_net_new` returns when nothing fails. -/
theorem new_built
    (fd : Nat) (ibuf obuf : List UInt8) (env : Env)
    (answers : List NetAnswer) (incoming : List UInt8) :
    KcnNet.new fd ibuf obuf
        (NetIo.start env (NetIo.allGranted ++ answers) incoming) =
      .ok (some (built fd ibuf obuf env answers incoming).kn,
        (built fd ibuf obuf env answers incoming).io) :=
  rfl

/-- A query for one locator. -/
def query : KcnMsgQuery where
  kmqLoctype := .uri
  kmqMaxcount := 1
  kmqEq := {
    keType := 1
    keOp := 1
    keVal := 0
    keStart := 0
    keEnd := kcnTimeNow
  }

/-- A client on a new connection, with memory for its query. -/
def asking (incoming : List UInt8) : NetCtx KcnClientResponse :=
  let block := List.replicate kcnMsgMaxsiz 0
  let ctx :=
    built 3 block block { errno := 0, trace := [] } [.malloc true]
      incoming
  opened ctx.kn ctx.io (KcnInfo.new .uri 1)

/-- The socket answers the write of the query. -/
def writes (transfer : Transfer) : NetStep where
  action := .writeEvent { ready := true, timeout := false }
  env := { errno := 0, trace := [.write transfer] }
  answers := [.eventAdd none]

/-- Everything that was sent is read, and `errno` is `EAGAIN` from before. -/
def readsAll : NetStep where
  action := .readEvent { ready := true, timeout := false }
  env := { errno := Errno.eagain, trace := [.read .full] }
  answers := []

/--
Whether the search succeeds with the given number of bytes received, its loop
ending without a registered event.
-/
def succeeds
    (deliveries : List NetStep) (incoming : List UInt8)
    (received : Nat) : Bool :=
  match querySend query (asking incoming) with
  | .ok (true, ctx₁) =>
      match KcnNet.loop read deliveries ctx₁,
        search deliveries query (asking incoming) with
      | .ok (_, ctx₂), .ok (true, ctx') =>
          !ctx₂.kn.evread && !ctx₂.kn.evwrite &&
            ctx'.io.received == received
      | _, _ => false
  | _ => false

theorem searched_of_succeeds
    {deliveries : List NetStep} {incoming : List UInt8} {received : Nat}
    (shown : succeeds deliveries incoming received = true) :
    ∃ ctx₁ ctx₂ ctx',
      querySend query (asking incoming) = .ok (true, ctx₁) ∧
        KcnNet.loop read deliveries ctx₁ = .ok ((), ctx₂) ∧
        ctx₂.kn.evread = false ∧ ctx₂.kn.evwrite = false ∧
        search deliveries query (asking incoming) = .ok (true, ctx') ∧
        ctx'.io.received = received := by
  unfold succeeds at shown
  split at shown
  · rename_i ctx₁ queued
    split at shown
    · rename_i ctx₂ ctx' loops searches
      simp only [Bool.and_eq_true, Bool.not_eq_true', beq_iff_eq]
        at shown
      obtain ⟨⟨noRead, noWrite⟩, receivedEq⟩ := shown
      exact ⟨ctx₁, ctx₂, ctx', queued, loops, noRead, noWrite, searches,
        receivedEq⟩
    · cases shown
  · cases shown

/-- Whether the second event brings data while `errno` is not 0. -/
def arrivesSecond
    (first second : NetStep) (incoming : List UInt8) : Bool :=
  match querySend query (asking incoming) with
  | .ok (true, ctx₁) =>
      match KcnNet.loop read [first] ctx₁ with
      | .ok (_, between) =>
          (arrival between second).any fun part => part.env.errno != 0
      | .error _ => false
  | _ => false

/-- A search to which `search_completes` applies. -/
theorem search_completes_two :
    ∃ ctx',
      search [writes .full, readsAll] query
          (asking (frame .response [0, 0])) = .ok (true, ctx') ∧
        Terminates (ctx'.io.incoming.take ctx'.io.received) := by
  obtain ⟨ctx₁, ctx₂, ctx', queued, _, _, _, searches, _⟩ :=
    searched_of_succeeds
      (show
        succeeds [writes .full, readsAll] (frame .response [0, 0]) 6 =
          true
        by decide +kernel)
  have second :
      arrivesSecond (writes .full) readsAll (frame .response [0, 0]) =
        true := by
    decide +kernel
  unfold arrivesSecond at second
  rw [queued] at second
  simp only at second
  split at second
  · rename_i ok between loops
    obtain ⟨part, arrives, nonzero⟩ :=
      (Option.any_eq_true _ _).mp second
    have arrivesHere : Arrives ctx₁ [writes .full, readsAll] :=
      ⟨[writes .full], readsAll, [], between, rfl, loops,
        Option.isSome_iff_exists.mpr ⟨part, arrives⟩⟩
    have remembers : Remembers ctx₁ [writes .full, readsAll] := by
      rintro earlier step later between' shape loops' ⟨part', here,
        zero, _⟩
      cases earlier with
      | nil =>
          cases shape
          cases here
      | cons head earlier =>
          cases earlier with
          | nil =>
              cases shape
              cases loops.symm.trans loops'
              cases arrives.symm.trans here
              rw [zero] at nonzero
              cases nonzero
          | cons head' earlier =>
              cases earlier <;> cases shape
    have terminates :=
      search_completes (new_built 3 _ _ _ _ _) queued arrivesHere
        remembers searches
    exact ⟨ctx', searches, terminates⟩
  · cases second

/-- No response is complete in no bytes. -/
theorem not_terminates_nil : ¬ Terminates [] := by
  rintro ⟨kmrs, rest, takes, kmr, member, _⟩
  cases takes with
  | nil =>
      cases member
  | cons cut _ =>
      cases cut

/--
A search whose query could not be sent succeeds, although nothing was received
and no event is left.
-/
theorem search_deceived :
    ∃ ctx₁ ctx₂ ctx',
      querySend query (asking []) = .ok (true, ctx₁) ∧
        KcnNet.loop read [writes (.fail .epipe)] ctx₁ =
          .ok ((), ctx₂) ∧
        ctx₂.kn.evread = false ∧ ctx₂.kn.evwrite = false ∧
        search [writes (.fail .epipe)] query (asking []) =
          .ok (true, ctx') ∧
        ¬ Terminates (ctx'.io.incoming.take ctx'.io.received) := by
  obtain ⟨ctx₁, ctx₂, ctx', queued, loops, noRead, noWrite, searches,
    none⟩ :=
    searched_of_succeeds
      (show succeeds [writes (.fail .epipe)] [] 0 = true by
        decide +kernel)
  refine ⟨ctx₁, ctx₂, ctx', queued, loops, noRead, noWrite, searches, ?_⟩
  rw [none]
  exact not_terminates_nil

end KcnClient

end Kcn
