import Kcn.Lifetime

namespace Kcn

open Program

/-!
# The descriptor of a session

`kcndb_server_session` from `accept` on: it hands a copy of the descriptor to
the connection and keeps its own.
-/

/-- The action is the delivery of an event. -/
def NetAction.IsEvent : NetAction → Prop
  | .call _ => False
  | .readEvent _ | .writeEvent _ => True

instance (action : NetAction) : Decidable action.IsEvent := by
  cases action <;> unfold NetAction.IsEvent <;> infer_instance

namespace KcnNet

open NetCtx

/-- `kcn_net_loop`, with the events that are delivered until it ends. -/
def loop {δ : Type} (readcb : NetOp δ Errno) :
    List NetStep → NetOp δ Unit
  | [] => pure ()
  | step :: later => do
      let kn ← gets fun ctx => ctx.kn
      if step.action.IsEvent ∧ step.action.Enabled kn then
        modify fun ctx => ctx.answered step
        let _ ← step.action.run readcb
        loop readcb later
      else
        stop .starved

end KcnNet

namespace KcndbServer

open NetCtx

/-- `kcndb_server_session` -/
def netSession
    (deliveries : List NetStep) (fd : Nat) (ibuf obuf : List UInt8) :
    Program Stop NetIo Unit := do
  match ← KcnNet.new fd ibuf obuf with
  | none => do
      let _ ← NetIo.socketClose (some fd)
      pure ()
  | some kn => do
      let _ ← KcnNet.runOn kn do
        let _ ← KcnNet.readEnable
        KcnNet.loop scripted deliveries
        KcnNet.destroy
      pure ()

/-- A connection of which only the descriptor and the states are known. -/
abbrev Open (fd : Nat) (ctx : NetCtx Unit) : Prop :=
  Sound fd 0 True False False ctx

variable {fd : Nat} {ctx : NetCtx Unit}

/-- The event loop leaves a connection with its descriptor. -/
theorem wp_loop
    (deliveries : List NetStep) (known : Open fd ctx) :
    wp (KcnNet.loop scripted deliveries) (fun _ ctx' => Open fd ctx')
      Asserted ctx := by
  induction deliveries generalizing ctx with
  | nil =>
      exact known
  | cons step later inductionHypothesis =>
      unfold KcnNet.loop
      rw [wp_bind, wp_gets]
      split
      · rename_i delivered
        simp only [wp_bind, wp_modify]
        have rested : Open fd ctx.waiting :=
          known.answer _ False.elim
        apply wp_imp
          (rested.wp_run step delivered.2 (fun _ => trivial) False.elim
            False.elim fun isAsked _ sound' entered =>
              sound'.wp_scripted isAsked entered)
        intro _ ctx' known'
        exact inductionHypothesis { known' with registers := False.elim }
      · rintro ⟨⟩

/-- A connection that is served closes its descriptor once. -/
theorem wp_served
    (deliveries : List NetStep)
    (known : Open fd ctx)
    (alive : ctx.kn.knState ≠ .disconnected) :
    wp
      (do
        let _ ← KcnNet.readEnable
        KcnNet.loop scripted deliveries
        KcnNet.destroy : NetOp Unit Unit)
      (fun _ ctx' => ctx'.io.closed = [fd])
      Asserted ctx := by
  rw [wp_bind]
  apply wp_imp (known.wp_readEnable trivial alive)
  rintro _ ctx₁ ⟨known₁, _⟩
  rw [wp_bind]
  apply wp_imp (wp_loop deliveries known₁)
  intro _ ctx₂ known₂
  have gone :
      wp KcnNet.disconnect
        (fun _ ctx' =>
          Open fd ctx' ∧ ctx'.kn.knState = .disconnected)
        Asserted ctx₂ :=
    known₂.wp_disconnect
  apply wp_imp gone
  rintro _ ctx₃ ⟨known₃, dead⟩
  exact (known₃.dead dead).2.2.2

/-- The structure is not allocated, or nothing in `kcn_net_new` fails. -/
def OwnsOnce (answers : List NetAnswer) : Prop :=
  answers.head? = some (.malloc false) ∨
    NetIo.allGranted <+: answers

/--
A session closes the accepted descriptor exactly once, if and only if the
structure is not allocated or nothing in `kcn_net_new` fails.
-/
theorem closed_once
    {deliveries : List NetStep} {ibuf obuf incoming : List UInt8}
    {env : Env} {answers : List NetAnswer} {io : NetIo}
    (returns :
      netSession deliveries fd ibuf obuf
          (NetIo.start env answers incoming) = .ok ((), io)) :
    io.closed = [fd] ↔ OwnsOnce answers := by
  have outcome :
      wp (netSession deliveries fd ibuf obuf)
        (fun _ io => io.closed = [fd] ↔ OwnsOnce answers)
        Asserted (NetIo.start env answers incoming) := by
    unfold netSession
    rw [wp_bind]
    apply wp_imp (KcnNet.wp_new fd ibuf obuf _ nofun)
    intro result io made
    cases made with
    | refused env rest answered =>
        have unallocated : OwnsOnce answers := by
          apply Or.inl
          exact congrArg List.head? answered
        simp only [wp_bind, NetIo.socketClose, wp_modify, wp_pure]
        exact ⟨fun _ => unallocated, fun _ => rfl⟩
    | failed _ rest answered ungranted closedEq =>
        simp only [wp_bind, NetIo.socketClose, wp_modify, wp_pure]
        rw [closedEq]
        constructor
        · intro once
          cases once
        · rintro (unallocated | granted)
          · have allocated : answers.head? = some (.malloc true) :=
              congrArg List.head? answered
            rw [allocated] at unallocated
            cases unallocated
          · exact absurd granted ungranted
    | made env rest granted =>
        have known :
            Open fd (built fd ibuf obuf env rest incoming) :=
          {
            sound_built fd ibuf obuf env rest incoming with
            registers := False.elim
          }
        rw [wp_bind, KcnNet.wp_runOn]
        apply wp_imp (wp_served deliveries known nofun)
        intro _ ctx' once
        exact ⟨fun _ => Or.inr granted, fun _ => once⟩
  have owned := wp_ok outcome returns
  exact owned

/-- Whether a session that returns closes the given descriptors. -/
def closes
    (deliveries : List NetStep) (answers : List NetAnswer)
    (numbers : List Nat) : Bool :=
  match netSession deliveries 3 [0] [0]
      (NetIo.start { errno := 0, trace := [] } answers []) with
  | .ok (_, io) => io.closed == numbers
  | .error _ => false

theorem returns_of_closes
    {deliveries : List NetStep} {answers : List NetAnswer}
    {numbers : List Nat}
    (shown : closes deliveries answers numbers = true) :
    ∃ io,
      netSession deliveries 3 [0] [0]
          (NetIo.start { errno := 0, trace := [] } answers []) =
        .ok ((), io) ∧
      io.closed = numbers := by
  unfold closes at shown
  split at shown
  · rename_i io returns
    exact ⟨io, returns, beq_iff_eq.mp shown⟩
  · cases shown

/-- The read event times out. -/
def readTimesOut : NetStep where
  action := .readEvent { ready := false, timeout := true }
  env := { errno := 0, trace := [] }
  answers := []

/-- A session that ends with a timeout, to which `closed_once` applies. -/
theorem closed_once_timeout :
    ∃ io,
      netSession [timesOut, readTimesOut] 3 [0] [0]
          (NetIo.start { errno := 0, trace := [] } NetIo.allGranted
            []) = .ok ((), io) ∧
      io.closed = [3] := by
  have shown :
      closes [timesOut, readTimesOut] NetIo.allGranted [3] = true := by
    decide +kernel
  obtain ⟨io, returns, _⟩ := returns_of_closes shown
  have granted : OwnsOnce NetIo.allGranted :=
    Or.inr (List.prefix_refl _)
  exact ⟨io, returns, (closed_once returns).mpr granted⟩

/--
When the write event of the new connection cannot be registered, both copies of
the descriptor are closed.
-/
theorem closed_twice :
    ∃ io,
      netSession [] 3 [0] [0]
          (NetIo.start { errno := 0, trace := [] }
            [.malloc true, .malloc true, .malloc true, .eventAdd none,
              .eventAdd none, .eventAdd (some .enomem)] []) =
        .ok ((), io) ∧
      io.closed = [3, 3] :=
  returns_of_closes (by decide +kernel)

end KcndbServer

end Kcn
