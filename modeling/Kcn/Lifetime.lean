import Kcn.Library.Run
import Kcn.Connection

namespace Kcn

open Program

/-!
# The life of a connection

A connection from `kcn_net_new` on, through any order of calls by its user and
of events, with any answers of the environment: it keeps the order of its
states and loses nothing that was queued, but a timeout can leave queued data
without a write event.
-/

/-! ### Runs -/

/-- What happens to a connection while nothing else uses it. -/
inductive NetAction where
  | call (user : ApiCall)
  | readEvent (events : EventFlags)
  | writeEvent (events : EventFlags)

/-- An action and how the environment answers it. -/
structure NetStep where
  action : NetAction
  env : Env
  answers : List NetAnswer

namespace NetAction

/--
Only registered events are delivered, and reading is asked for only before the
connection is disconnected.
-/
def Enabled (kn : KcnNet) : NetAction → Prop
  | .call .readEnable => kn.knState ≠ .disconnected
  | .call (.write _) => True
  | .readEvent events => kn.evread = true ∧ events.Delivered
  | .writeEvent events => kn.evwrite = true ∧ events.Delivered

instance (kn : KcnNet) (action : NetAction) :
    Decidable (action.Enabled kn) :=
  match action with
  | .call .readEnable => inferInstanceAs (Decidable (_ ≠ _))
  | .call (.write _) => inferInstanceAs (Decidable True)
  | .readEvent _ => inferInstanceAs (Decidable (_ ∧ _))
  | .writeEvent _ => inferInstanceAs (Decidable (_ ∧ _))

/-- The call, or the callback of an event that is no longer registered. -/
def run {δ : Type} (readcb : NetCtx.NetOp δ Errno) :
    NetAction → NetCtx.NetOp δ Bool
  | .call user => KcnNet.call user
  | .readEvent events => do
      NetCtx.setKn fun kn => { kn with evread := false }
      let fd ← gets fun ctx => ctx.kn.knFd
      KcnNet.readCb readcb fd events
      pure true
  | .writeEvent events => do
      NetCtx.setKn fun kn => { kn with evwrite := false }
      let fd ← gets fun ctx => ctx.kn.evwriteFd
      KcnNet.writeCb (some fd) events
      pure true

end NetAction

/-! ### The start of a connection -/

/-- The answers with which nothing fails in `kcn_net_new`. -/
def NetIo.allGranted : List NetAnswer :=
  [.malloc true, .malloc true, .malloc true, .eventAdd none,
    .eventAdd none, .eventAdd none]

/-- What `kcn_net_new` leaves. -/
inductive Made (fd : Nat) (ibuf obuf : List UInt8) (io : NetIo) :
    Option KcnNet → NetIo → Prop where
  | refused (env : Env) (rest : List NetAnswer) :
      io.answers = .malloc false :: rest →
      Made fd ibuf obuf io none { io with answers := rest, env := env }
  | failed (io' : NetIo) (rest : List NetAnswer) :
      io.answers = .malloc true :: rest →
      ¬ NetIo.allGranted <+: io.answers →
      io'.closed = io.closed ++ [fd] →
      Made fd ibuf obuf io none io'
  | made (env : Env) (answers : List NetAnswer) :
      NetIo.allGranted <+: io.answers →
      Made fd ibuf obuf io
        (some { KcnNet.setUp fd ibuf obuf with evwrite := true })
        { io with answers := answers, env := env, states := [.init] }

namespace KcnNet

theorem wp_runOn
    {α : Type} {kn : KcnNet} {op : NetCtx.NetOp Unit α}
    {post : α × KcnNet → NetIo → Prop} {halt : Stop → Prop}
    {io : NetIo} :
    wp (runOn kn op) post halt io ↔
      wp op (fun value ctx => post (value, ctx.kn) ctx.io) halt
        { kn := kn, io := io, data := () } := by
  cases shape : op { kn := kn, io := io, data := () } <;>
    simp [wp, runOn, shape]

/-- The way out of `kcn_net_new` closes the descriptor. -/
theorem wp_newBad
    {fd : Nat} {ibuf obuf : List UInt8} {io : NetIo}
    {post : Option KcnNet → NetIo → Prop} {halt : Stop → Prop}
    (next : ∀ io', io'.closed = io.closed ++ [fd] → post none io') :
    wp (newBad (setUp fd ibuf obuf)) post halt io := by
  unfold newBad
  rw [wp_bind, wp_runOn]
  simp only [destroy, disconnect, NetCtx.state, wp_bind, wp_gets, setUp,
    reduceCtorEq, if_false, NetCtx.setKn, wp_modify, NetCtx.sys,
    wp_zoom, NetIo.socketClose, wp_pure, stateChange, stateAssign,
    NetCtx.ioLens, false_and]
  exact next _ rfl

theorem wp_new
    (fd : Nat) (ibuf obuf : List UInt8) (io : NetIo)
    {halt : Stop → Prop} (starved : halt .starved) :
    wp (new fd ibuf obuf) (Made fd ibuf obuf io) halt io := by
  unfold new
  rw [wp_bind]
  apply NetIo.wp_malloc starved
  intro ok env rest answered
  cases ok with
  | false =>
      exact .refused env rest answered
  | true =>
      simp only [↓reduceIte, wp_bind, wp_modify]
      apply NetIo.wp_malloc starved
      intro ibufdata env₁ rest₁ answered₁
      apply NetIo.wp_malloc starved
      intro obufdata env₂ rest₂ answered₂
      apply NetIo.wp_event starved
      intro error env₃ rest₃ answered₃
      simp only at answered₁ answered₂ answered₃
      rw [answered₁, answered₂, answered₃] at answered
      cases error with
      | some error =>
          apply wp_newBad
          intro io' closedEq
          refine .failed io' _ answered ?_ closedEq
          simp [NetIo.allGranted, answered]
      | none =>
          simp only [Option.isNone_none, ↓reduceIte, wp_bind]
          apply NetIo.wp_event starved
          intro error env₄ rest₄ answered₄
          simp only at answered₄
          rw [answered₄] at answered
          cases error with
          | some error =>
              apply wp_newBad
              intro io' closedEq
              refine .failed io' _ answered ?_ closedEq
              simp [NetIo.allGranted, answered]
          | none =>
              simp only [Option.isNone_none, ↓reduceIte]
              split
              · rename_i missing
                apply wp_newBad
                intro io' closedEq
                refine .failed io' _ answered ?_ closedEq
                rcases missing with rfl | rfl <;>
                  simp [NetIo.allGranted, answered]
              · rename_i present
                have granted : ibufdata = true ∧ obufdata = true := by
                  simpa using present
                rw [granted.1, granted.2] at answered
                rw [wp_bind, wp_runOn]
                apply wp_writeEnable starved fun same => by cases same
                · intro env₅ rest₅ answered₅
                  simp only at answered₅
                  refine .made env₅ rest₅ ?_
                  rw [answered, answered₅]
                  exact List.prefix_append NetIo.allGranted rest₅
                · intro error env₅ rest₅ answered₅
                  simp only at answered₅
                  rw [answered₅] at answered
                  apply wp_newBad
                  intro io' closedEq
                  refine .failed io' _ answered ?_ closedEq
                  simp [NetIo.allGranted, answered]

end KcnNet

namespace NetCtx

/-- The connection when the environment is about to answer a step. -/
def answered
    {δ : Type} (ctx : NetCtx δ) (step : NetStep) : NetCtx δ :=
  { ctx with
    io := { ctx.io with env := step.env, answers := step.answers } }

/-- A complete step. -/
def Step (ctx : NetCtx Unit) (step : NetStep) (ctx' : NetCtx Unit) :
    Prop :=
  step.action.Enabled ctx.kn ∧
    ∃ ok, step.action.run scripted (ctx.answered step) = .ok (ok, ctx')

/-- `kcn_net_new` made the connection. -/
def Created (fd : Nat) (ctx : NetCtx Unit) : Prop :=
  ∃ ibuf obuf env answers incoming,
    KcnNet.new fd ibuf obuf (NetIo.start env answers incoming) =
      .ok (some ctx.kn, ctx.io)

/-- The connection between two steps, where no answers are left. -/
def waiting {δ : Type} (ctx : NetCtx δ) : NetCtx δ :=
  { ctx with io := { ctx.io with answers := [] } }

variable
  {fd low : Nat} {asked calm armed : Prop} {ctx ctx' : NetCtx Unit}

/-- The connection that `kcn_net_new` returns. -/
def built
    (fd : Nat) (ibuf obuf : List UInt8) (env : Env)
    (answers : List NetAnswer) (incoming : List UInt8) :
    NetCtx Unit where
  kn := { KcnNet.setUp fd ibuf obuf with evwrite := true }
  io := { NetIo.start env answers incoming with states := [.init] }
  data := ()

theorem sound_built
    (fd : Nat) (ibuf obuf : List UInt8) (env : Env)
    (answers : List NetAnswer) (incoming : List UInt8) :
    Sound fd 0 asked calm armed
      (built fd ibuf obuf env answers incoming).waiting where
  least := Nat.zero_le _
  forward := List.pairwise_singleton _ _
  last := rfl
  pending := nofun
  reading := nofun
  entered := nofun
  evwriteFd := rfl
  alive := fun _ => ⟨rfl, rfl⟩
  dead := nofun
  registers := nofun
  faithful := fun _ => rfl
  armed := fun _ _ nonempty => absurd rfl nonempty

theorem Created.sound (created : Created fd ctx) :
    Sound fd 0 asked calm armed ctx.waiting := by
  obtain ⟨ibuf, obuf, env, answers, incoming, returns⟩ := created
  have making :
      wp (KcnNet.new fd ibuf obuf)
        (Made fd ibuf obuf (NetIo.start env answers incoming))
        (fun _ => True) (NetIo.start env answers incoming) :=
    KcnNet.wp_new fd ibuf obuf _ trivial
  have outcome := wp_ok making returns
  obtain ⟨kn, io, data⟩ := ctx
  cases outcome with
  | made env rest _ =>
      exact sound_built fd ibuf obuf env rest incoming

/-- The delivery of the write event. -/
theorem Sound.wp_writeEvent
    {δ : Type} {ctx : NetCtx δ} {readcb : NetOp δ Errno}
    {events : EventFlags}
    (sound : Sound fd low asked calm armed ctx)
    (registered : ctx.kn.evwrite = true)
    (delivered : events.Delivered)
    (kept : armed → ¬ Strands ctx events) :
    wp ((NetAction.writeEvent events).run readcb)
      (fun _ ctx' => Sound fd low asked calm armed ctx')
      Asserted ctx := by
  have alive : ctx.kn.knState ≠ .disconnected := by
    intro dead
    have off : ctx.kn.evwrite = false := (sound.dead dead).2.1
    rw [off] at registered
    cases registered
  simp only [NetAction.run, wp_bind, setKn, wp_modify, wp_gets]
  have once :
      Sound fd low asked calm False
        { ctx with kn := { ctx.kn with evwrite := false } } :=
    {
      sound with
      dead := fun dead => absurd dead alive
      armed := fun _ => False.elim
    }
  have same : ctx.kn.knFd = some ctx.kn.evwriteFd :=
    (sound.alive alive).1.trans (congrArg some sound.evwriteFd.symm)
  apply wp_imp (once.wp_writeCb same alive delivered kept)
  intro _ ctx' last
  exact last

/-- A step from a sound connection violates no assertion of `kcn_net`. -/
theorem Sound.wp_run
    {δ : Type} {ctx : NetCtx δ} {readcb : NetOp δ Errno}
    (sound : Sound fd low asked calm armed ctx.waiting)
    (step : NetStep)
    (enabled : step.action.Enabled ctx.kn)
    (asks : step.action = .call .readEnable → asked)
    (registers : calm → ∀ answer ∈ step.answers, answer.Registers)
    (kept : armed → ∀ events, step.action = .writeEvent events →
      ¬ Strands ctx events)
    (calls : asked → ∀ ctx' : NetCtx δ,
      Sound fd low asked calm armed ctx' →
      ctx'.kn.knState = .established →
      wp readcb
        (fun _ ctx'' =>
          Sound fd low asked calm armed ctx'' ∧
            ctx''.kn.knState = .established)
        Asserted ctx') :
    wp (step.action.run readcb)
      (fun _ ctx' => Sound fd low asked calm armed ctx'.waiting)
      Asserted (ctx.answered step) := by
  have answered : Sound fd low asked calm armed (ctx.answered step) :=
    { sound with registers := registers }
  have settle (ctx' : NetCtx δ)
      (last : Sound fd low asked calm armed ctx') :
      Sound fd low asked calm armed ctx'.waiting :=
    { last with registers := fun _ _ inside => by cases inside }
  obtain ⟨action, env, answers⟩ := step
  cases action with
  | call user =>
      have allowed :
          user = .readEnable →
            asked ∧ ctx.kn.knState ≠ .disconnected := by
        rintro rfl
        exact ⟨asks rfl, enabled⟩
      apply wp_imp (answered.wp_call user allowed)
      rintro _ ctx' ⟨last, _⟩
      exact settle ctx' last
  | readEvent events =>
      obtain ⟨registered, delivered⟩ := enabled
      have alive : ctx.kn.knState ≠ .disconnected := by
        intro dead
        have off : ctx.kn.evread = false := (sound.dead dead).1
        rw [off] at registered
        cases registered
      have isAsked : asked := sound.reading registered
      simp only [NetAction.run, wp_bind, setKn, wp_modify, wp_gets]
      have once :
          Sound fd low asked calm armed {
            ctx.answered ⟨.readEvent events, env, answers⟩ with
            kn := { ctx.kn with evread := false }
          } :=
        {
          answered with
          reading := fun on => by cases on
          entered := fun on => by cases on
          dead := fun dead => absurd dead alive
        }
      apply wp_imp
        (once.wp_readCb rfl alive delivered isAsked (calls isAsked))
      intro _ ctx' last
      exact settle ctx' last
  | writeEvent events =>
      obtain ⟨registered, delivered⟩ := enabled
      apply wp_imp
        (answered.wp_writeEvent registered delivered fun isArmed =>
          kept isArmed events rfl)
      intro _ ctx' last
      exact settle ctx' last

/-- Reading was requested in the run. -/
def Asked (steps : List NetStep) : Prop :=
  ∃ step ∈ steps, step.action = .call .readEnable

/-- No registration of an event fails in the run. -/
def AllRegister (steps : List NetStep) : Prop :=
  ∀ step ∈ steps, ∀ answer ∈ step.answers, answer.Registers

/-- The step is not a timeout that leaves queued data behind. -/
def StaysArmed (ctx : NetCtx Unit) (step : NetStep) : Prop :=
  ∀ events, step.action = .writeEvent events → ¬ Strands ctx events

theorem Sound.step
    {first : List NetStep} {step : NetStep}
    (sound :
      Sound fd low (Asked first) (AllRegister first) armed ctx.waiting)
    (ran : Step ctx step ctx')
    (kept : armed → StaysArmed ctx step) :
    Sound fd low (Asked (first ++ [step]))
      (AllRegister (first ++ [step])) armed ctx'.waiting := by
  obtain ⟨enabled, ok, returns⟩ := ran
  have earlier : Asked first → Asked (first ++ [step]) := by
    rintro ⟨request, member, isRequest⟩
    exact ⟨request, List.mem_append_left _ member, isRequest⟩
  have fewer : AllRegister (first ++ [step]) → AllRegister first :=
    fun all request member =>
      all request (List.mem_append_left _ member)
  have extended :
      Sound fd low (Asked (first ++ [step]))
        (AllRegister (first ++ [step])) armed ctx.waiting :=
    {
      sound with
      pending := fun pending => earlier (sound.pending pending)
      reading := fun reading => earlier (sound.reading reading)
      registers := nofun
      faithful := fun all => sound.faithful (fewer all)
      armed := fun all => sound.armed (fewer all)
    }
  have isLast : step ∈ first ++ [step] :=
    List.mem_append_right _ List.mem_cons_self
  have runs :=
    extended.wp_run step enabled
      (fun request => ⟨step, isLast, request⟩)
      (fun all => all step isLast) kept
      fun isAsked _ sound' entered => sound'.wp_scripted isAsked entered
  have last := wp_ok runs returns
  exact last

/-- What a sound connection keeps in a run. -/
theorem Sound.run
    {first later : List NetStep}
    (sound :
      Sound fd low (Asked first) (AllRegister first) armed ctx.waiting)
    (run :
      Run (Guarded Step fun ctx step => armed → StaysArmed ctx step)
        ctx later ctx') :
    Sound fd low (Asked (first ++ later))
      (AllRegister (first ++ later)) armed ctx'.waiting := by
  induction run with
  | nil =>
      rw [List.append_nil]
      exact sound
  | snoc _ last inductionHypothesis =>
      rw [← List.append_assoc]
      exact inductionHypothesis.step last.1 last.2

/-- A run in which nothing is asked of the write event. -/
theorem unguarded
    {steps : List NetStep} (run : Run Step ctx steps ctx') :
    Run (Guarded Step fun ctx step => False → StaysArmed ctx step)
      ctx steps ctx' :=
  run.mono fun _ _ _ step => ⟨step, False.elim⟩

/-! ### Examples of runs -/

/-- Perform an action. -/
def perform (ctx : NetCtx Unit) (step : NetStep) :
    Option (NetStep × NetCtx Unit) :=
  if step.action.Enabled ctx.kn then
    match step.action.run scripted (ctx.answered step) with
    | .ok (_, ctx') => some (step, ctx')
    | .error _ => none
  else
    none

theorem step_perform
    (ctx : NetCtx Unit) (step done : NetStep) (ctx' : NetCtx Unit)
    (performed : ctx.perform step = some (done, ctx')) :
    Step ctx done ctx' ∧ done = step := by
  unfold perform at performed
  split at performed
  · rename_i enabled
    split at performed
    · rename_i ok ctx'' ran
      obtain ⟨rfl, rfl⟩ := Prod.mk.inj (Option.some.inj performed)
      exact ⟨⟨enabled, ok, ran⟩, rfl⟩
    · cases performed
  · cases performed

theorem performed_step
    (ctx : NetCtx Unit) (step done : NetStep) (ctx' : NetCtx Unit)
    (performed : ctx.perform step = some (done, ctx')) :
    Step ctx done ctx' :=
  (step_perform ctx step done ctx' performed).1

/-- An output buffer of four bytes that holds the given byte. -/
def oneByte (byte : UInt8) : KcnBuf where
  size := 4
  sp := 0
  cp := 1
  ep := 1
  bytes := [byte, 0, 0, 0]
  sp_le_cp := by decide
  cp_le_ep := by decide
  ep_le_size := by decide
  length_bytes := rfl

/-- The environment of `kcn_net_new` when nothing fails. -/
def fresh : NetIo :=
  NetIo.start { errno := 0, trace := [] }
    [.malloc true, .malloc true, .malloc true, .eventAdd none,
      .eventAdd none, .eventAdd none]
    [1, 2]

/-- A connection on descriptor 3 with buffers of four bytes. -/
def young : NetCtx Unit :=
  built 3 (List.replicate 4 0) (List.replicate 4 0) fresh.env []
    fresh.incoming

theorem created_young : Created 3 young :=
  ⟨List.replicate 4 0, List.replicate 4 0, fresh.env, fresh.answers,
    fresh.incoming, rfl⟩

instance (answer : NetAnswer) : Decidable answer.Registers :=
  match answer with
  | .eventAdd none => .isTrue rfl
  | .eventAdd (some _) => .isFalse nofun
  | .malloc _ | .callback _ _ _ => .isTrue trivial

/-- No registration fails. -/
def registering (steps : List NetStep) : Bool :=
  steps.all fun step => step.answers.all fun answer => answer.Registers

theorem allRegister_of_registering
    {steps : List NetStep} (all : registering steps = true) :
    AllRegister steps := by
  intro step member answer inside
  have answers := List.all_eq_true.mp all step member
  exact of_decide_eq_true (List.all_eq_true.mp answers answer inside)

/-- Send a byte, which takes a copy of the output buffer. -/
def sends (byte : UInt8) : NetStep where
  action := .call (.write fun _ => oneByte byte)
  env := { errno := 0, trace := [] }
  answers := [.malloc true, .eventAdd none]

/-- Ask to read while the connection is not established. -/
def asksToRead : NetStep where
  action := .call .readEnable
  env := { errno := 0, trace := [] }
  answers := []

/-- The socket takes one message and then no more for now. -/
def takesOne : NetStep where
  action := .writeEvent { ready := true, timeout := false }
  env := { errno := 0, trace := [.write .full, .write (.fail .eagain)] }
  answers := [.eventAdd none, .eventAdd none]

/-- The write event times out. -/
def timesOut : NetStep where
  action := .writeEvent { ready := false, timeout := true }
  env := { errno := 0, trace := [] }
  answers := [.eventAdd none]

/-! ### The output queue -/

variable {start : NetCtx Unit} {steps : List NetStep}

/--
What the socket accepted is a prefix of the messages queued so far, and with
what the queue still holds it is all of them.
-/
theorem output_faithful
    (created : Created fd start)
    (run : Run Step start steps ctx)
    (registers : AllRegister steps) :
    ctx.io.sent <+: ctx.io.queued.flatten ∧
      ctx.io.sent ++ heldBytes ctx.kn.knObufq =
        ctx.io.queued.flatten := by
  have sound : Sound fd 0 (Asked []) (AllRegister []) False start.waiting :=
    created.sound
  have whole := (sound.run (unguarded run)).faithful registers
  exact ⟨⟨heldBytes ctx.kn.knObufq, whole⟩, whole⟩

/-- Two messages, of which the socket took the first. -/
def tookOne (steps : List NetStep) (ctx : NetCtx Unit) : Bool :=
  registering steps && ctx.io.sent == [7] &&
    ctx.io.queued == [[7], [8]]

/-- A run to which `output_faithful` applies. -/
theorem output_faithful_two :
    ∃ steps ctx, Run Step young steps ctx ∧
      ctx.io.sent = [7] ∧ ctx.io.queued = [[7], [8]] ∧
      ctx.io.sent ++ heldBytes ctx.kn.knObufq =
        ctx.io.queued.flatten := by
  obtain ⟨steps, ctx, run, shown⟩ :=
    Run.of_shown performed_step
      (show
        (performAll perform young
          [sends 7, asksToRead, sends 8, takesOne]).any
            (fun performed => tookOne performed.1 performed.2) = true
        by decide +kernel)
  simp only [tookOne, Bool.and_eq_true, beq_iff_eq] at shown
  obtain ⟨⟨registers, sent⟩, queued⟩ := shown
  have whole :=
    output_faithful created_young run
      (allRegister_of_registering registers)
  exact ⟨steps, ctx, run, sent, queued, whole.2⟩

/--
While no timeout comes alone in PENDING with data in the queue, the write event
is registered between callbacks as long as there is something to write.
-/
theorem output_armed
    (created : Created fd start)
    (run : Run (Guarded Step StaysArmed) start steps ctx)
    (registers : AllRegister steps)
    (nonempty : ctx.kn.knObufq ≠ [])
    (alive : ctx.kn.knState ≠ .disconnected) :
    ctx.kn.evwrite = true := by
  have sound : Sound fd 0 (Asked []) (AllRegister []) True start.waiting :=
    created.sound
  have guarded :
      Run (Guarded Step fun ctx step => True → StaysArmed ctx step)
        start steps ctx :=
    run.mono fun _ _ _ step => ⟨step.1, fun _ => step.2⟩
  exact (sound.run guarded).armed registers trivial nonempty alive

/-- The check of a request against `StaysArmed`. -/
def staysArmed (ctx : NetCtx Unit) (step : NetStep) : Bool :=
  match step.action with
  | .writeEvent events =>
      ctx.kn.knState != .pending || events.ready ||
        ctx.kn.knObufq.isEmpty
  | .call _ | .readEvent _ => true

theorem staysArmed_of_performed
    (ctx : NetCtx Unit) (step done : NetStep) (ctx' : NetCtx Unit)
    (performed : ctx.perform step = some (done, ctx'))
    (passes : ctx.staysArmed step = true) :
    StaysArmed ctx done := by
  obtain ⟨_, rfl⟩ := step_perform ctx step done ctx' performed
  rintro events writes ⟨isPending, unready, nonempty⟩
  simp only [staysArmed, writes, isPending, unready, bne_self_eq_false,
    Bool.or_self, Bool.false_or, List.isEmpty_iff] at passes
  exact nonempty passes

/-- A message waits in the queue, and the write event is registered. -/
def waits (steps : List NetStep) (ctx : NetCtx Unit) : Bool :=
  registering steps && !ctx.kn.knObufq.isEmpty &&
    ctx.kn.knState == .established

/-- A run to which `output_armed` applies. -/
theorem output_armed_two :
    ∃ steps ctx, Run (Guarded Step StaysArmed) young steps ctx ∧
      ctx.kn.knObufq ≠ [] ∧ ctx.kn.evwrite = true := by
  obtain ⟨steps, ctx, run, shown⟩ :=
    Run.of_shown
      (guarded_performIf performed_step staysArmed_of_performed)
      (show
        (performAll (performIf staysArmed perform) young
          [sends 7, asksToRead, sends 8, takesOne]).any
            (fun performed => waits performed.1 performed.2) = true
        by decide +kernel)
  simp only [waits, Bool.and_eq_true, beq_iff_eq,
    Bool.not_eq_true', List.isEmpty_eq_false_iff] at shown
  obtain ⟨⟨registers, nonempty⟩, entered⟩ := shown
  have alive : ctx.kn.knState ≠ .disconnected := by
    rw [entered]
    exact nofun
  exact ⟨steps, ctx, run, nonempty,
    output_armed created_young run
      (allRegister_of_registering registers) nonempty alive⟩

/-- A message waits in the queue, and no write event will come. -/
def stranded (steps : List NetStep) (ctx : NetCtx Unit) : Bool :=
  registering steps && !ctx.kn.knObufq.isEmpty &&
    ctx.kn.knState == .established && !ctx.kn.evwrite

/--
A timeout in PENDING without the write event, which the code takes for a fault
of libevent, leaves the queued message without a write event.
-/
theorem output_stranded :
    ∃ steps ctx, Run Step young steps ctx ∧ AllRegister steps ∧
      ctx.kn.knObufq ≠ [] ∧ ctx.kn.knState = .established ∧
      ctx.kn.evwrite = false := by
  obtain ⟨steps, ctx, run, shown⟩ :=
    Run.of_shown performed_step
      (show
        (performAll perform young [sends 7, asksToRead, timesOut]).any
            (fun performed => stranded performed.1 performed.2) = true
        by decide +kernel)
  simp only [stranded, Bool.and_eq_true, beq_iff_eq,
    Bool.not_eq_true', List.isEmpty_eq_false_iff] at shown
  obtain ⟨⟨⟨registers, nonempty⟩, entered⟩, unregistered⟩ := shown
  exact ⟨steps, ctx, run, allRegister_of_registering registers,
    nonempty, entered, unregistered⟩

/-! ### The state machine -/

/-- What a connection that has run through `steps` shows its user. -/
structure Lives (steps : List NetStep) (ctx : NetCtx Unit) : Prop where
  /-- The states so far only moved forward. -/
  forward :
    ctx.io.states.Pairwise fun first later => first.rank < later.rank
  current : ctx.io.states.getLast? = some ctx.kn.knState
  onward : ∀ (later : List NetStep) (ctx' : NetCtx Unit),
    Run Step ctx later ctx' →
    ctx.kn.knState.rank ≤ ctx'.kn.knState.rank
  requested : ∀ events : EventFlags,
    (NetAction.readEvent events).Enabled ctx.kn → Asked steps
  asserted : ∀ step : NetStep, step.action.Enabled ctx.kn →
    step.action.run scripted (ctx.answered step) ≠ .error .netAssertion
  silent : ctx.kn.knState = .disconnected →
    ctx.kn.evread = false ∧ ctx.kn.evwrite = false
  final : ctx.kn.knState = .disconnected →
    ∀ (later : List NetStep) (ctx' : NetCtx Unit),
      Run Step ctx later ctx' →
      ctx'.kn.knState = .disconnected ∧
        ∀ step ∈ later, ∃ fill : KcnBuf → KcnBuf,
          step.action = .call (.write fill)
  refuses : ctx.kn.knState = .disconnected →
    ∀ (step : NetStep) (fill : KcnBuf → KcnBuf),
      step.action = .call (.write fill) →
      ∃ ctx' : NetCtx Unit,
        step.action.run scripted (ctx.answered step) = .ok (false, ctx') ∧
        ctx'.io.env.errno = Errno.enetdown ∧
        ctx'.kn.knObufq = ctx.kn.knObufq ∧
        ctx'.io.queued = ctx.io.queued

/-- `kcn_net_write` on a connection that is gone. -/
theorem write_refused
    (dead : ctx.kn.knState = .disconnected)
    {step : NetStep} {fill : KcnBuf → KcnBuf}
    (writes : step.action = .call (.write fill)) :
    ∃ ctx', step.action.run scripted (ctx.answered step) = .ok (false, ctx') ∧
      ctx'.io.env.errno = Errno.enetdown ∧
      ctx'.kn.knObufq = ctx.kn.knObufq ∧
      ctx'.io.queued = ctx.io.queued := by
  have refused :
      wp (step.action.run scripted)
        (fun ok ctx' =>
          ok = false ∧ ctx'.io.env.errno = Errno.enetdown ∧
            ctx'.kn.knObufq = ctx.kn.knObufq ∧
            ctx'.io.queued = ctx.io.queued)
        (fun _ => False) (ctx.answered step) := by
    rw [writes]
    simp only [NetAction.run, KcnNet.call, KcnNet.write, state, wp_bind,
      wp_zoom, wp_modify, wp_gets]
    split
    · exact ⟨rfl, rfl, rfl, rfl⟩
    · rename_i alive
      exact absurd dead alive
  obtain ⟨_, ctx', returns, rfl, rest⟩ := wp_returns refused
  exact ⟨ctx', returns, rest⟩

theorem eq_disconnected
    {state : KcnNetState}
    (least : KcnNetState.disconnected.rank ≤ state.rank) :
    state = .disconnected := by
  revert least
  cases state <;> decide

/-- Nothing but refused messages happens to a connection that is gone. -/
theorem Sound.final
    {first later : List NetStep}
    (sound :
      Sound fd low (Asked first) (AllRegister first) False ctx.waiting)
    (dead : ctx.kn.knState = .disconnected)
    (run : Run Step ctx later ctx') :
    ctx'.kn.knState = .disconnected ∧
      ∀ step ∈ later, ∃ fill, step.action = .call (.write fill) := by
  have ended :
      Sound fd KcnNetState.disconnected.rank (Asked first)
        (AllRegister first) False ctx.waiting :=
    { sound with least := Nat.le_of_eq (congrArg _ dead.symm) }
  induction run with
  | nil =>
      exact ⟨dead, nofun⟩
  | snoc earlier last inductionHypothesis =>
      rename_i ctx₁ ctx₂ step
      obtain ⟨dead₁, writes⟩ := inductionHypothesis
      have ended₁ := ended.run (unguarded earlier)
      have ended₂ := ended₁.step last False.elim
      refine ⟨eq_disconnected ended₂.least, ?_⟩
      intro step' member
      rcases List.mem_append.mp member with inside | isLast
      · exact writes step' inside
      · rw [List.mem_singleton.mp isLast]
        obtain ⟨evread, evwrite, _⟩ := ended₁.dead dead₁
        obtain ⟨enabled, _⟩ := last
        obtain ⟨action, env, answers⟩ := step
        cases action with
        | call user =>
            cases user with
            | write fill => exact ⟨fill, rfl⟩
            | readEnable => exact absurd dead₁ enabled
        | readEvent events =>
            exact absurd (evread.symm.trans enabled.1) nofun
        | writeEvent events =>
            exact absurd (evwrite.symm.trans enabled.1) nofun

/-- Every connection lives as the state machine says. -/
theorem state_machine
    (created : Created fd start)
    (run : Run Step start steps ctx) :
    Lives steps ctx := by
  have fresh : Sound fd 0 (Asked []) (AllRegister []) False start.waiting :=
    created.sound
  have sound := fresh.run (unguarded run)
  rw [List.nil_append] at sound
  have here :
      Sound fd ctx.kn.knState.rank (Asked steps) (AllRegister steps) False
        ctx.waiting :=
    { sound with least := Nat.le_refl _ }
  exact {
    forward := sound.forward
    current := sound.last
    onward := fun _ _ later => (here.run (unguarded later)).least
    requested := fun _ enabled => sound.reading enabled.1
    asserted := by
      intro step enabled stops
      have any :
          Sound fd 0 True False False ctx.waiting :=
        {
          sound with
          pending := fun _ => trivial
          reading := fun _ => trivial
          registers := False.elim
          faithful := False.elim
          armed := False.elim
        }
      have runs :=
        any.wp_run step enabled (fun _ => trivial) False.elim False.elim
          fun isAsked _ sound' entered =>
            sound'.wp_scripted isAsked entered
      exact wp_error runs stops rfl
    silent := fun dead =>
      ⟨(sound.dead dead).1, (sound.dead dead).2.1⟩
    final := fun dead _ _ later => sound.final dead later
    refuses := fun dead _ _ writes => write_refused dead writes
  }

/-- The connection is gone after it was established. -/
def gone (_ : List NetStep) (ctx : NetCtx Unit) : Bool :=
  ctx.io.states == [.init, .pending, .established, .disconnected]

/-- A run through all states to which `state_machine` applies. -/
theorem state_machine_gone :
    ∃ steps ctx, Run Step young steps ctx ∧
      ctx.io.states = [.init, .pending, .established, .disconnected] ∧
      Lives steps ctx := by
  obtain ⟨steps, ctx, run, shown⟩ :=
    Run.of_shown performed_step
      (show
        (performAll perform young
          [sends 7, asksToRead, takesOne, sends 8, timesOut]).any
            (fun performed => gone performed.1 performed.2) = true
        by decide +kernel)
  exact ⟨steps, ctx, run, beq_iff_eq.mp shown,
    state_machine created_young run⟩

end NetCtx

end Kcn
