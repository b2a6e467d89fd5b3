import Kcn.Net

namespace Kcn

open Program Bytes

/-!
# What a connection keeps

Its state only moves forward, its descriptor is closed when it disconnects, and
what the socket accepted and what the queue holds are what was queued.  Each
function of the connection keeps the invariant and violates no assertion.
-/

/-- Where a state stands in the life of a connection. -/
def KcnNetState.rank : KcnNetState → Nat
  | .init => 0
  | .pending => 1
  | .established => 2
  | .disconnected => 3

/-- The bytes that a queue holds. -/
def heldBytes (queue : List KcnBufData) : List UInt8 :=
  (queue.map fun kbd => kbd.init.data).flatten

@[simp] theorem heldBytes_nil : heldBytes [] = [] := rfl

@[simp] theorem heldBytes_cons
    (kbd : KcnBufData) (rest : List KcnBufData) :
    heldBytes (kbd :: rest) = kbd.init.data ++ heldBytes rest := rfl

theorem heldBytes_concat
    (queue : List KcnBufData) (kbd : KcnBufData) :
    heldBytes (queue ++ [kbd]) = heldBytes queue ++ kbd.init.data := by
  simp [heldBytes]

/-- An event is delivered with a flag at least. -/
def EventFlags.Delivered (events : EventFlags) : Prop :=
  events.ready = true ∨ events.timeout = true

instance (events : EventFlags) : Decidable events.Delivered :=
  inferInstanceAs (Decidable (_ ∨ _))

/-- The answer is not a failure to register an event. -/
def NetAnswer.Registers : NetAnswer → Prop
  | .eventAdd error => error = none
  | .malloc _ | .callback _ _ _ => True

namespace KcnBufData

/-- A copy holds the data of the buffer it was made of. -/
theorem data_dup (kb : KcnBuf) : (dup kb).init.data = kb.data := by
  have whole : slice kb.data 0 kb.data.length = kb.data :=
    slice_self kb.data
  exact whole

/-- Without trailing data a block that was just fetched is empty. -/
theorem data_of_trailingdata
    {kbd : KcnBufData} (none : kbd.init.trailingdata = 0) :
    kbd.init.data = [] := by
  have length := KcndbFile.length_data kbd.init
  have len : kbd.init.len = kbd.init.trailingdata := rfl
  rw [len, none] at length
  exact List.length_eq_zero_iff.mp length

end KcnBufData

/-! ### The calls of the environment -/

namespace NetIo

variable {halt : Stop → Prop} {io : NetIo}

theorem wp_next
    {post : NetAnswer → NetIo → Prop}
    (starved : halt .starved)
    (next : ∀ answer rest, io.answers = answer :: rest →
      post answer { io with answers := rest }) :
    wp NetIo.next post halt io := by
  unfold wp NetIo.next
  split
  · rename_i shape
    split at shape
    · cases shape
    · rename_i answered
      cases shape
      exact next _ _ answered
  · rename_i shape
    split at shape
    · cases shape
      exact starved
    · cases shape

theorem wp_malloc_cases
    {post : Bool → NetIo → Prop}
    (starved :
      (∀ ok rest, io.answers ≠ .malloc ok :: rest) → halt .starved)
    (granted : ∀ rest, io.answers = .malloc true :: rest →
      post true { io with answers := rest })
    (refused : ∀ rest, io.answers = .malloc false :: rest →
      post false {
        io with
        answers := rest
        env := { io.env with errno := IoError.enomem.errno }
      }) :
    wp malloc post halt io := by
  unfold malloc
  rw [wp_bind, wp]
  unfold NetIo.next
  cases shape : io.answers with
  | nil =>
      apply starved
      rw [shape]
      rintro _ _ ⟨⟩
  | cons answer rest =>
      cases answer with
      | malloc ok =>
          cases ok with
          | true => exact granted rest shape
          | false => exact refused rest shape
      | eventAdd _ | callback _ _ _ =>
          apply starved
          rw [shape]
          rintro _ _ ⟨⟩

theorem wp_malloc
    {post : Bool → NetIo → Prop}
    (starved : halt .starved)
    (next : ∀ ok env rest,
      io.answers = .malloc ok :: rest →
      post ok { io with answers := rest, env := env }) :
    wp malloc post halt io :=
  wp_malloc_cases (fun _ => starved) (next true io.env) (next false _)

theorem wp_event
    {post : Bool → NetIo → Prop}
    (starved : halt .starved)
    (next : ∀ error env rest,
      io.answers = .eventAdd error :: rest →
      post error.isNone { io with answers := rest, env := env }) :
    wp event post halt io := by
  unfold event
  rw [wp_bind]
  refine wp_next starved ?_
  intro answer rest answered
  cases answer with
  | eventAdd error =>
      cases error with
      | none => exact next none io.env rest answered
      | some error => exact next (some error) _ rest answered
  | malloc _ | callback _ _ _ => exact starved

end NetIo

namespace KcndbFile

open FileCtx

/-- One `kcn_buf_write` of any data, also of none. -/
inductive Wrote (ctx ctx' : FileCtx) : Errno → Prop where
  | failed (error : Errno) :
      error ≠ 0 →
      ctx'.file = ctx.file →
      Wrote ctx ctx' error
  | put (count : Nat) :
      ctx'.file.content =
        writeAt ctx.file.content ctx.file.off
          (ctx.file.kb.data.take count) →
      ctx'.file.kb.data = ctx.file.kb.data.drop count →
      Wrote ctx ctx' 0

theorem wp_bufWrite_any
    {halt : Stop → Prop} {ctx : FileCtx}
    {post : Errno → FileCtx → Prop}
    (starved : halt .starved)
    (next : ∀ error ctx', Wrote ctx ctx' error → post error ctx') :
    wp bufWrite post halt ctx := by
  by_cases nonempty : 0 < ctx.file.kb.len
  · refine wp_bufWrite starved nonempty ?_
    intro error ctx' result
    cases result with
    | failed _ ioError _ _ same =>
        exact next _ _ (.failed _ ioError.errno_ne_zero same)
    | put _ count _ _ _ _ _ contentEq _ _ dataEq =>
        exact next _ _ (.put count contentEq dataEq)
  · have empty : ctx.file.kb.data = [] := by
      refine List.length_eq_zero_iff.mp ?_
      rw [length_data]
      omega
    have nothing (transfer : Transfer) (env' : Env) :
        wp
          (do
            let here ← gets fun ctx =>
              ctx.file.kb.data.take (transfer.amount ctx.file.kb.len)
            modify fun ctx => {
              ctx with
              file := {
                ctx.file with
                content := writeAt ctx.file.content ctx.file.off here
                off := ctx.file.off + here.length
              }
            }
            pure (.ok here.length : Except Errno Nat))
          (fun result ctx' =>
            result = .ok 0 ∧ ctx' = { ctx with env := env' })
          halt { ctx with env := env' } := by
      simp only [wp_bind, wp_gets, wp_modify, wp_pure, empty,
        List.take_nil, List.length_nil, writeAt, ↓reduceIte,
        Nat.add_zero, and_self]
    unfold bufWrite
    rw [wp_bind]
    unfold sysWrite
    apply wp_retry starved
    intro taken event env' _
    cases event with
    | write transfer =>
        cases transfer with
        | fail error =>
            exact next _ _ (.failed _ error.errno_ne_zero rfl)
        | full =>
            apply wp_imp (nothing .full env')
            rintro _ _ ⟨rfl, rfl⟩
            exact next _ _ (.failed Errno.eshutdown (by decide) rfl)
        | short count =>
            apply wp_imp (nothing (.short count) env')
            rintro _ _ ⟨rfl, rfl⟩
            exact next _ _ (.failed Errno.eshutdown (by decide) rfl)
    | openFile _ | lock _ | stat _ | seek _ | read _
    | callback _ =>
        exact starved

end KcndbFile

namespace KcnNet

open NetCtx

/-- Registering the write event. -/
theorem wp_writeEnable
    {δ : Type} {ctx : NetCtx δ}
    {post : Bool → NetCtx δ → Prop} {halt : Stop → Prop}
    (starved : halt .starved)
    (already : ctx.kn.evwrite = true → post true ctx)
    (added : ∀ env rest,
      ctx.io.answers = .eventAdd none :: rest →
      post true {
        ctx with
        kn := { ctx.kn with evwrite := true }
        io := { ctx.io with answers := rest, env := env }
      })
    (failed : ∀ error env rest,
      ctx.io.answers = .eventAdd (some error) :: rest →
      post false
        { ctx with io := { ctx.io with answers := rest, env := env } }) :
    wp writeEnable post halt ctx := by
  unfold writeEnable
  simp only [wp_bind, wp_gets]
  split
  · rename_i registered
    exact already registered
  · rw [wp_bind, sys, wp_zoom]
    apply NetIo.wp_event starved
    intro error env rest answered
    cases error with
    | none => exact added env rest answered
    | some error => exact failed error env rest answered

end KcnNet

/-! ### The invariant -/

namespace NetCtx

variable {δ : Type}

/--
What holds of a connection on the descriptor `fd`, which has been in a state of
rank `low`.  Reading was `asked` for if the connection shows it.  If the events are registered without failures
(`calm`), nothing is lost, and where `armed` holds too, the write event is
registered while there is something to write.
-/
structure Sound
    (fd low : Nat) (asked calm armed : Prop) (ctx : NetCtx δ) :
    Prop where
  least : low ≤ ctx.kn.knState.rank
  forward :
    ctx.io.states.Pairwise fun first later => first.rank < later.rank
  last : ctx.io.states.getLast? = some ctx.kn.knState
  pending : ctx.kn.knState = .pending → asked
  reading : ctx.kn.evread = true → asked
  entered : ctx.kn.evread = true → ctx.kn.knState = .established
  evwriteFd : ctx.kn.evwriteFd = fd
  alive :
    ctx.kn.knState ≠ .disconnected →
      ctx.kn.knFd = some fd ∧ ctx.io.closed = []
  dead :
    ctx.kn.knState = .disconnected →
      ctx.kn.evread = false ∧ ctx.kn.evwrite = false ∧
        ctx.kn.knFd = none ∧ ctx.io.closed = [fd]
  registers : calm → ∀ answer ∈ ctx.io.answers, answer.Registers
  faithful :
    calm →
      ctx.io.sent ++ heldBytes ctx.kn.knObufq =
        ctx.io.queued.flatten
  armed :
    calm → armed → ctx.kn.knObufq ≠ [] →
      ctx.kn.knState ≠ .disconnected → ctx.kn.evwrite = true

/-- A timeout that the write callback takes for the end of PENDING. -/
def Strands (ctx : NetCtx δ) (events : EventFlags) : Prop :=
  ctx.kn.knState = .pending ∧ events.ready = false ∧
    ctx.kn.knObufq ≠ []

/-- No assertion of `kcn_net` fails. -/
abbrev Asserted (reason : Stop) : Prop :=
  reason ≠ .netAssertion

namespace Sound

variable
  {fd low : Nat} {asked calm armed : Prop} {ctx : NetCtx δ}

/-- The invariant with less asked of the write event. -/
theorem disarm (sound : Sound fd low asked calm armed ctx) :
    Sound fd low asked calm False ctx :=
  { sound with armed := fun _ => False.elim }

/-- The invariant of an unarmed connection whose write event is registered. -/
theorem arm
    (sound : Sound fd low asked calm False ctx)
    (ready :
      calm → armed → ctx.kn.knObufq ≠ [] →
        ctx.kn.knState ≠ .disconnected → ctx.kn.evwrite = true) :
    Sound fd low asked calm armed ctx :=
  { sound with armed := ready }

/-- Taking answers and setting `errno` keeps the invariant. -/
theorem answer
    (sound : Sound fd low asked calm armed ctx)
    (env : Env) {answers : List NetAnswer}
    (rest : calm → ∀ answer ∈ answers, answer.Registers) :
    Sound fd low asked calm armed
      { ctx with io := { ctx.io with answers := answers, env := env } } :=
  { sound with registers := rest }

/-- The answers that are left of those that register. -/
theorem rest
    (sound : Sound fd low asked calm armed ctx)
    {answer : NetAnswer} {rest : List NetAnswer}
    (answered : ctx.io.answers = answer :: rest) :
    (calm → answer.Registers) ∧
      (calm → ∀ answer ∈ rest, answer.Registers) := by
  constructor
  · intro registered
    apply sound.registers registered
    rw [answered]
    exact List.mem_cons_self
  · intro registered later member
    apply sound.registers registered
    rw [answered]
    exact List.mem_cons_of_mem _ member

/-- The states so far and a later one only move forward. -/
theorem forward_concat
    (sound : Sound fd low asked calm armed ctx)
    {nstate : KcnNetState}
    (later : ctx.kn.knState.rank < nstate.rank) :
    (ctx.io.states ++ [nstate]).Pairwise
      fun first later => first.rank < later.rank := by
  rw [List.pairwise_append]
  refine ⟨sound.forward, List.pairwise_singleton _ _, ?_⟩
  intro earlier member final isFinal
  obtain ⟨before, shape⟩ := List.getLast?_eq_some_iff.mp sound.last
  have ordered := sound.forward
  rw [shape] at ordered member
  rw [List.mem_singleton.mp isFinal]
  rcases List.mem_append.mp member with inside | isLast
  · have below :=
      (List.pairwise_append.mp ordered).2.2 earlier inside
        ctx.kn.knState List.mem_cons_self
    exact Nat.lt_trans below later
  · rw [List.mem_singleton.mp isLast]
    exact later

/-- Entering a later state in which the connection is open. -/
theorem wp_stateAssign
    (sound : Sound fd low asked calm armed ctx)
    {nstate : KcnNetState}
    (alive : ctx.kn.knState ≠ .disconnected)
    (later : ctx.kn.knState.rank ≤ nstate.rank)
    (pending : nstate = .pending → asked)
    (remains : nstate ≠ .disconnected) :
    wp (KcnNet.stateAssign nstate)
      (fun _ ctx' =>
        Sound fd low asked calm armed ctx' ∧ ctx'.kn.knState = nstate)
      Asserted ctx := by
  unfold KcnNet.stateAssign
  rw [wp_modify]
  split
  · rename_i same
    exact ⟨sound, same⟩
  · rename_i other
    have above : ctx.kn.knState.rank < nstate.rank := by
      apply Nat.lt_of_le_of_ne later
      intro same
      apply other
      revert same
      cases ctx.kn.knState <;> cases nstate <;> decide
    refine ⟨?_, rfl⟩
    exact {
      sound with
      least := Nat.le_trans sound.least (Nat.le_of_lt above)
      forward := sound.forward_concat above
      last := List.getLast?_concat
      pending := pending
      entered := by
        intro registered
        rw [sound.entered registered] at above
        exfalso
        revert above remains
        cases nstate <;> decide
      alive := fun _ => sound.alive alive
      dead := fun dead => absurd dead remains
      armed := fun registered isArmed nonempty _ =>
        sound.armed registered isArmed nonempty alive
    }

/-- Registering the read event of a connection that was asked to read. -/
theorem wp_evreadEnable
    (sound : Sound fd low asked calm armed ctx)
    (isAsked : asked)
    (entered : ctx.kn.knState = .established) :
    wp KcnNet.evreadEnable
      (fun _ ctx' =>
        Sound fd low asked calm armed ctx' ∧
          ctx'.kn.knState = ctx.kn.knState)
      Asserted ctx := by
  unfold KcnNet.evreadEnable
  simp only [wp_bind, wp_gets]
  split
  · exact ⟨sound, rfl⟩
  · rw [wp_bind, sys, wp_zoom]
    apply NetIo.wp_event (by decide)
    intro error env rest answered
    have left := sound.answer env (sound.rest answered).2
    cases error with
    | none =>
        refine ⟨?_, rfl⟩
        exact {
          left with
          reading := fun _ => isAsked
          entered := fun _ => entered
          dead := fun dead => by cases entered.symm.trans dead
        }
    | some error =>
        exact ⟨left, rfl⟩

/-- `kcn_net_read_enable`, where its assertion holds. -/
theorem wp_readEnable
    (sound : Sound fd low asked calm armed ctx)
    (isAsked : asked)
    (alive : ctx.kn.knState ≠ .disconnected) :
    wp KcnNet.readEnable
      (fun _ ctx' =>
        Sound fd low asked calm armed ctx' ∧
          ctx'.kn.knState ≠ .disconnected ∧
          (ctx.kn.knState = .established →
            ctx'.kn.knState = .established))
      Asserted ctx := by
  unfold KcnNet.readEnable
  simp only [wp_bind, state, wp_gets]
  rw [if_neg alive, wp_bind, wp_gets]
  split
  · rename_i other
    have below : ctx.kn.knState.rank ≤ KcnNetState.pending.rank := by
      revert alive other
      cases ctx.kn.knState <;> decide
    rw [wp_bind]
    apply wp_imp
      (sound.wp_stateAssign alive below (fun _ => isAsked)
        (by decide))
    rintro _ ctx' ⟨sound', entered⟩
    refine ⟨sound', ?_, fun same => absurd same other⟩
    rw [entered]
    decide
  · rename_i entered
    apply wp_imp (sound.wp_evreadEnable isAsked (not_not.mp entered))
    rintro _ ctx' ⟨sound', same⟩
    rw [same]
    exact ⟨sound', alive, id⟩

/-- A change to ESTABLISHED, which goes on to read if PENDING. -/
theorem wp_stateChange
    (sound : Sound fd low asked calm armed ctx)
    (alive : ctx.kn.knState ≠ .disconnected) :
    wp (KcnNet.stateChange .established)
      (fun _ ctx' =>
        Sound fd low asked calm armed ctx' ∧
          ctx'.kn.knState = .established)
      Asserted ctx := by
  have below : ctx.kn.knState.rank ≤ KcnNetState.established.rank := by
    revert alive
    cases ctx.kn.knState <;> decide
  unfold KcnNet.stateChange
  simp only [wp_bind, state, wp_gets]
  have notPending : KcnNetState.established ≠ .pending := by decide
  apply wp_imp
    (sound.wp_stateAssign alive below
      (fun same => absurd same notPending) (by decide))
  rintro _ ctx' ⟨sound', entered⟩
  split
  · rename_i wasPending
    rw [wp_bind]
    have isAsked : asked := sound.pending wasPending.1
    have alive' : ctx'.kn.knState ≠ .disconnected := by
      rw [entered]
      decide
    apply wp_imp (sound'.wp_readEnable isAsked alive')
    rintro _ ctx'' ⟨sound'', _, remains⟩
    exact ⟨sound'', remains entered⟩
  · exact ⟨sound', entered⟩

/-- A disconnected connection has nothing to be armed for. -/
theorem wp_disconnect
    (sound : Sound fd low asked calm False ctx) :
    wp KcnNet.disconnect
      (fun _ ctx' =>
        Sound fd low asked calm armed ctx' ∧
          ctx'.kn.knState = .disconnected)
      Asserted ctx := by
  unfold KcnNet.disconnect
  simp only [wp_bind, state, wp_gets]
  split
  · rename_i already
    exact ⟨sound.arm fun _ _ _ alive => absurd already alive, already⟩
  · rename_i alive
    obtain ⟨fdEq, closedEq⟩ := sound.alive alive
    have above :
        ctx.kn.knState.rank < KcnNetState.disconnected.rank := by
      revert alive
      cases ctx.kn.knState <;> decide
    simp only [wp_bind, setKn, wp_modify, wp_gets, sys, wp_zoom,
      NetIo.socketClose, fdEq, wp_pure, KcnNet.stateChange, state,
      KcnNet.stateAssign, ioLens, if_neg alive, reduceCtorEq,
      and_false, if_false]
    refine ⟨?_, trivial⟩
    exact {
      sound with
      least := Nat.le_trans sound.least (Nat.le_of_lt above)
      forward := sound.forward_concat above
      last := List.getLast?_concat
      pending := fun same => by cases same
      reading := fun same => by cases same
      entered := fun same => by cases same
      alive := fun alive => absurd rfl alive
      dead := fun _ => ⟨rfl, rfl, rfl, by rw [closedEq]; rfl⟩
      armed := fun _ _ _ alive => absurd rfl alive
    }

/-- `kcn_net_event_check` -/
theorem wp_eventCheck
    (sound : Sound fd low asked calm armed ctx)
    (rearmed : Prop)
    (alive : ctx.kn.knState ≠ .disconnected)
    {events : EventFlags} (delivered : events.Delivered) :
    wp (KcnNet.eventCheck events)
      (fun ok ctx' =>
        (ok = true →
          Sound fd low asked calm armed ctx' ∧
            ctx'.kn.knState = .established) ∧
        (ok = false → Sound fd low asked calm rearmed ctx'))
      Asserted ctx := by
  unfold KcnNet.eventCheck
  split
  · rw [wp_bind]
    apply wp_imp (sound.wp_stateChange alive)
    rintro _ ctx' established
    exact ⟨fun _ => established, nofun⟩
  · rename_i unready
    have timeout : events.timeout = true :=
      delivered.resolve_left unready
    rw [if_pos timeout, wp_bind]
    apply wp_imp sound.disarm.wp_disconnect
    rintro _ ctx' ⟨sound', _⟩
    exact ⟨nofun, fun _ => sound'⟩

/-- The write event is registered again before the callback returns. -/
theorem wp_rearm
    (sound : Sound fd low asked calm False ctx)
    (alive : ctx.kn.knState ≠ .disconnected) :
    wp KcnNet.writeEnable
      (fun _ ctx' => Sound fd low asked calm armed ctx')
      Asserted ctx := by
  apply KcnNet.wp_writeEnable (by decide)
  · intro registered
    exact sound.arm fun _ _ _ _ => registered
  · intro env rest answered
    have left := sound.answer env (sound.rest answered).2
    exact {
      left with
      dead := fun dead => absurd dead alive
      armed := fun _ _ _ _ => rfl
    }
  · intro error env rest answered
    obtain ⟨registers, later⟩ := sound.rest answered
    apply (sound.answer env later).arm
    intro registered
    cases registers registered

/-- `kcn_net_write` leaves the state of the connection. -/
theorem wp_write
    (sound : Sound fd low asked calm armed ctx) :
    wp KcnNet.write
      (fun _ ctx' =>
        Sound fd low asked calm armed ctx' ∧
          ctx'.kn.knState = ctx.kn.knState)
      Asserted ctx := by
  unfold KcnNet.write
  simp only [wp_bind, state, wp_gets]
  split
  · exact ⟨sound.answer _ sound.registers, rfl⟩
  · rename_i alive
    simp only [KcnNet.enqueue, sys, wp_bind, wp_zoom]
    apply NetIo.wp_malloc (by decide)
    intro ok env rest answered
    have left := sound.answer env (sound.rest answered).2
    cases ok with
    | false =>
        exact ⟨left, rfl⟩
    | true =>
        have whole (registered : calm) :
            ctx.io.sent ++
                heldBytes
                  (ctx.kn.knObufq ++
                    [KcnBufData.dup ctx.kn.knObufdata.init]) =
              (ctx.io.queued ++
                [ctx.kn.knObufdata.init.data]).flatten := by
          rw [heldBytes_concat, KcnBufData.data_dup,
            ← List.append_assoc, sound.faithful registered,
            List.flatten_append, List.flatten_singleton]
        simp only [↓reduceIte, wp_bind, setKn, wp_modify, wp_pure]
        apply KcnNet.wp_writeEnable (by decide)
        · intro registered
          refine ⟨?_, rfl⟩
          exact {
            left with
            faithful := whole
            armed := fun _ _ _ _ => registered
          }
        · intro env' rest' answered'
          refine ⟨?_, rfl⟩
          exact {
            left with
            registers := (left.rest answered').2
            dead := fun dead => absurd dead alive
            faithful := whole
            armed := fun _ _ _ _ => rfl
          }
        · intro error env' rest' answered'
          obtain ⟨registers, later⟩ := left.rest answered'
          have never (registered : calm) : False := by
            cases registers registered
          refine ⟨?_, rfl⟩
          exact {
            left with
            registers := later
            faithful := fun registered => (never registered).elim
            armed := fun registered => (never registered).elim
          }

/-- A call of the user, who asks for data only while that is possible. -/
theorem wp_call
    (sound : Sound fd low asked calm armed ctx)
    (user : ApiCall)
    (asks : user = .readEnable →
      asked ∧ ctx.kn.knState ≠ .disconnected) :
    wp (KcnNet.call user)
      (fun _ ctx' =>
        Sound fd low asked calm armed ctx' ∧
          (ctx.kn.knState = .established →
            ctx'.kn.knState = .established))
      Asserted ctx := by
  cases user with
  | write fill =>
      simp only [KcnNet.call, wp_bind, wp_zoom, wp_modify]
      have filled :
          Sound fd low asked calm armed
            (obufLens.set ctx (fill (obufLens.get ctx))) :=
        { sound with }
      apply wp_imp filled.wp_write
      rintro _ ctx' ⟨sound', same⟩
      exact ⟨sound', fun entered => same.trans entered⟩
  | readEnable =>
      obtain ⟨isAsked, alive⟩ := asks rfl
      apply wp_imp (sound.wp_readEnable isAsked alive)
      rintro _ ctx' ⟨sound', _, remains⟩
      exact ⟨sound', remains⟩

/-- The calls that a read callback makes. -/
theorem wp_callAll
    (isAsked : asked) (calls : List ApiCall)
    (sound : Sound fd low asked calm armed ctx)
    (entered : ctx.kn.knState = .established) :
    wp (KcnNet.callAll calls)
      (fun _ ctx' =>
        Sound fd low asked calm armed ctx' ∧
          ctx'.kn.knState = .established)
      Asserted ctx := by
  induction calls generalizing ctx with
  | nil =>
      exact ⟨sound, entered⟩
  | cons first later inductionHypothesis =>
      unfold KcnNet.callAll
      rw [wp_bind]
      have alive : ctx.kn.knState ≠ .disconnected := by
        rw [entered]
        exact nofun
      apply wp_imp (sound.wp_call first fun _ => ⟨isAsked, alive⟩)
      rintro _ ctx' ⟨sound', remains⟩
      exact inductionHypothesis sound' (remains entered)

/-- The loop of the write callback. -/
theorem wp_writeLoop
    (rounds : Nat)
    (sound : Sound fd low asked calm False ctx)
    (entered : ctx.kn.knState = .established) :
    wp (KcnNet.writeLoop rounds)
      (fun _ ctx' => Sound fd low asked calm armed ctx')
      Asserted ctx := by
  induction rounds generalizing ctx with
  | zero =>
      exact nofun
  | succ rounds inductionHypothesis =>
      have alive : ctx.kn.knState ≠ .disconnected := by
        rw [entered]
        exact nofun
      unfold KcnNet.writeLoop
      rw [wp_bind, wp_gets]
      split
      · rename_i empty
        exact sound.arm fun _ _ nonempty => absurd empty nonempty
      · rename_i kbd rest shape
        rw [wp_bind, wp_zoom]
        apply KcndbFile.wp_bufWrite_any (by decide)
        intro error part wrote
        cases wrote with
        | failed _ nonzero fileEq =>
            have same :
                Sound fd low asked calm False
                  ((headLens kbd rest).set ctx part) := by
              simp only [headLens, fileEq]
              exact {
                sound with
                faithful := by
                  intro registered
                  have whole := sound.faithful registered
                  rw [shape] at whole
                  exact whole
                armed := fun _ => False.elim
              }
            split
            · rw [wp_bind]
              apply wp_imp (same.wp_rearm alive)
              intro _ _ sound'
              exact sound'
            · apply wp_imp same.wp_disconnect
              rintro _ _ ⟨sound', _⟩
              exact sound'
        | put count contentEq dataEq =>
            have advanced :
                Sound fd low asked calm False
                  ((headLens kbd rest).set ctx part) := by
              refine {
                sound with
                faithful := ?_
                armed := fun _ => False.elim
              }
              intro registered
              have whole := sound.faithful registered
              simp only [headLens, writeAt_length] at contentEq dataEq ⊢
              rw [shape, heldBytes_cons] at whole
              rw [contentEq, heldBytes_cons]
              have held :
                  (KcnBufData.ofBuf part.file.kb).init.data =
                    kbd.init.data.drop count :=
                dataEq
              rw [held, List.append_assoc, ← List.append_assoc _ _
                (heldBytes rest), List.take_append_drop]
              exact whole
            rw [if_neg (by decide), if_neg (by decide), wp_bind,
              wp_gets]
            simp only [headLens]
            split
            · rename_i done
              simp only [setKn, wp_bind, wp_modify]
              refine inductionHypothesis ?_ entered
              have dropped := KcnBufData.data_of_trailingdata done
              exact {
                advanced with
                faithful := by
                  intro registered
                  have whole := advanced.faithful registered
                  simp only [headLens] at whole ⊢
                  rw [heldBytes_cons, dropped, List.nil_append] at whole
                  exact whole
                armed := fun _ => False.elim
              }
            · exact inductionHypothesis advanced entered

/-- The end of the read callback. -/
theorem wp_readOut
    (sound : Sound fd low asked calm armed ctx)
    (isAsked : asked)
    (entered : ctx.kn.knState = .established)
    (error : Errno) :
    wp (KcnNet.readOut error)
      (fun _ ctx' => Sound fd low asked calm armed ctx')
      Asserted ctx := by
  unfold KcnNet.readOut
  split
  · have alive : ctx.kn.knState ≠ .disconnected := by
      rw [entered]
      exact nofun
    rw [wp_bind]
    apply wp_imp (sound.wp_readEnable isAsked alive)
    rintro _ _ ⟨sound', _⟩
    exact sound'
  · split
    · apply wp_imp sound.disarm.wp_disconnect
      rintro _ _ ⟨sound', _⟩
      exact sound'
    · exact sound

/-- The read callback of a connection that was asked to read. -/
theorem wp_readCb
    {readcb : NetOp δ Errno} {number : Option Nat} {events : EventFlags}
    (sound : Sound fd low asked calm armed ctx)
    (same : ctx.kn.knFd = number)
    (alive : ctx.kn.knState ≠ .disconnected)
    (delivered : events.Delivered)
    (isAsked : asked)
    (calls : ∀ ctx' : NetCtx δ,
      Sound fd low asked calm armed ctx' →
      ctx'.kn.knState = .established →
      wp readcb
        (fun _ ctx'' =>
          Sound fd low asked calm armed ctx'' ∧
            ctx''.kn.knState = .established)
        Asserted ctx') :
    wp (KcnNet.readCb readcb number events)
      (fun _ ctx' => Sound fd low asked calm armed ctx')
      Asserted ctx := by
  unfold KcnNet.readCb
  simp only [KcnNet.assertFd, wp_bind, wp_gets, if_pos same, wp_pure]
  apply wp_imp (sound.wp_eventCheck armed alive delivered)
  rintro ok ctx' ⟨ready, unready⟩
  cases ok with
  | false =>
      exact unready rfl
  | true =>
      obtain ⟨sound', entered⟩ := ready rfl
      rw [if_pos rfl, wp_bind, wp_zoom]
      apply KcndbFile.wp_bufRead (by decide) (fun _ => by decide)
      intro error part _ _
      have received :
          Sound fd low asked calm armed (ibufLens.set ctx' part) :=
        { sound' with }
      split
      · rw [wp_bind]
        apply wp_imp (calls _ received entered)
        rintro error' ctx'' ⟨sound'', entered''⟩
        exact sound''.wp_readOut isAsked entered'' error'
      · exact received.wp_readOut isAsked entered error

/-- The write callback of a connection. -/
theorem wp_writeCb
    {number : Option Nat} {events : EventFlags}
    (sound : Sound fd low asked calm False ctx)
    (same : ctx.kn.knFd = number)
    (alive : ctx.kn.knState ≠ .disconnected)
    (delivered : events.Delivered)
    (kept : armed → ¬ Strands ctx events) :
    wp (KcnNet.writeCb number events)
      (fun _ ctx' => Sound fd low asked calm armed ctx')
      Asserted ctx := by
  unfold KcnNet.writeCb
  simp only [KcnNet.assertFd, state, wp_bind, wp_gets, if_pos same,
    wp_pure]
  split
  · rename_i workaround
    have empty : armed → ctx.kn.knObufq = [] := by
      intro isArmed
      by_contra nonempty
      exact kept isArmed ⟨workaround.1, workaround.2.1, nonempty⟩
    have rearmed : Sound fd low asked calm armed ctx :=
      sound.arm fun _ isArmed nonempty _ =>
        absurd (empty isArmed) nonempty
    apply wp_imp (rearmed.wp_stateChange alive)
    rintro _ _ ⟨sound', _⟩
    exact sound'
  · rw [wp_bind]
    apply wp_imp (sound.wp_eventCheck armed alive delivered)
    rintro ok ctx' ⟨ready, unready⟩
    cases ok with
    | false =>
        exact unready rfl
    | true =>
        obtain ⟨sound', entered⟩ := ready rfl
        rw [if_pos rfl, wp_bind, wp_gets]
        exact sound'.wp_writeLoop _ entered

end Sound

/-- The user's read callback as the answers of the environment have it. -/
def scripted : NetOp δ Errno := do
  match ← sys NetIo.next with
  | .callback take calls error => do
      setKn fun kn => { kn with knIbuf := take kn.knIbuf }
      KcnNet.callAll calls
      pure error
  | _ => stop .starved

theorem Sound.wp_scripted
    {fd low : Nat} {asked calm armed : Prop} {ctx : NetCtx δ}
    (sound : Sound fd low asked calm armed ctx)
    (isAsked : asked)
    (entered : ctx.kn.knState = .established) :
    wp scripted
      (fun _ ctx' =>
        Sound fd low asked calm armed ctx' ∧
          ctx'.kn.knState = .established)
      Asserted ctx := by
  unfold scripted
  simp only [wp_bind, sys, wp_zoom]
  apply NetIo.wp_next (by decide)
  intro answer rest answered
  have left := sound.answer ctx.io.env (sound.rest answered).2
  cases answer with
  | callback take calls error =>
      simp only [wp_bind, setKn, wp_modify]
      have taken :
          Sound fd low asked calm armed {
            ctx with
            kn := { ctx.kn with knIbuf := take ctx.kn.knIbuf }
            io := { ctx.io with answers := rest }
          } :=
        { left with }
      apply wp_imp (Sound.wp_callAll isAsked calls taken entered)
      intro _ _ both
      exact both
  | malloc _ | eventAdd _ =>
      rintro ⟨⟩

end NetCtx

end Kcn
