import Kcn.Robust
import Kcn.Socket

namespace Kcn

open Program FdIo NetCtx

/-!
# The descriptor of a client

`kcn_client_search` with `kcn_client_init`: it connects, makes a connection of
the descriptor and gives this connection up in the end.
-/

namespace KcnClient

/-- What a search meets once it is connected. -/
structure Attempt where
  answers : List NetAnswer
  incoming : List UInt8
  deliveries : List NetStep
  ibuf : List UInt8
  obuf : List UInt8
  length_ibuf : ibuf.length = kcnMsgMaxsiz
  length_obuf : obuf.length = kcnMsgMaxsiz

/-- `malloc` of the structure fails in `kcn_net_new`. -/
def Attempt.unallocated (attempt : Attempt) : Bool :=
  match attempt.answers with
  | .malloc false :: _ => true
  | _ => false

/--
`event_init` in `kcn_client_search` and `kcn_client_init` up to
`kcn_net_new`.
-/
def connect (ipv6 : Bool) : FdProgram (Option Nat) := do
  if ← allocate then
    match ← next with
    | .resolved none => pure none
    | .resolved (some family) => KcnSocket.connect ipv6 family
    | _ => stop .starved
  else
    pure none

/-- The search on a connection that was made for it. -/
def searchMade
    (attempt : Attempt) (ki : KcnInfo) (kmq : KcnMsgQuery)
    (kn : KcnNet) : Program Stop NetIo (Bool × KcnInfo) :=
  fun io =>
    match search attempt.deliveries kmq (opened kn io ki) with
    | .ok (ok, ctx) => .ok ((ok, ctx.data.kcrKi), ctx.io)
    | .error reason => .error reason

/--
`kcn_client_search` from `kcn_net_new` on; the exit at `bad` destroys a
connection that is not there.
-/
def searchOn
    (attempt : Attempt) (ki : KcnInfo) (kmq : KcnMsgQuery) (fd : Nat) :
    Program Stop NetIo (Bool × KcnInfo) := do
  match ← KcnNet.new fd attempt.ibuf attempt.obuf with
  | none => pure (false, ki)
  | some kn => searchMade attempt ki kmq kn

/-- `kcn_client_search` -/
def searchServer
    (ipv6 : Bool) (attempt : Attempt) (ki : KcnInfo)
    (kmq : KcnMsgQuery) : FdProgram (Bool × KcnInfo) := do
  match ← connect ipv6 with
  | none => pure (false, ki)
  | some fd =>
      onConnection (searchOn attempt ki kmq fd) attempt.answers
        attempt.incoming

variable
  {fd maxnlocs : Nat} {stream : List UInt8}
  {ctx : NetCtx KcnClientResponse}

/-- A client that is torn down closes its descriptor. -/
theorem Going.wp_destroy_closed (going : Going fd maxnlocs stream ctx) :
    wp KcnNet.destroy (fun _ ctx' => ctx'.io.closed = [fd]) Asserted
      ctx := by
  have closes {low : Nat} {asked : Prop}
      (sound : Sound fd low asked False False ctx) :
      wp KcnNet.disconnect (fun _ ctx' => ctx'.io.closed = [fd]) Asserted
        ctx := by
    have gone :
        wp KcnNet.disconnect
          (fun _ ctx' => Sound fd low asked False False ctx' ∧
            ctx'.kn.knState = .disconnected)
          Asserted ctx :=
      sound.wp_disconnect
    apply wp_imp gone
    rintro _ ctx' ⟨sound', dead⟩
    exact (sound'.dead dead).2.2.2
  cases going with
  | reading _ sound _ _ =>
      exact closes sound
  | finished _ sound _ =>
      exact closes sound

/-- A value of `errno` does not matter for what a client knows. -/
theorem Going.setErrno
    (going : Going fd maxnlocs stream ctx) (errno : Errno) :
    Going fd maxnlocs stream {
      ctx with
      io := { ctx.io with env := { ctx.io.env with errno := errno } }
    } := by
  cases going with
  | reading rest sound tracked roomy =>
      exact .reading rest { sound with }
        ⟨tracked.incoming_eq, tracked.max_eq, tracked.taken⟩ roomy
  | finished rest sound tracked =>
      exact .finished rest { sound with }
        ⟨tracked.incoming_eq, tracked.max_eq, tracked.taken⟩

/-- Whatever comes of a search, it closes its descriptor. -/
theorem wp_search_closed
    {env : Env} {answers : List NetAnswer} {kn : KcnNet} {io : NetIo}
    {ibuf obuf : List UInt8}
    (makes :
      KcnNet.new fd ibuf obuf (NetIo.start env answers stream) =
        .ok (some kn, io))
    (ibufSize : ibuf.length = kcnMsgMaxsiz)
    (obufSize : obuf.length = kcnMsgMaxsiz)
    (loctype : KcnLocType) (maxnlocs : Nat)
    (kmq : KcnMsgQuery) (deliveries : List NetStep) :
    wp (search deliveries kmq) (fun _ ctx' => ctx'.io.closed = [fd])
      Asserted (opened kn io (KcnInfo.new loctype maxnlocs)) := by
  have waits : ∀ reason, Starved reason → Asserted reason := by
    rintro _ rfl
    decide
  obtain ⟨sound, _, isInit⟩ :=
    opened_phase makes (KcnInfo.new loctype maxnlocs)
  obtain ⟨tracked, roomy, output⟩ :=
    opened_going makes ibufSize obufSize loctype maxnlocs
  unfold search
  rw [wp_bind]
  apply wp_mono
    (wp_querySend_going sound isInit output tracked roomy) ?_ waits
  intro ok ctx₁ going₁
  have tears {ctx : NetCtx KcnClientResponse}
      (going : Going fd maxnlocs stream ctx) (ok : Bool) :
      wp (KcnNet.destroy >>= fun _ => pure ok)
        (fun _ ctx' => ctx'.io.closed = [fd]) Asserted ctx := by
    rw [wp_bind]
    exact wp_imp going.wp_destroy_closed fun _ _ => id
  split
  · rw [wp_bind]
    apply wp_mono (going₁.wp_loop deliveries) ?_ waits
    intro _ ctx₂ going₂
    rw [wp_bind, wp_gets]
    split
    · simp only [setErrno, sys, NetIo.setErrno, wp_bind, wp_zoom,
        wp_modify]
      have going₃ := going₂.setErrno ctx₂.data.kcrError
      have torn := tears going₃ false
      rw [wp_bind] at torn
      exact torn
    · exact tears going₂ true
  · exact tears going₁ false

variable {attempt : Attempt} {kmq : KcnMsgQuery}

/-- What `kcn_client_search` leaves of the descriptor that it connected. -/
def Attempt.left (attempt : Attempt) (number : Option Nat) :
    Multiset Nat :=
  if attempt.unallocated then fds number else 0

theorem wp_searchMade
    {ki : KcnInfo} {kn : KcnNet} {io : NetIo} {post : NetIo → Prop}
    {halt : Stop → Prop}
    (outcome :
      wp (search attempt.deliveries kmq) (fun _ ctx' => post ctx'.io) halt
        (opened kn io ki)) :
    wp (searchMade attempt ki kmq kn) (fun _ io' => post io') halt
      io := by
  unfold wp searchMade at *
  cases shape : search attempt.deliveries kmq (opened kn io ki) with
  | ok result =>
      rw [shape] at outcome
      exact outcome
  | error reason =>
      rw [shape] at outcome
      exact outcome

/-- A search from `kcn_net_new` on closes its descriptor, or nothing. -/
theorem wp_searchOn
    (attempt : Attempt) (loctype : KcnLocType) (maxnlocs : Nat)
    (kmq : KcnMsgQuery) (fd : Nat) (env : Env) :
    wp (searchOn attempt (KcnInfo.new loctype maxnlocs) kmq fd)
      (fun _ net =>
        net.closed = if attempt.unallocated then [] else [fd])
      Asserted (NetIo.start env attempt.answers attempt.incoming) := by
  unfold searchOn
  rw [wp_bind]
  apply wp_imp (wp_returned (KcnNet.wp_new fd _ _ _ (by decide)))
  rintro result net ⟨made, makes⟩
  have allocated
      {ok : Bool} {rest : List NetAnswer}
      (answered : attempt.answers = .malloc ok :: rest) :
      attempt.unallocated = !ok := by
    unfold Attempt.unallocated
    rw [answered]
    cases ok <;> rfl
  cases made with
  | refused env rest answered =>
      rw [allocated answered]
      rfl
  | failed _ rest answered _ closedEq =>
      rw [allocated answered]
      exact closedEq
  | made env rest granted =>
      obtain ⟨later, answered⟩ := granted
      rw [allocated answered.symm]
      have closes :=
        wp_search_closed makes attempt.length_ibuf attempt.length_obuf
          loctype maxnlocs kmq attempt.deliveries
      exact wp_searchMade closes

variable {held : Multiset Nat} {ipv6 : Bool}

theorem holds_connect :
    Holds held (connect ipv6) fun number => fds number + held := by
  have nothing : held = fds none + held :=
    (Multiset.zero_add held).symm
  unfold connect
  apply holds_allocate.bind
  intro ok
  split
  · apply holds_next.bind
    intro answer
    cases answer with
    | resolved family =>
        cases family with
        | none =>
            exact .pure none nothing
        | some family =>
            exact KcnSocket.holds_connect ipv6 family
    | allocated _ | opened _ | returned _ =>
        exact holds_starved
  · exact .pure none nothing

/-- What a connected client does with its descriptor. -/
theorem holds_onServer
    (attempt : Attempt) (loctype : KcnLocType) (maxnlocs : Nat)
    (kmq : KcnMsgQuery) (fd : Nat) :
    Holds (fds (some fd))
      (onConnection
        (searchOn attempt (KcnInfo.new loctype maxnlocs) kmq fd)
        attempt.answers attempt.incoming)
      fun _ => attempt.left (some fd) := by
  have closes := wp_searchOn attempt loctype maxnlocs kmq fd
  unfold Attempt.left
  cases unallocated : attempt.unallocated with
  | true =>
      rw [unallocated] at closes
      have keeps :
          Holds (fds none + fds (some fd))
            (onConnection
              (searchOn attempt (KcnInfo.new loctype maxnlocs) kmq fd)
              attempt.answers attempt.incoming)
            fun _ => fds (some fd) :=
        holds_onConnection closes
      rwa [fds, Multiset.zero_add] at keeps
  | false =>
      rw [unallocated] at closes
      have closes :
          Holds (fds (some fd) + 0)
            (onConnection
              (searchOn attempt (KcnInfo.new loctype maxnlocs) kmq fd)
              attempt.answers attempt.incoming)
            fun _ => 0 :=
        holds_onConnection closes
      exact closes

/--
A search that returns has closed what it has opened, except that the connected
descriptor stays open if `kcn_net_new` finds no memory for its structure.
-/
theorem search_leaves
    {attempt : Attempt} {ipv6 : Bool} {loctype : KcnLocType}
    {maxnlocs : Nat} {kmq : KcnMsgQuery} {answers : List FdReply}
    {result : Bool × KcnInfo} {io : FdIo}
    (returns :
      searchServer ipv6 attempt (KcnInfo.new loctype maxnlocs) kmq
          (FdIo.start answers) = .ok (result, io)) :
    ∃ number between,
      connect ipv6 (FdIo.start answers) = .ok (number, between) ∧
        Owns 0 io.log (attempt.left number) := by
  obtain ⟨number, between, connects, later⟩ := bind_ok returns
  refine ⟨number, between, connects, ?_⟩
  have opened : Owns 0 between.log (fds number) := by
    have holds :
        Holds 0 (connect ipv6) fun number => fds number + 0 :=
      holds_connect
    have owns := holds.ok rfl connects
    rwa [Multiset.add_zero] at owns
  cases number with
  | none =>
      obtain ⟨_, rfl⟩ := Prod.mk.inj (Except.ok.inj later)
      have nothing : attempt.left none = fds none := by
        unfold Attempt.left
        split
        · rfl
        · rfl
      rw [nothing]
      exact opened
  | some fd =>
      obtain ⟨ops, logEq, owns⟩ :=
        wp_ok (holds_onServer attempt loctype maxnlocs kmq fd between)
          later
      have logEq : io.log = between.log ++ ops := logEq
      rw [logEq]
      exact opened.append owns

/-- A block for a whole message. -/
def zeroBlock : List UInt8 :=
  List.replicate kcnMsgMaxsiz 0

theorem length_zeroBlock : zeroBlock.length = kcnMsgMaxsiz :=
  List.length_replicate

/-- A search that finds no memory once it is connected. -/
def forlorn : Attempt where
  answers := [.malloc false]
  incoming := []
  deliveries := []
  ibuf := zeroBlock
  obuf := zeroBlock
  length_ibuf := length_zeroBlock
  length_obuf := length_zeroBlock

/-- A search that is answered with the locator `a`. -/
def served : Attempt where
  answers := NetIo.allGranted ++ [.malloc true]
  incoming := frame .response [0, 1, 0x61] ++ frame .response [0, 0]
  deliveries :=
    [writes .full, { readsAll with answers := [.malloc true] }]
  ibuf := zeroBlock
  obuf := zeroBlock
  length_ibuf := length_zeroBlock
  length_obuf := length_zeroBlock

/-- The answers with which a client connects. -/
def connectAnswers : List FdReply :=
  [.allocated true, .resolved (some afInet), .opened (.ok 5),
    .returned none, .returned none, .returned none]

theorem connect_connectAnswers :
    connect false (FdIo.start connectAnswers) =
      .ok (some 5, { errno := 0, answers := [], log := [.opened 5] }) :=
  rfl

/-- Whether a search ends with these locators, having done this. -/
def leavesLog
    (attempt : Attempt) (ok : Bool) (uris : List (List UInt8))
    (log : List FdOp) : Bool :=
  match searchServer false attempt (KcnInfo.new .uri 1) query
      (FdIo.start connectAnswers) with
  | .ok (result, io) =>
      result.1 == ok && result.2.kiLocs.map KcnLoc.klUri == uris &&
        decide (io.log = log)
  | .error _ => false

theorem returns_of_leavesLog
    {attempt : Attempt} {ok : Bool} {uris : List (List UInt8)}
    {log : List FdOp}
    (shown : leavesLog attempt ok uris log = true) :
    ∃ ki io,
      searchServer false attempt (KcnInfo.new .uri 1) query
          (FdIo.start connectAnswers) = .ok ((ok, ki), io) ∧
        ki.kiLocs.map KcnLoc.klUri = uris ∧ io.log = log := by
  unfold leavesLog at shown
  split at shown
  · rename_i result io returns
    simp only [Bool.and_eq_true, beq_iff_eq, decide_eq_true_eq] at shown
    obtain ⟨⟨rfl, urisEq⟩, logEq⟩ := shown
    exact ⟨result.2, io, returns, urisEq, logEq⟩
  · cases shown

/-- A search that closes its descriptor, and one that leaves it open. -/
theorem search_leaves_one :
    (∃ ki io,
      searchServer false served (KcnInfo.new .uri 1) query
          (FdIo.start connectAnswers) = .ok ((true, ki), io) ∧
        ki.kiLocs.map KcnLoc.klUri = [[0x61, 0]] ∧
        io.log = [.opened 5, .closed 5] ∧ Owns 0 io.log 0) ∧
      ∃ ki io,
        searchServer false forlorn (KcnInfo.new .uri 1) query
            (FdIo.start connectAnswers) = .ok ((false, ki), io) ∧
          io.log = [.opened 5] ∧ Owns 0 io.log {5} := by
  have leaves
      {attempt : Attempt} {result : Bool × KcnInfo} {io : FdIo}
      (returns :
        searchServer false attempt (KcnInfo.new .uri 1) query
            (FdIo.start connectAnswers) = .ok (result, io)) :
      Owns 0 io.log (attempt.left (some 5)) := by
    obtain ⟨number, between, connects, owns⟩ := search_leaves returns
    obtain ⟨rfl, _⟩ :=
      Prod.mk.inj
        (Except.ok.inj (connects.symm.trans connect_connectAnswers))
    exact owns
  obtain ⟨ki, io, returns, urisEq, logEq⟩ :=
    returns_of_leavesLog
      (show
        leavesLog served true [[0x61, 0]] [.opened 5, .closed 5] = true
        by decide +kernel)
  obtain ⟨ki', io', returns', _, logEq'⟩ :=
    returns_of_leavesLog
      (show leavesLog forlorn false [] [.opened 5] = true by
        decide +kernel)
  exact ⟨⟨ki, io, returns, urisEq, logEq, leaves returns⟩,
    ki', io', returns', logEq', leaves returns'⟩

end KcnClient

end Kcn
