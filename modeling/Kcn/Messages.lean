import Kcn.Replies

namespace Kcn

open Framing

/-!
# Every message once

What a client sends on a connection is handled message by message, none is
lost, repeated or passed by, and the samples of a type are those of the
accepted add messages of all connections in the order of their handling.
-/

namespace DaemonAct

/-- The samples of a type that an act adds. -/
def added (index : Fin (kcnEqTypeMax - 1)) : DaemonAct → List Sample
  | .handles handling (some (.add kma)) none =>
      match Worker.timeOf handling.clock kma with
      | .ok time =>
          if type2index kma.kmaType = some index then
            [(kma.record time).sample]
          else
            []
      | .error _ => []
  | .opens _ | .accepts _ _ _ | .reads _ _ _ | .handles _ _ _
  | .restart => []

/--
The bytes of the last connection of a worker and the messages handled on it, in
the light of one more act.
-/
def follow
    (tid : Nat) (session : Option (List UInt8 × List ServerFrame)) :
    DaemonAct → Option (List UInt8 × List ServerFrame)
  | .accepts other bytes _ =>
      if other = tid then some (bytes, []) else session
  | .handles handling (some message) _ =>
      if handling.tid = tid then
        session.map fun (bytes, messages) =>
          (bytes, messages ++ [message])
      else
        session
  | .restart => none
  | .opens _ | .reads _ _ _ | .handles _ none _ => session

/-- The last connection of a worker in some acts. -/
def session (tid : Nat) (acts : List DaemonAct) :
    Option (List UInt8 × List ServerFrame) :=
  acts.foldl (follow tid) none

theorem session_snoc (tid : Nat) (acts : List DaemonAct) (act : DaemonAct) :
    session tid (acts ++ [act]) = follow tid (session tid acts) act := by
  rw [session, session, List.foldl_append, List.foldl_cons,
    List.foldl_nil]

end DaemonAct

namespace Service

variable
  {samples : Fin (kcnEqTypeMax - 1) → List Sample}
  {service service' : Service} {acts : List DaemonAct}
  {act : DaemonAct}

/-- The samples after an act are those of before and the added ones. -/
theorem Takes.samples_eq
    (takes : service.Takes act service')
    (index : Fin (kcnEqTypeMax - 1)) :
    service'.samples index = service.samples index ++ act.added index := by
  cases takes with
  | opens done =>
      simp [DaemonAct.added]
  | accepts tid bytes memory =>
      simp [DaemonAct.added, connect]
  | reads tid env error arrived new coming _ _ =>
      simp [DaemonAct.added, connect]
  | waits handling conn _ _ =>
      simp [DaemonAct.added]
  | refuses handling conn error _ _ =>
      simp [DaemonAct.added, connect]
  | restart =>
      simp [DaemonAct.added]
  | serves handling conn message rest error service₁ _ _ serves =>
      cases serves with
      | malformed =>
          simp [DaemonAct.added, connect, reply]
      | query kmq _ answer _ _ =>
          simp [DaemonAct.added, connect, reply]
      | timeless kma error timeEq =>
          simp [DaemonAct.added, connect]
      | add kma time stored samples answer timeEq found responds =>
          rw [Samples.respond] at responds
          split at responds
          · cases responds
            simp [DaemonAct.added, connect, store]
          · cases responds
            by_cases same : index = stored
            · subst same
              simp [DaemonAct.added, connect, store, timeEq, found]
            · have other : ¬ stored = index := fun eq => same eq.symm
              simp [DaemonAct.added, connect, store, timeEq, found, same,
                other]

/-- The messages taken off an open connection leave what is to be handled. -/
def Follows (acts : List DaemonAct) (service : Service) : Prop :=
  ∀ tid incoming, service.conns tid = some incoming →
    ∃ bytes messages,
      DaemonAct.session tid acts = some (bytes, messages) ∧
        serverFramer.Takes bytes messages
          (incoming.arrived ++ incoming.coming)

/-- Where nothing of a worker's connection changes, it is followed on. -/
theorem Follows.same
    (follows : Follows acts service) {tid : Nat} {incoming : Incoming}
    (conns : service.conns tid = some incoming)
    (unchanged :
      DaemonAct.follow tid (DaemonAct.session tid acts) act =
        DaemonAct.session tid acts) :
    ∃ bytes messages,
      DaemonAct.session tid (acts ++ [act]) = some (bytes, messages) ∧
        serverFramer.Takes bytes messages
          (incoming.arrived ++ incoming.coming) := by
  rw [DaemonAct.session_snoc, unchanged]
  exact follows tid incoming conns

/-- Every act follows the connections on. -/
theorem Takes.follows
    (takes : service.Takes act service')
    (follows : Follows acts service) :
    Follows (acts ++ [act]) service' := by
  intro tid incoming conns
  cases takes with
  | opens done =>
      exact follows.same conns rfl
  | accepts other bytes memory =>
      by_cases own : other = tid
      · subst own
        simp only [connect, Function.update_self] at conns
        cases conns
        refine ⟨bytes, [], ?_, .nil _⟩
        rw [DaemonAct.session_snoc, DaemonAct.follow, if_pos rfl]
      · simp only [connect, Function.update_of_ne (Ne.symm own)] at conns
        exact follows.same conns (if_neg own)
  | reads other env error arrived new coming before _ =>
      by_cases own : other = tid
      · subst own
        simp only [connect, Function.update_self, leftAfter] at conns
        split at conns
        · cases conns
          rw [List.append_assoc]
          exact follows.same before rfl
        · cases conns
      · simp only [connect, Function.update_of_ne (Ne.symm own)] at conns
        exact follows.same conns rfl
  | waits handling conn _ _ =>
      exact follows.same conns rfl
  | refuses handling conn error _ _ =>
      by_cases own : handling.tid = tid
      · subst own
        simp only [connect, Function.update_self] at conns
        cases conns
      · simp only [connect, Function.update_of_ne (Ne.symm own)] at conns
        exact follows.same conns rfl
  | serves handling conn message rest error service₁ before cut serves =>
      by_cases own : handling.tid = tid
      · subst own
        simp only [connect, Function.update_self, leftAfter] at conns
        split at conns
        · cases conns
          obtain ⟨bytes, messages, sessionEq, taken⟩ :=
            follows handling.tid conn before
          refine ⟨bytes, messages ++ [message], ?_, ?_⟩
          · rw [DaemonAct.session_snoc, sessionEq, DaemonAct.follow,
              if_pos rfl]
            rfl
          · exact taken.snoc (serverFramer.take_append _ _ _ _ cut)
        · cases conns
      · simp only [connect, Function.update_of_ne (Ne.symm own)] at conns
        rw [serves.conns_eq] at conns
        exact follows.same conns (if_neg own)
  | restart =>
      cases conns

/-- The samples are those added, and the connections are followed. -/
structure Followed
    (samples : Fin (kcnEqTypeMax - 1) → List Sample)
    (acts : List DaemonAct) (service : Service) : Prop where
  samples_eq : ∀ index,
    service.samples index =
      samples index ++ acts.flatMap (DaemonAct.added index)
  follows : Follows acts service

theorem followed_run
    (run : Run Takes (.start samples) acts service) :
    Followed samples acts service := by
  have start : Followed samples [] (.start samples) := by
    refine ⟨fun index => (List.append_nil _).symm, ?_⟩
    intro tid incoming conns
    cases conns
  have step :
      ∀ acts (service : Service) act service',
        Followed samples acts service → service.Takes act service' →
        Followed samples (acts ++ [act]) service' := by
    intro acts service act service' followed takes
    refine ⟨fun index => ?_, takes.follows followed.follows⟩
    rw [takes.samples_eq, followed.samples_eq, List.flatMap_append,
      List.append_assoc, List.flatMap_singleton]
  exact run.invariant start step

end Service

namespace Daemon

variable
  {files : Fin (kcnEqTypeMax - 1) → List UInt8 × List UInt8}
  {samples : Fin (kcnEqTypeMax - 1) → List Sample}
  {acts : List DaemonAct} {d : Daemon}

/--
No message is lost or handled twice: the tables store the samples of before and
those of the accepted add messages in the order of their handling, and the
messages handled on an open connection, taken off what its client sends, leave
what is in the buffer and what is still to be read.
-/
theorem once_in_order
    (disk : ∀ index, ((onDisk files).db index).OnDisk)
    (stores : ∀ index,
      ((onDisk files).db index).Stores (samples index))
    (run : Run (Guarded Step Favoured) (onDisk files) acts d) :
    (∀ index, (d.db index).Stores
        (samples index ++ acts.flatMap (DaemonAct.added index))) ∧
      ∀ tid conn, d.conns tid = some conn →
        ∃ bytes messages,
          DaemonAct.session tid acts = some (bytes, messages) ∧
            serverFramer.Takes bytes messages
              (conn.kb.after ++ conn.content.drop conn.off) := by
  obtain ⟨service, run', shows⟩ := shows_run disk stores run
  obtain ⟨samplesEq, follows⟩ := Service.followed_run run'
  refine ⟨fun index => ?_, fun tid conn served => ?_⟩
  · rw [← samplesEq]
    exact (shows.tables index).stores
  · obtain ⟨incoming, conns, carries⟩ := shows.conn served
    obtain ⟨bytes, messages, sessionEq, takes⟩ :=
      follows tid incoming conns
    rw [← carries.arrived_eq, ← carries.coming_eq] at takes
    exact ⟨bytes, messages, sessionEq, takes⟩

/-- The sample is stored, and three messages were handled. -/
def showsOnce (acts : List DaemonAct) (d : Daemon) : Bool :=
  acts.flatMap (DaemonAct.added Database.first) == [⟨1, 5, [97]⟩] &&
    (DaemonAct.session 0 acts).any
      (fun session => session.2.length == 2) &&
    (d.conns 0).isSome

/-- A run to which `once_in_order` applies. -/
theorem once_in_order_one :
    ∃ acts d bytes messages,
      Run (Guarded Step Favoured) (onDisk fun _ => ([], [])) acts d ∧
      (d.db Database.first).Stores [⟨1, 5, [97]⟩] ∧
      DaemonAct.session 0 acts = some (bytes, messages) ∧
      messages.length = 2 ∧
      ∃ rest, serverFramer.Takes bytes messages rest := by
  obtain ⟨acts, d, run, shown⟩ :=
    Run.of_shown guarded_perform
      (show
        (performAll (performIf checkFavoured perform)
            (onDisk fun _ => ([], [])) servesOne).any
            (fun performed => showsOnce performed.1 performed.2) =
          true
        by decide +kernel)
  simp only [showsOnce, Bool.and_eq_true, beq_iff_eq,
    Option.any_eq_true, Option.isSome_iff_exists] at shown
  obtain ⟨⟨added, session, sessionEq, count⟩, conn, served⟩ := shown
  have stored (index : Fin (kcnEqTypeMax - 1)) :
      ((onDisk fun _ => ([], [])).db index).Stores [] :=
    Table.stores_nil []
  obtain ⟨stores, sessions⟩ :=
    once_in_order
      (fun _ => ⟨Or.inl rfl, Nat.zero_le _, Nat.zero_le _⟩) stored run
  have first := stores Database.first
  rw [added, List.nil_append] at first
  obtain ⟨bytes, messages, same, takes⟩ := sessions 0 conn served
  obtain rfl := Option.some.inj (sessionEq.symm.trans same)
  exact ⟨acts, d, bytes, messages, run, first, same, count, _, takes⟩

end Daemon

end Kcn
