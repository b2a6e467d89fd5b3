import Kcn.Load
import Kcn.Messages

namespace Kcn

open Program Bytes KcnBuf Framing

/-!
# A file through the daemon

`kcndbctl` makes messages of the lines of a file, and a worker of the daemon
stores them.  While the connection is open, what was handled of the file are
its first lines, and they are stored.
-/

namespace Line

/-- What is stored of a line. -/
def sample (line : Line) : Sample where
  time := line.time.value.toInt64
  val := line.val.value
  loc := line.loc

/-- A time in a file is never the one that stands for the current time. -/
theorem time_ne_now (line : Line) :
    line.time.value ≠ kcnTimeNow.toUInt64 := by
  intro same
  have fits := line.time.fits
  have value : line.time.value.toNat = decimal line.time.digits := by
    rw [Number.value, UInt64.toNat_ofNat']
    omega
  rw [same] at value
  have now : kcnTimeNow.toUInt64.toNat = 2 ^ 64 - 1 := by decide
  omega

/-- The server takes the message of a line off as it was. -/
theorem serverCut_message
    (line : Line) {type : Nat} (tabled : Tabled type)
    (rest : List UInt8) :
    serverCut (line.message type ++ rest) =
      .take (.add (line.add type)) rest := by
  have tables : kcnEqTypeMax < 256 := by decide
  have small : (line.add type).kmaType < 256 :=
    Nat.lt_trans tabled.2 tables
  have fits : (addBody (line.add type)).length ≤ kcnMsgMaxbodysiz := by
    rw [length_addBody]
    exact Nat.add_le_of_le_sub' (by decide) line.loc_le
  have body :
      (line.message type ++ rest).drop kcnMsgHdrsiz =
        addBody (line.add type) ++ rest :=
    rfl
  have long :
      ¬ (addBody (line.add type)).length < kcnMsgAddMinsiz := by
    rw [length_addBody]
    exact Nat.not_lt.mpr (Nat.le_add_right _ _)
  have accepted :
      headerVerdict (line.message type ++ rest) = .accept {
        kmhVersion := kcnMsgVersion
        kmhType := KcnMsgType.add.code
        kmhLen := (addBody (line.add type)).length
      } :=
    headerVerdict_frame .add fits rest
  have other : ¬ KcnMsgType.add.code = KcnMsgType.query.code := by
    decide
  rw [serverCut_accepted accepted, body, if_neg other, if_pos rfl,
    if_neg long, addOf_addBody small, List.drop_left]

end Line

/-! ### What is handled on an open connection is stored -/

/-- The sample that a message with a time of its own asks to store. -/
def given (index : Fin (kcnEqTypeMax - 1)) :
    ServerFrame → Option Sample
  | .query _ => none
  | .add kma =>
      if kma.kmaTime ≠ kcnTimeNow.toUInt64 ∧
          type2index kma.kmaType = some index then
        some (kma.record kma.kmaTime.toInt64).sample
      else
        none

namespace Service

variable
  {samples : Fin (kcnEqTypeMax - 1) → List Sample}
  {service service' : Service} {acts : List DaemonAct}
  {act : DaemonAct} {index : Fin (kcnEqTypeMax - 1)}

/-- A message after which the connection stays open was accepted. -/
theorem Serves.given_added
    {handling : Handling} {message : ServerFrame}
    {error : Option Errno}
    (serves :
      service.Serves handling.tid handling.clock message error service')
    (stays : error = none ∨ error = some Errno.eagain)
    (index : Fin (kcnEqTypeMax - 1)) :
    ((given index message).toList).Sublist
      (DaemonAct.added index
        (.handles handling (some message) error)) := by
  cases serves with
  | malformed =>
      exact List.nil_sublist _
  | query kmq index answer _ _ =>
      exact List.nil_sublist _
  | timeless kma failure timeEq =>
      by_cases own : kma.kmaTime ≠ kcnTimeNow.toUInt64
      · rw [Worker.timeOf, if_pos own] at timeEq
        cases timeEq
      · rw [given, if_neg (fun both => own both.1)]
        exact List.nil_sublist _
  | add kma time stored samples answer timeEq found responds =>
      by_cases own :
          kma.kmaTime ≠ kcnTimeNow.toUInt64 ∧
            type2index kma.kmaType = some index
      · rw [Worker.timeOf, if_pos own.1] at timeEq
        cases timeEq
        rw [Samples.respond] at responds
        split at responds
        · cases responds
          rcases stays with none | again
          · cases none
          · cases again
        · cases responds
          have timeEq :
              Worker.timeOf handling.clock kma =
                .ok kma.kmaTime.toInt64 :=
            if_pos own.1
          rw [given, if_pos own]
          simp only [DaemonAct.added, timeEq, own.2, ↓reduceIte,
            Option.toList_some]
          exact List.Sublist.refl _
      · rw [given, if_neg own]
        exact List.nil_sublist _

/-- What was handled on an open connection is among what was added. -/
def Accepted (acts : List DaemonAct) (service : Service) : Prop :=
  ∀ tid incoming, service.conns tid = some incoming →
    ∀ bytes messages,
      DaemonAct.session tid acts = some (bytes, messages) →
      ∀ index,
        (messages.filterMap (given index)).Sublist
          (acts.flatMap (DaemonAct.added index))

/-- Where nothing more is handled, all of it stays added. -/
theorem Accepted.same
    (accepted : Accepted acts service) {tid : Nat} {incoming : Incoming}
    (conns : service.conns tid = some incoming)
    {bytes : List UInt8} {messages : List ServerFrame}
    (session :
      DaemonAct.session tid (acts ++ [act]) = some (bytes, messages))
    (unchanged :
      DaemonAct.follow tid (DaemonAct.session tid acts) act =
        DaemonAct.session tid acts)
    (index : Fin (kcnEqTypeMax - 1)) :
    (messages.filterMap (given index)).Sublist
      ((acts ++ [act]).flatMap (DaemonAct.added index)) := by
  rw [DaemonAct.session_snoc, unchanged] at session
  rw [List.flatMap_append]
  exact (accepted tid incoming conns bytes messages session index).trans
    (List.sublist_append_left _ _)

/-- Every act keeps what is handled among what is added. -/
theorem Takes.accepted
    (takes : service.Takes act service')
    (accepted : Accepted acts service) :
    Accepted (acts ++ [act]) service' := by
  intro tid incoming conns bytes messages session index
  cases takes with
  | opens done =>
      exact accepted.same conns session rfl index
  | accepts other sent memory =>
      by_cases own : other = tid
      · rw [DaemonAct.session_snoc, DaemonAct.follow, if_pos own]
          at session
        cases session
        exact List.nil_sublist _
      · simp only [connect, Function.update_of_ne (Ne.symm own)] at conns
        exact accepted.same conns session (if_neg own) index
  | reads other env error arrived new coming before _ =>
      by_cases own : other = tid
      · subst own
        exact accepted.same before session rfl index
      · simp only [connect, Function.update_of_ne (Ne.symm own)] at conns
        exact accepted.same conns session rfl index
  | waits handling conn _ _ =>
      exact accepted.same conns session rfl index
  | refuses handling conn error _ _ =>
      by_cases own : handling.tid = tid
      · subst own
        simp only [connect, Function.update_self] at conns
        cases conns
      · simp only [connect, Function.update_of_ne (Ne.symm own)] at conns
        exact accepted.same conns session rfl index
  | serves handling conn message rest error service₁ before cut serves =>
      by_cases own : handling.tid = tid
      · subst own
        simp only [connect, Function.update_self, leftAfter] at conns
        split at conns
        · rename_i stays
          rw [DaemonAct.session_snoc, DaemonAct.follow, if_pos rfl]
            at session
          obtain ⟨⟨sent, earlier⟩, sessionEq, both⟩ :=
            Option.map_eq_some_iff.mp session
          cases both
          have kept :=
            accepted handling.tid conn before bytes earlier sessionEq index
          rw [List.filterMap_append, List.flatMap_append,
            List.flatMap_singleton]
          apply kept.append
          have last := serves.given_added stays index
          cases given index message <;> exact last
        · cases conns
      · simp only [connect, Function.update_of_ne (Ne.symm own)] at conns
        rw [serves.conns_eq] at conns
        exact accepted.same conns session (if_neg own) index
  | restart =>
      cases conns

theorem accepted_run
    (run : Run Takes (.start samples) acts service) :
    Accepted acts service := by
  have start : Accepted [] (.start samples) := by
    intro tid incoming conns
    cases conns
  have step :
      ∀ acts (service : Service) act service',
        Accepted acts service → service.Takes act service' →
        Accepted (acts ++ [act]) service' :=
    fun _ _ _ _ accepted takes => takes.accepted accepted
  exact run.invariant start step

end Service

/-! ### The lines of a file -/

namespace Daemon

/--
The first `count` lines of a file are handled and stored, and the others are in
the buffer of the connection or still to be read.
-/
structure Loaded
    (d : Daemon) (type : Nat) (index : Fin (kcnEqTypeMax - 1))
    (lines : List Line) (conn : KcndbFile)
    (messages : List ServerFrame) (count : Nat) (stored : List Sample) :
    Prop where
  handled :
    messages =
      (lines.take count).map fun line => .add (line.add type)
  coming :
    conn.kb.after ++ conn.content.drop conn.off =
      ((lines.drop count).map (Line.message type)).flatten
  stores : (d.db index).Stores stored
  inOrder : ((lines.take count).map Line.sample).Sublist stored

/--
What is handled next on the connection of a worker is this line.  It is stored,
or it is older than the last sample and ends the connection.
-/
def TakesLine
    (d : Daemon) (tid type : Nat) (index : Fin (kcnEqTypeMax - 1))
    (stored : List Sample) (next : Option Line) : Prop :=
  ∀ handling message error d',
    handling.tid = tid →
    Guarded Step Favoured d (.handles handling (some message) error) d' →
    ∃ line, next = some line ∧ message = .add (line.add type) ∧
      if Samples.lastTime stored > line.sample.time then
        error = some Errno.erange ∧ d'.conns tid = none ∧
          (d'.db index).Stores stored
      else
        error = none ∧ (d'.db index).Stores (stored ++ [line.sample])

variable
  {d : Daemon} {service : Service} {acts : List DaemonAct}
  {samples : Fin (kcnEqTypeMax - 1) → List Sample}
  {tid type : Nat} {index : Fin (kcnEqTypeMax - 1)}
  {lines : List Line} {conn : KcndbFile} {messages : List ServerFrame}

/-- The lines of a table are given as they are. -/
theorem filterMap_given
    (found : type2index type = some index) (lines : List Line) :
    (lines.map fun line => ServerFrame.add (line.add type)).filterMap
        (given index) =
      lines.map Line.sample := by
  induction lines with
  | nil =>
      rfl
  | cons line later inductionHypothesis =>
      have own : given index (.add (line.add type)) = some line.sample :=
        if_pos ⟨line.time_ne_now, found⟩
      rw [List.map_cons, List.filterMap_cons_some own,
        inductionHypothesis, List.map_cons]

/-- What an open connection that carries a file shows. -/
theorem Shows.loaded
    (shows : d.Shows service)
    (followed : Service.Followed samples acts service)
    (accepted : Service.Accepted acts service)
    (tabled : Tabled type) (found : type2index type = some index)
    (served : d.conns tid = some conn)
    (session :
      DaemonAct.session tid acts =
        some ((lines.map (Line.message type)).flatten, messages)) :
    ∃ count,
      d.Loaded type index lines conn messages count
        (service.samples index) := by
  obtain ⟨incoming, conns, carries⟩ := shows.conn served
  obtain ⟨bytes, taken, same, takes⟩ :=
    followed.follows tid incoming conns
  cases session.symm.trans same
  obtain ⟨count, handled, coming⟩ :=
    takes.of_items fun line rest => line.serverCut_message tabled rest
  refine ⟨count, handled, ?_, (shows.tables index).stores, ?_⟩
  · rw [carries.arrived_eq, carries.coming_eq, coming]
  · have added := accepted tid incoming conns _ _ session index
    rw [handled, filterMap_given found] at added
    rw [followed.samples_eq]
    exact added.trans (List.sublist_append_right _ _)

/-- What a service does with a line. -/
theorem Serves.of_line
    {service' : Service} {clock : Except Errno Int64} {line : Line}
    {error : Option Errno}
    (serves :
      service.Serves tid clock (.add (line.add type)) error service')
    (found : type2index type = some index) :
    if Samples.lastTime (service.samples index) > line.sample.time then
      error = some Errno.erange ∧
        service'.samples index = service.samples index
    else
      error = none ∧
        service'.samples index =
          service.samples index ++ [line.sample] := by
  have own (clock : Except Errno Int64) :
      Worker.timeOf clock (line.add type) =
        .ok line.time.value.toInt64 :=
    if_pos line.time_ne_now
  cases serves with
  | timeless _ error timeEq =>
      cases (own clock).symm.trans timeEq
  | add _ time stored after answer timeEq found' responds =>
      cases (own clock).symm.trans timeEq
      obtain rfl := Option.some.inj (found.symm.trans found')
      rw [Samples.respond] at responds
      split at responds
      · rename_i older
        cases responds
        have older :
            Samples.lastTime (service.samples index) >
              line.sample.time :=
          older
        rw [if_pos older]
        exact ⟨rfl, Function.update_self _ _ _⟩
      · rename_i newer
        cases responds
        have newer :
            ¬ Samples.lastTime (service.samples index) >
              line.sample.time :=
          newer
        rw [if_neg newer]
        exact ⟨rfl, Function.update_self _ _ _⟩

/-- The next message on a connection that carries a file is a line. -/
theorem Shows.takesLine
    {count : Nat}
    (shows : d.Shows service)
    (tabled : Tabled type) (found : type2index type = some index)
    (served : d.conns tid = some conn)
    (loaded :
      d.Loaded type index lines conn messages count
        (service.samples index)) :
    d.TakesLine tid type index (service.samples index) lines[count]? := by
  rintro handling message error d' rfl guarded
  obtain ⟨service', takes, shows'⟩ := shows.step guarded
  obtain ⟨incoming, conns, carries⟩ := shows.conn served
  cases takes with
  | serves _ conn' _ rest _ service₁ before cut serves =>
      obtain rfl := Option.some.inj (conns.symm.trans before)
      have whole := serverFramer.take_append _ _ _ incoming.coming cut
      have coming := loaded.coming
      rw [carries.arrived_eq, carries.coming_eq] at coming
      rw [coming] at whole
      cases left : lines.drop count with
      | nil =>
          rw [left] at whole
          have shorter := serverFramer.shrinks _ _ _ whole
          exact absurd shorter (Nat.not_lt_zero _)
      | cons line later =>
          rw [left, List.map_cons, List.flatten_cons] at whole
          obtain ⟨rfl, _⟩ :=
            Cut.take.inj
              ((line.serverCut_message tabled _).symm.trans whole)
          have next : lines[count]? = some line := by
            have first := congrArg List.head? left
            rwa [List.head?_drop] at first
          refine ⟨line, next, rfl, ?_⟩
          have outcome := Serves.of_line serves found
          have stores := (shows'.tables index).stores
          have same :
              (service₁.connect handling.tid
                  (leftAfter error
                    { arrived := rest, coming := incoming.coming })
                ).samples index = service₁.samples index :=
            rfl
          rw [same] at stores
          split at outcome
          · rename_i older
            obtain ⟨rfl, samplesEq⟩ := outcome
            rw [samplesEq] at stores
            rw [if_pos older]
            refine ⟨rfl, ?_, stores⟩
            have gone := shows'.conns handling.tid
            simp only [Service.connect, Function.update_self] at gone
            cases shape : d'.conns handling.tid with
            | none =>
                rfl
            | some conn =>
                rw [shape] at gone
                cases gone
          · rename_i newer
            obtain ⟨rfl, samplesEq⟩ := outcome
            rw [samplesEq] at stores
            rw [if_neg newer]
            exact ⟨rfl, stores⟩

/-- A blank, and the locator `a` at the end of a line. -/
theorem oneLine_blank : isblank 0x20 = true :=
  rfl

theorem oneLine_nonempty : [(0x61 : UInt8)] ≠ [] :=
  List.cons_ne_nil _ _

theorem oneLine_graph : ∀ c ∈ [(0x61 : UInt8)], isgraph c = true :=
  List.forall_mem_singleton.mpr rfl

theorem oneLine_le : [(0x61 : UInt8)].length ≤ kcnMsgMaxlocsiz := by
  decide

/-- The file `1 1 a` with a newline. -/
def oneLine : TextFile where
  lines := [{
    time := KcndbctlFile.one
    val := KcndbctlFile.one
    loc := [0x61]
    first := 0x20
    second := 0x20
    first_blank := oneLine_blank
    second_blank := oneLine_blank
    loc_nonempty := oneLine_nonempty
    loc_graph := oneLine_graph
    loc_le := oneLine_le
  }]
  last := none

theorem loadable_oneLine : oneLine.Loadable where
  nonempty := by decide
  terminated := rfl
  short := List.forall_mem_singleton.mpr (by decide)

/-- A worker opens a table and serves `kcndbctl` that loads the file. -/
def loadsOne : List Asked :=
  [.opens 1 (Request.create 0),
    .accepts 0 (oneLine.lines.map (Line.message 1)).flatten
      KcndbServer.zeros,
    .reads 0 { errno := 0, trace := [.read .full] },
    round (.lock none :: (Request.newLoc ++ [.seek none, .write .full]))]

/-- One message was handled, and the connection is open. -/
def showsLoaded (acts : List DaemonAct) (d : Daemon) : Bool :=
  (DaemonAct.session 0 acts).any
      (fun session =>
        session.1 == (oneLine.lines.map (Line.message 1)).flatten &&
          session.2.length == 1) &&
    (d.conns 0).isSome

end Daemon

end Kcn
