import Kcn.Daemon

namespace Kcn

open Program Bytes KcnBuf Framing

/-!
# The replies of the daemon

The daemon is the service: each of its acts, as long as nothing goes wrong
around it, is one of the service on the samples that the tables store and on
the bytes that have arrived.
-/

/-! ### What a call returns -/

namespace Table

/-- A call leaves in `errno` what it returns. -/
theorem exec_errno
    {s s' : Table} {tid : Nat} {call : Call} {env env' : Env}
    {result : Return}
    (ran : s.exec tid call env = .ok (result, env', s')) :
    env'.errno = result.errno := by
  unfold exec at ran
  cases call with
  | tableOpen loc table =>
      simp only at ran
      split at ran
      · obtain ⟨rfl, rfl, _⟩ := Prod.mk.inj (Except.ok.inj ran)
        rfl
      · cases ran
  | recordAdd kdr =>
      simp only at ran
      split at ran
      · split at ran
        · obtain ⟨rfl, rfl, _⟩ := Prod.mk.inj (Except.ok.inj ran)
          rfl
        · cases ran
      · cases ran
  | search ke maxnlocs =>
      simp only at ran
      split at ran
      · split at ran
        · obtain ⟨rfl, rfl, _⟩ := Prod.mk.inj (Except.ok.inj ran)
          rfl
        · cases ran
      · cases ran

end Table

/-- What holds of all values holds after both sides changed at a key. -/
theorem related_update
    {κ β γ : Type} [DecidableEq κ] {related : β → γ → Prop}
    {f : κ → β} {g : κ → γ} {value : β} {value' : γ}
    (before : ∀ key, related (f key) (g key)) (key : κ)
    (new : related value value') (other : κ) :
    related (Function.update f key value other)
      (Function.update g key value' other) := by
  by_cases same : other = key
  · rw [same, Function.update_self, Function.update_self]
    exact new
  · rw [Function.update_of_ne same, Function.update_of_ne same]
    exact before other

/-! ### What a worker does with a message -/

/-- The bytes of a reply, from the records that were found. -/
theorem Answer.bytes_eq
    (error : Option Errno) (kdrs : List KcndbDbRecord) :
    Answer.bytes
        { error := error, found := kdrs.map KcndbDbRecord.sample } =
      Worker.resultFrames kdrs ++
        responseFrame (finalResponse (UInt8.ofNat (error.getD 0))) := by
  unfold Answer.bytes resultStream Worker.resultFrames
  rw [List.map_map, List.map_map]
  rfl

namespace Worker

variable
  {worker worker' : Worker} {service : Service}
  {type : Nat} {call : Call} {result : Return}

/-- What a worker works on is what the service has. -/
structure Sees (worker : Worker) (service : Service) : Prop where
  tables : ∀ index,
    (worker.db index).Answering (service.samples index)
  sent :
    worker.sent =
      ((service.replies worker.tid).map Answer.bytes).flatten

/-- A call of a worker as a complete one. -/
def done (worker : Worker) (call : Call) (result : Return) : Done where
  tid := worker.tid
  call := call
  errno := worker.env.errno
  trace := worker.env.trace
  result := result

/-- A call that was answered exactly is a step of its table. -/
theorem Called.step
    (called : worker.Called type call result worker')
    (answered : worker'.env.trace = [])
    (fits : Daemon.Fits worker'.db) :
    ∃ index s env, type2index type = some index ∧
      (worker.db index).Step (worker.done call result) s ∧
      worker' = worker.called index s env := by
  obtain ⟨index, s, env, found, ran, rfl⟩ := called.returns
  refine ⟨index, s, env, found, ?_, rfl⟩
  obtain ⟨locFits, tableFits⟩ := fits index
  simp only [Worker.called, Function.update_self] at locFits tableFits
  have envEq : env = { errno := result.errno, trace := [] } := by
    have errnoEq := Table.exec_errno ran
    have traceEq : env.trace = [] := answered
    rw [← errnoEq, ← traceEq]
  rw [envEq] at ran
  exact ⟨ran, locFits, tableFits⟩

@[simp] theorem responds_db (error : Errno) :
    (worker.responds error).db = worker.db := by
  unfold responds
  split <;> rfl

@[simp] theorem responds_env (error : Errno) :
    (worker.responds error).env = worker.env := by
  unfold responds
  split <;> rfl

/-- One more reply is sent. -/
theorem Sees.responds
    (sees : worker.Sees service) (closes : worker.closes = true)
    (error : Errno) (frames : List UInt8) (answer : Answer)
    (bytesEq : answer.bytes =
      frames ++ responseFrame (finalResponse (UInt8.ofNat error))) :
    ((worker.sends frames).responds error).Sees
      (service.reply worker.tid answer) := by
  have respondsEq :
      (worker.sends frames).responds error =
        worker.sends answer.bytes := by
    have closes' : (worker.sends frames).closes = true := closes
    rw [Worker.responds, if_pos closes', bytesEq, Worker.sends,
      Worker.sends, Worker.sends, List.append_assoc]
  rw [respondsEq]
  refine ⟨sees.tables, ?_⟩
  simp only [sends, Service.reply, Function.update_self,
    List.map_append, List.map_singleton, List.flatten_append,
    List.flatten_singleton]
  rw [sees.sent]

/-- The frames of an answered search, none of which was refused. -/
theorem taken_willing
    (willing : worker.env.trace.Willing) (result : Return) :
    taken worker.env.trace result = result.delivered :=
  if_neg fun member => willing _ member rfl

/-- A query is answered as the samples answer it. -/
theorem Sees.query
    (sees : worker.Sees service) {kmq : KcnMsgQuery}
    (called :
      worker.Called kmq.kmqEq.keType
        (.search kmq.kmqEq kmq.kmqMaxcount.toNat) result worker')
    (answered : worker'.env.trace = [])
    (fits : Daemon.Fits worker'.db)
    (favourable : worker.env.trace.Favourable)
    (closes : worker.closes = true) (known : kmq.kmqEq.Known) :
    ∃ service',
      service.Serves worker.tid worker.clock (.query (some kmq)) none
          service' ∧
        ((worker'.sends
              (resultFrames (taken worker.env.trace result))).responds
            ((KcndbServer.failure result).getD 0)).Sees service' := by
  obtain ⟨index, s, env, found, step, rfl⟩ :=
    called.step answered fits
  have favoured :
      (worker.db index).Favoured (worker.done
        (.search kmq.kmqEq kmq.kmqMaxcount.toNat) result).toRequest := by
    refine ⟨favourable, fun kdr asked => (by cases asked), ?_⟩
    intro ke maxnlocs same
    cases same
    exact known
  obtain ⟨responds, answering⟩ :=
    (sees.tables index).search step rfl favoured
  have sees' : (worker.called index s env).Sees service := by
    refine ⟨?_, sees.sent⟩
    have tables := related_update sees.tables index answering
    rw [Function.update_eq_self] at tables
    exact tables
  rw [taken_willing favourable.willing]
  refine ⟨_, .query kmq index _ found responds, ?_⟩
  exact sees'.responds closes _ _ _ (Answer.bytes_eq _ _)

/-- A record is added as the samples take it. -/
theorem Sees.add
    (sees : worker.Sees service) {kma : KcnMsgAdd} {time : Int64}
    (timeEq : timeOf worker.clock kma = .ok time)
    (called :
      worker.Called kma.kmaType (.recordAdd (kma.record time)) result
        worker')
    (answered : worker'.env.trace = [])
    (fits : Daemon.Fits worker'.db)
    (favourable : worker.env.trace.Favourable)
    (admits : Daemon.Admits worker.db (.add kma))
    (short : kma.kmaLoc.length ≤ kcnMsgMaxlocsiz) :
    ∃ service',
      service.Serves worker.tid worker.clock (.add kma)
          (KcndbServer.failure result) service' ∧
        worker'.Sees service' := by
  obtain ⟨index, s, env, found, step, rfl⟩ :=
    called.step answered fits
  have favoured :
      (worker.db index).Favoured (worker.done
        (.recordAdd (kma.record time)) result).toRequest := by
    refine ⟨favourable, ?_, fun ke maxnlocs same => (by cases same)⟩
    intro kdr asked
    obtain rfl := Option.mem_some_iff.mp asked
    exact ⟨short, admits index found⟩
  obtain ⟨samples, responds, answering⟩ :=
    (sees.tables index).add step rfl favoured
  exact ⟨_, .add kma time index samples _ timeEq found responds,
    related_update sees.tables index answering, sees.sent⟩

/-- A message is handled as the service serves it. -/
theorem Handles.serves
    {message : ServerFrame} {error : Option Errno}
    (handles : worker.Handles message error worker')
    (sees : worker.Sees service)
    (answered : worker'.env.trace = [])
    (fits : Daemon.Fits worker'.db)
    (favourable : worker.env.trace.Favourable)
    (closes : worker.closes = true)
    (admits : Daemon.Admits worker.db message)
    (short : ∀ kma, message = .add kma →
      kma.kmaLoc.length ≤ kcnMsgMaxlocsiz) :
    ∃ service',
      service.Serves worker.tid worker.clock message error service' ∧
        worker'.Sees service' := by
  cases handles with
  | malformed =>
      have same : worker.sends [] = worker := by
        rw [sends, List.append_nil]
      have sees' :=
        sees.responds closes Errno.einval []
          { error := some Errno.einval, found := [] } rfl
      rw [same] at sees'
      exact ⟨_, .malformed, sees'⟩
  | query kmq result worker₁ called =>
      rw [responds_db] at fits
      rw [responds_env] at answered
      exact sees.query called answered fits favourable closes admits
  | timeless kma _ timeEq =>
      exact ⟨service, .timeless kma _ timeEq, sees⟩
  | add kma time result _ timeEq called =>
      exact sees.add timeEq called answered fits favourable admits
        (short kma rfl)

/-- A worker stays the same while it handles a message. -/
theorem Handles.tid_eq
    {message : ServerFrame} {error : Option Errno}
    (handles : worker.Handles message error worker') :
    worker'.tid = worker.tid := by
  have same :
      ∀ {type call result worker₁},
        worker.Called type call result worker₁ →
        worker₁.tid = worker.tid := by
    intro type call result worker₁ called
    obtain ⟨index, s, env, _, _, rfl⟩ := called.returns
    rfl
  have responds (worker₁ : Worker) (error : Errno) :
      (worker₁.responds error).tid = worker₁.tid := by
    unfold Worker.responds
    split <;> rfl
  cases handles with
  | malformed =>
      exact responds _ _
  | query kmq result worker₁ called =>
      have asked := same called
      exact (responds _ _).trans asked
  | timeless kma _ timeEq =>
      rfl
  | add kma time result _ timeEq called =>
      exact same called

end Worker

namespace Service.Serves

variable
  {service service' : Service} {tid : Nat} {clock : Except Errno Int64}
  {message : ServerFrame} {error : Option Errno}

/-- A message does not change the connections. -/
theorem conns_eq
    (serves : service.Serves tid clock message error service') :
    service'.conns = service.conns := by
  cases serves <;> rfl

/-- Nobody else is sent a reply. -/
theorem others
    (serves : service.Serves tid clock message error service')
    {other : Nat} (foreign : other ≠ tid) :
    service'.replies other = service.replies other := by
  cases serves with
  | malformed =>
      exact Function.update_of_ne foreign _ _
  | query kmq index answer _ _ =>
      exact Function.update_of_ne foreign _ _
  | timeless kma error _ =>
      rfl
  | add kma time index samples answer _ _ _ =>
      rfl

end Service.Serves

/-! ### Connections -/

/-- The locator of an add message fits into a message. -/
theorem length_kmaLoc
    {bytes rest : List UInt8} {kma : KcnMsgAdd}
    (takes : serverCut bytes = .take (.add kma) rest) :
    kma.kmaLoc.length ≤ kcnMsgMaxlocsiz := by
  obtain ⟨kmh, accepted⟩ := accepted_of_take takes
  have fits := (accepted_of_verdict accepted).fits
  rw [serverCut_accepted accepted] at takes
  split at takes
  · split at takes <;> cases takes
  · split at takes
    · split at takes
      · cases takes
      · cases takes
        have limit : kcnMsgMaxbodysiz - kcnMsgAddMinsiz = kcnMsgMaxlocsiz :=
          rfl
        rw [addOf, length_slice]
        omega
    · cases takes

/-- What is left of related values is related. -/
theorem rel_leftAfter
    {α β : Type} {related : α → β → Prop} {a : α} {b : β}
    (error : Option Errno) (both : related a b) :
    Option.Rel related (leftAfter error a) (leftAfter error b) := by
  unfold leftAfter
  split
  · exact .some both
  · exact .none

/-- The bytes that a read leaves are those behind the ones it got. -/
theorem KcndbFile.Grown.rest
    {ctx ctx' : FileCtx} {taken : Trace} {new : List UInt8}
    (grown : KcndbFile.Grown ctx taken new ctx') :
    ctx.file.content.drop ctx.file.off =
      new ++ ctx'.file.content.drop ctx'.file.off := by
  have first :
      new = (ctx.file.content.drop ctx.file.off).take new.length :=
    grown.new_eq
  have whole :=
    List.take_append_drop new.length
      (ctx.file.content.drop ctx.file.off)
  rw [← first, List.drop_drop] at whole
  rw [grown.content_eq, grown.off_eq, whole]

namespace Daemon

variable {d d' : Daemon} {service : Service}

/-- The bytes of a connection, as the service has them. -/
structure Carries (conn : KcndbFile) (incoming : Incoming) : Prop where
  before_eq : conn.kb.before = []
  arrived_eq : conn.kb.after = incoming.arrived
  coming_eq : conn.content.drop conn.off = incoming.coming

/-- How the daemon is between acts. -/
structure Shows (d : Daemon) (service : Service) : Prop where
  tables : ∀ index, (d.db index).Answering (service.samples index)
  conns : ∀ tid, Option.Rel Carries (d.conns tid) (service.conns tid)
  sent : ∀ tid,
    d.sent tid = ((service.replies tid).map Answer.bytes).flatten

theorem Carries.holds
    {conn : KcndbFile} {incoming : Incoming}
    (carries : Carries conn incoming) :
    conn.kb.Holds conn.kb.size conn.kb.sp [] incoming.arrived := by
  have holds := holds_self conn.kb
  rw [carries.before_eq, carries.arrived_eq] at holds
  exact holds

/-- A connection that a worker serves is one of the service. -/
theorem Shows.conn
    (shows : d.Shows service) {tid : Nat} {conn : KcndbFile}
    (served : d.conns tid = some conn) :
    ∃ incoming, service.conns tid = some incoming ∧
      Carries conn incoming := by
  have related := shows.conns tid
  rw [served] at related
  cases other : service.conns tid with
  | none =>
      rw [other] at related
      cases related
  | some incoming =>
      rw [other] at related
      cases related with
      | some carries =>
          exact ⟨incoming, rfl, carries⟩

/-- A new connection has nothing in its buffer. -/
theorem carries_accepted
    (bytes : List UInt8) (memory : KcndbServer.InputBlock) :
    Carries
      { content := bytes, off := 0, kb := KcnBuf.new memory.val }
      { arrived := [], coming := bytes } := by
  have holds := holds_new memory.val
  exact ⟨holds.before_eq, holds.after_eq, rfl⟩

/-- A read lets the next bytes arrive. -/
theorem Carries.read
    {conn : KcndbFile} {incoming : Incoming} {env : Env} {error : Errno}
    {ctx : FileCtx}
    (carries : Carries conn incoming)
    (ran :
      KcndbFile.bufRead { file := conn, env := env } = .ok (error, ctx)) :
    ∃ new coming, incoming.coming = new ++ coming ∧
      (error = 0 → new ≠ []) ∧
      Carries ctx.file
        { arrived := incoming.arrived ++ new, coming := coming } := by
  have grows {taken : Trace} {new : List UInt8}
      (grown :
        KcndbFile.Grown { file := conn, env := env } taken new ctx) :
      incoming.coming = new ++ ctx.file.content.drop ctx.file.off ∧
        Carries ctx.file {
          arrived := incoming.arrived ++ new
          coming := ctx.file.content.drop ctx.file.off
        } := by
    refine ⟨carries.coming_eq.symm.trans grown.rest, ?_, ?_, rfl⟩
    · exact grown.before_eq.trans carries.before_eq
    · rw [grown.after_eq, carries.arrived_eq]
  have outcome :
      wp KcndbFile.bufRead
        (fun error ctx' =>
          KcndbFile.BufReadResult { file := conn, env := env } ctx' error)
        (fun _ => True) { file := conn, env := env } :=
    KcndbFile.wp_bufRead trivial (fun _ => trivial)
      fun _ _ result _ => result
  cases wp_ok outcome ran with
  | failed taken error grown _ _ =>
      obtain ⟨comingEq, carries'⟩ := grows grown
      exact ⟨[], _, comingEq,
        fun success => absurd success error.errno_ne_zero, carries'⟩
  | ended taken grown _ _ =>
      obtain ⟨comingEq, carries'⟩ := grows grown
      exact ⟨[], _, comingEq, nofun, carries'⟩
  | got taken new grown _ some _ =>
      obtain ⟨comingEq, carries'⟩ := grows grown
      exact ⟨new, _, comingEq, fun _ => some, carries'⟩

/-- A round of a worker, as one of the service. -/
theorem Shows.handles
    (shows : d.Shows service) {handling : Handling}
    {error : Option Errno} {conn : KcndbFile} {ctx : ServerCtx Worker}
    (served : d.conns handling.tid = some conn)
    (ran :
      KcndbServer.recvStep Worker.calls (d.view handling conn) =
        .ok (error, ctx))
    (answered : ctx.served.world.env.trace = [])
    (fits : Fits ctx.served.world.db)
    (favoured :
      d.Favoured (.handles handling (headOf conn.kb.after) error)) :
    ∃ service',
      service.Takes (.handles handling (headOf conn.kb.after) error)
          service' ∧
      (d.after handling error ctx).Shows service' := by
  obtain ⟨favourable, closes, admits⟩ := favoured
  obtain ⟨incoming, taken, carries⟩ := shows.conn served
  have unmoved (kb : KcnBuf) (errno : Errno) (left : Option Errno)
      (conns : ∀ tid, Option.Rel Carries
        ((d.after handling left ((d.view handling conn).moved kb errno
          (d.view handling conn).served)).conns tid)
        (service.conns tid)) :
      (d.after handling left ((d.view handling conn).moved kb errno
        (d.view handling conn).served)).Shows service := by
    refine ⟨shows.tables, conns, fun tid => ?_⟩
    simp only [after, ServerCtx.moved, view, Function.update_eq_self]
    exact shows.sent tid
  have outcome :
      wp (KcndbServer.recvStep Worker.calls)
        (fun error ctx =>
          ctx.served.world.env.trace = [] →
          Fits ctx.served.world.db →
          ∃ service',
            service.Takes
                (.handles handling (headOf conn.kb.after) error)
                service' ∧
            (d.after handling error ctx).Shows service')
        (fun _ => True) (d.view handling conn) := by
    have holds :
        (d.view handling conn).conn.kb.Holds conn.kb.size conn.kb.sp []
          incoming.arrived := carries.holds
    have headEq : headOf conn.kb.after = headOf incoming.arrived :=
      congrArg headOf carries.arrived_eq
    refine KcndbServer.wp_recvStep holds ?_ ?_ ?_
    · intro waits kb holds' _ _
      rw [headEq, headOf, waits]
      refine ⟨service, .waits handling incoming taken waits, ?_⟩
      refine unmoved kb _ _ ?_
      have carries' :
          Carries { conn with kb := kb } incoming :=
        ⟨holds'.before_eq, holds'.after_eq, carries.coming_eq⟩
      have related :=
        related_update shows.conns handling.tid (.some carries')
      rw [← taken, Function.update_eq_self] at related
      exact related
    · intro failure refuses kb _ _ _
      rw [headEq, headOf, refuses]
      refine ⟨_, .refuses handling incoming failure taken refuses, ?_⟩
      have other := serverCut_refuse refuses
      refine ⟨shows.tables, ?_, ?_⟩
      · have closed :
            leftAfter (some failure)
                ((d.view handling conn).moved kb failure
                  (d.view handling conn).served).conn = none := by
          simp [leftAfter, other]
        simp only [after, closed]
        exact related_update shows.conns handling.tid .none
      · intro tid
        simp only [after, ServerCtx.moved, view, Function.update_eq_self]
        exact shows.sent tid
    · intro message rest takes
      have headEq : headOf conn.kb.after = some message := by
        rw [headEq, headOf, takes]
      have sees :
          (d.view handling conn).served.world.Sees service :=
        ⟨shows.tables, shows.sent handling.tid⟩
      have admitted : Admits d.db message := admits message headEq
      refine wp_imp (Worker.wp_handle message _) ?_
      intro result served' handles sp' kb errno holds' _ answered fits
      obtain ⟨service', serves, sees'⟩ :=
        handles.serves sees answered fits favourable closes admitted
          (fun kma same => length_kmaLoc (by rw [← same]; exact takes))
      rw [headEq]
      refine ⟨_, .serves handling incoming message rest result service'
        taken takes serves, ?_⟩
      have tidEq := handles.tid_eq
      refine ⟨sees'.tables, ?_, ?_⟩
      · have carries' :
            Carries { conn with kb := kb }
              { arrived := rest, coming := incoming.coming } :=
          ⟨holds'.before_eq, holds'.after_eq, carries.coming_eq⟩
        have related :=
          related_update shows.conns handling.tid
            (rel_leftAfter result carries')
        rw [← serves.conns_eq] at related
        exact related
      · intro tid
        by_cases own : tid = handling.tid
        · have sentEq := sees'.sent
          rw [tidEq] at sentEq
          rw [own]
          simp only [after, Function.update_self]
          exact sentEq
        · simp only [after, Function.update_of_ne own, Service.connect]
          rw [serves.others own]
          exact shows.sent tid
  exact wp_ok outcome ran answered fits

/-- Every act around which nothing goes wrong is one of the service. -/
theorem Shows.step
    (shows : d.Shows service) {act : DaemonAct}
    (guarded : Guarded Step Favoured d act d') :
    ∃ service', service.Takes act service' ∧ d'.Shows service' := by
  obtain ⟨step, favoured⟩ := guarded
  cases step with
  | opens done db loc table call opened =>
      obtain ⟨index, s', found, _, opened, rfl⟩ := opened
      have favourable : done.trace.Favourable := favoured
      have answering :=
        (shows.tables index).opens opened call favourable.clean
      have tables := related_update shows.tables index answering
      rw [Function.update_eq_self] at tables
      exact ⟨service, .opens done, tables, shows.conns, shows.sent⟩
  | accepts tid bytes memory =>
      have accepted := carries_accepted bytes memory
      exact ⟨_, .accepts tid bytes memory, shows.tables,
        related_update shows.conns tid (.some accepted), shows.sent⟩
  | reads tid env error conn ctx served ran =>
      obtain ⟨incoming, taken, carries⟩ := shows.conn served
      obtain ⟨new, coming, comingEq, some, carries'⟩ :=
        carries.read ran
      have split :
          service.conns tid =
            Option.some {
              arrived := incoming.arrived
              coming := new ++ coming
            } := by
        rw [taken, ← comingEq]
      exact ⟨_, .reads tid env error incoming.arrived new coming split some,
        shows.tables,
        related_update shows.conns tid (rel_leftAfter _ carries'),
        shows.sent⟩
  | handles handling error conn ctx served ran answered fits =>
      exact shows.handles served ran answered fits favoured
  | restart =>
      refine ⟨_, .restart, ?_, fun _ => .none, shows.sent⟩
      intro index
      obtain ⟨_, rfl, answering⟩ :=
        (shows.tables index).step .restart
      exact answering

section Runs

variable
  {files : Fin (kcnEqTypeMax - 1) → List UInt8 × List UInt8}
  {samples : Fin (kcnEqTypeMax - 1) → List Sample}
  {acts : List DaemonAct}

/-- After a run the daemon shows the service. -/
theorem shows_run
    (disk : ∀ index, ((onDisk files).db index).OnDisk)
    (stores : ∀ index,
      ((onDisk files).db index).Stores (samples index))
    (run : Run (Guarded Step Favoured) (onDisk files) acts d) :
    ∃ service, Run Service.Takes (.start samples) acts service ∧
      d.Shows service := by
  have start : (onDisk files).Shows (.start samples) :=
    ⟨fun index => Table.answering_onDisk (disk index) (stores index),
      fun _ => .none, fun _ => rfl⟩
  have matched :
      ∀ (d : Daemon) service act d',
        d.Shows service → Guarded Step Favoured d act d' →
        ∃ service', service.Takes act service' ∧ d'.Shows service' :=
    fun _ _ _ _ shows guarded => shows.step guarded
  exact run.simulates start matched

/--
The daemon is what the service is: in any run of opens, connections, reads and
rounds of any workers, with restarts, around which nothing goes wrong, what
arrives is handled message by message, what is stored are the samples of the
service, and what is sent are its replies.
-/
theorem serves_samples
    (disk : ∀ index, ((onDisk files).db index).OnDisk)
    (stores : ∀ index,
      ((onDisk files).db index).Stores (samples index))
    (run : Run (Guarded Step Favoured) (onDisk files) acts d) :
    ∃ service, Run Service.Takes (.start samples) acts service ∧
      (∀ index, (d.db index).Stores (service.samples index)) ∧
      ∀ tid,
        d.sent tid =
          ((service.replies tid).map Answer.bytes).flatten := by
  obtain ⟨service, run', shows⟩ := shows_run disk stores run
  exact ⟨service, run', fun index => (shows.tables index).stores,
    shows.sent⟩

end Runs

/-! ### Performed acts -/

/-- An act that is asked for. -/
inductive Asked where
  | opens (type : Nat) (request : Request)
  | accepts (tid : Nat) (bytes : List UInt8)
      (memory : KcndbServer.InputBlock)
  | reads (tid : Nat) (env : Env)
  | handles (handling : Handling)
  | restart

instance (db : Database) : Decidable (Fits db) :=
  inferInstanceAs (Decidable (∀ _, _ ∧ _))

/-- Perform an act, if that makes a step. -/
def perform (d : Daemon) : Asked → Option (DaemonAct × Daemon)
  | .opens type request =>
      match request.call, d.db.perform (type, request) with
      | .tableOpen _ _, some (done, db) =>
          some (.opens done, { d with db := db })
      | _, _ => none
  | .accepts tid bytes memory =>
      match d.conns tid with
      | none =>
          some
            (.accepts tid bytes memory,
              { d with
                conns := Function.update d.conns tid
                  (some {
                    content := bytes, off := 0
                    kb := KcnBuf.new memory.val
                  }) })
      | some _ => none
  | .reads tid env =>
      match d.conns tid with
      | some conn =>
          match KcndbFile.bufRead { file := conn, env := env } with
          | .ok (error, ctx) =>
              some
                (.reads tid env error,
                  { d with
                    conns := Function.update d.conns tid
                      (leftAfter (readError error) ctx.file) })
          | .error _ => none
      | none => none
  | .handles handling =>
      match d.conns handling.tid with
      | some conn =>
          match
            KcndbServer.recvStep Worker.calls (d.view handling conn) with
          | .ok (error, ctx) =>
              if ctx.served.world.env.trace = [] ∧
                  Fits ctx.served.world.db then
                some
                  (.handles handling (headOf conn.kb.after) error,
                    d.after handling error ctx)
              else
                none
          | .error _ => none
      | none => none
  | .restart => some (.restart, d.restarted)

/-- What tells that a message is admitted. -/
def checkAdmits (db : Database) : ServerFrame → Bool
  | .query none => true
  | .query (some kmq) => decide kmq.kmqEq.Known
  | .add kma =>
      match type2index kma.kmaType with
      | some index => decide (Table.LeadsAtOnce (db index).loc kma.kmaLoc)
      | none => true

/-- What tells that an act is favoured. -/
def checkFavoured (d : Daemon) : Asked → Bool
  | .opens _ request => decide request.trace.Favourable
  | .handles handling =>
      decide handling.trace.Favourable && handling.closes &&
        match d.conns handling.tid with
        | some conn =>
            (headOf conn.kb.after).all (checkAdmits d.db)
        | none => true
  | .accepts _ _ _ | .reads _ _ | .restart => true

theorem admits_of_check
    {db : Database} {message : ServerFrame}
    (passes : checkAdmits db message = true) :
    Admits db message := by
  cases message with
  | query kmq =>
      cases kmq with
      | none =>
          trivial
      | some kmq =>
          have known : kmq.kmqEq.Known := of_decide_eq_true passes
          exact known
  | add kma =>
      intro index found
      simp only [checkAdmits, found, decide_eq_true_eq] at passes
      exact passes.leads

/-- What is performed after the check is a favoured step. -/
theorem guarded_perform
    (d : Daemon) (asked : Asked) (act : DaemonAct) (d' : Daemon)
    (performed : performIf checkFavoured perform d asked =
      some (act, d')) :
    Guarded Step Favoured d act d' := by
  unfold performIf at performed
  split at performed
  · rename_i passes
    cases asked with
    | opens type request =>
        simp only [perform] at performed
        split at performed
        · rename_i loc table done db call ran
          obtain ⟨rfl, rfl⟩ := Prod.mk.inj (Option.some.inj performed)
          obtain ⟨step, _, same⟩ := Database.step_perform _ _ _ _ ran
          have same : done.toRequest = request := same
          rw [← same] at call
          refine ⟨.opens done db loc table call step, ?_⟩
          have favourable : request.trace.Favourable :=
            of_decide_eq_true passes
          rw [← same] at favourable
          exact favourable
        · cases performed
    | accepts tid bytes memory =>
        simp only [perform] at performed
        split at performed
        · rename_i vacant
          obtain ⟨rfl, rfl⟩ := Prod.mk.inj (Option.some.inj performed)
          exact ⟨.accepts tid bytes memory vacant, trivial⟩
        · cases performed
    | reads tid env =>
        simp only [perform] at performed
        split at performed
        · rename_i conn served
          split at performed
          · rename_i error ctx ran
            obtain ⟨rfl, rfl⟩ := Prod.mk.inj (Option.some.inj performed)
            exact ⟨.reads tid env error conn ctx served ran, trivial⟩
          · cases performed
        · cases performed
    | handles handling =>
        simp only [perform] at performed
        split at performed
        · rename_i conn served
          split at performed
          · rename_i error ctx ran
            split at performed
            · rename_i fine
              obtain ⟨answered, fits⟩ := fine
              obtain ⟨rfl, rfl⟩ := Prod.mk.inj (Option.some.inj performed)
              refine ⟨.handles handling error conn ctx served ran answered
                fits, ?_⟩
              simp only [checkFavoured, served, Bool.and_eq_true,
                decide_eq_true_eq] at passes
              obtain ⟨⟨favourable, closes⟩, admits⟩ := passes
              refine ⟨favourable, closes, ?_⟩
              intro message taken
              exact admits_of_check
                ((Option.all_eq_true _ _).mp admits message taken)
            · cases performed
          · cases performed
        · cases performed
    | restart =>
        obtain ⟨rfl, rfl⟩ := Prod.mk.inj (Option.some.inj performed)
        exact ⟨.restart, trivial⟩
  · cases performed

/-- A client that adds a value and asks for it. -/
def addsAndAsks : List UInt8 :=
  frame .add
      (addBody
        { kmaType := 1, kmaTime := 1, kmaVal := 5, kmaLoc := [97] }) ++
    frame .query
      (queryBody
        { kmqLoctype := .uri
          kmqMaxcount := 1
          kmqEq := {
            keType := 1, keOp := 3, keVal := 5, keStart := 0
            keEnd := kcnTimeNow
          } })

/-- A round of the first worker. -/
def round (trace : Trace) : Asked :=
  .handles {
    tid := 0, errno := 0, trace := trace, clock := .ok 0, closes := true
  }

/-- The worker opens a table and serves the client. -/
def servesOne : List Asked :=
  [.opens 1 (Request.create 0),
    .accepts 0 addsAndAsks KcndbServer.zeros,
    .reads 0 { errno := 0, trace := [.read .full] },
    round (.lock none :: (Request.newLoc ++ [.seek none, .write .full])),
    round [.lock none, .seek none, .read .full, .seek none, .read .full,
      .callback true],
    round []]

/-- The reply that is sent. -/
def expectedReply : Answer :=
  { error := none, found := [⟨1, 5, [97]⟩] }

/-- The reply was sent. -/
def showsReply (_ : List DaemonAct) (d : Daemon) : Bool :=
  d.sent 0 == expectedReply.bytes

/-- A run to which `serves_samples` applies. -/
theorem serves_samples_one :
    ∃ acts d service,
      Run (Guarded Step Favoured) (onDisk fun _ => ([], [])) acts d ∧
      d.sent 0 = expectedReply.bytes ∧
      Run Service.Takes (.start fun _ => []) acts service ∧
      (∀ index, (d.db index).Stores (service.samples index)) ∧
      d.sent 0 = ((service.replies 0).map Answer.bytes).flatten := by
  obtain ⟨acts, d, run, shown⟩ :=
    Run.of_shown guarded_perform
      (show
        (performAll (performIf checkFavoured perform)
            (onDisk fun _ => ([], [])) servesOne).any
            (fun performed => showsReply performed.1 performed.2) =
          true
        by decide +kernel)
  simp only [showsReply, beq_iff_eq] at shown
  have stored (index : Fin (kcnEqTypeMax - 1)) :
      ((onDisk fun _ => ([], [])).db index).Stores [] :=
    Table.stores_nil []
  obtain ⟨service, run', stores, sent⟩ :=
    serves_samples
      (fun _ => ⟨Or.inl rfl, Nat.zero_le _, Nat.zero_le _⟩) stored run
  exact ⟨acts, d, service, run, shown, run', stores, sent 0⟩

end Daemon

end Kcn
