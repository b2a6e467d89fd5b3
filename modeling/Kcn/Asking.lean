import Kcn.Query
import Kcn.Replies

namespace Kcn

open Program Bytes KcnBuf Framing KcnNetstat

/-!
# A search through the daemon

The keywords of `kcn_netstat_search` become a query, a worker of the daemon
answers it, and the client makes locators of the answer.  What comes of it are
samples that were stored.
-/

/-! ### The query -/

theorem kcnEqTypeAton_tabled
    {s : List UInt8} {type : Nat}
    (compiles : kcnEqTypeAton s = some type) :
    Tabled type := by
  unfold kcnEqTypeAton at compiles
  split_ifs at compiles <;> cases compiles
  all_goals exact ⟨by decide, by decide⟩

theorem kcnEqOperatorAton_known
    {w : List UInt8} {op : Nat}
    (compiles : kcnEqOperatorAton w = some op) :
    1 ≤ op ∧ op ≤ 5 := by
  unfold kcnEqOperatorAton at compiles
  split_ifs at compiles <;> cases compiles
  all_goals decide

namespace KcnNetstat

variable
  {loctype : KcnLocType} {maxnlocs : Nat} {keyv : List (List UInt8)}
  {now : Option Int64} {ke ke' : KcnEq} {kmq : KcnMsgQuery}

/-- What compiles has a type and an operator from the keywords. -/
theorem netstatCompile_named
    (compiles : netstatCompile keyv now ke = (true, ke')) :
    ∃ key operator, kcnEqTypeAton key = some ke'.keType ∧
      kcnEqOperatorAton operator = some ke'.keOp := by
  unfold netstatCompile at compiles
  split at compiles
  · rename_i key operator value more
    split at compiles
    · cases compiles
    · rename_i type isType
      split at compiles
      · cases compiles
      · rename_i op isOp
        split at compiles
        · cases compiles
        · split at compiles
          · split at compiles
            · cases compiles
            · cases compiles
              exact ⟨key, operator, isType, isOp⟩
          · cases compiles
            exact ⟨key, operator, isType, isOp⟩
  · cases compiles

/-- What is known of a query that is sent. -/
structure Compiled (maxnlocs : Nat) (kmq : KcnMsgQuery) : Prop where
  maxcount_eq : kmq.kmqMaxcount.toNat = maxnlocs % 256
  tabled : Tabled kmq.kmqEq.keType
  known : kmq.kmqEq.Known

theorem compiled_of_searchQuery
    (compiles : searchQuery loctype maxnlocs keyv now ke = some kmq) :
    Compiled maxnlocs kmq := by
  unfold searchQuery at compiles
  split at compiles
  · rename_i ke' compiled
    obtain rfl := Option.some.inj compiles
    obtain ⟨key, operator, isType, isOp⟩ :=
      netstatCompile_named compiled
    exact ⟨UInt8.toNat_ofNat', kcnEqTypeAton_tabled isType,
      kcnEqOperatorAton_known isOp⟩
  · cases compiles

/-- The daemon takes the query off its frame as it was. -/
theorem Compiled.serverCut_eq
    (compiled : Compiled maxnlocs kmq) (rest : List UInt8) :
    serverCut (frame .query (queryBody kmq) ++ rest) =
      .take (.query (some kmq)) rest := by
  obtain ⟨_, ⟨_, type⟩, _, op⟩ := compiled
  have tables : kcnEqTypeMax < 256 := by decide
  have body :
      (frame .query (queryBody kmq) ++ rest).drop kcnMsgHdrsiz =
        queryBody kmq ++ rest :=
    rfl
  have fits : (queryBody kmq).length ≤ kcnMsgMaxbodysiz := by
    rw [length_queryBody]
    decide
  have accepted := headerVerdict_frame .query fits rest
  rw [serverCut_accepted accepted, body, if_pos rfl,
    if_pos (length_queryBody kmq),
    queryOf_queryBody (by omega) (by omega), List.drop_left]

end KcnNetstat

/-! ### The answer -/

/-- Locators that are stored fit into a message. -/
theorem Table.Stores.short
    {s : Table} {samples : List Sample} (stores : s.Stores samples) :
    ∀ sample ∈ samples, sample.loc.length ≤ kcnMsgMaxlocsiz := by
  obtain ⟨kdrs, _, kept⟩ := stores
  clear * - kept
  induction kept with
  | nil =>
      simp
  | cons first _ inductionHypothesis =>
      intro sample member
      rcases List.mem_cons.mp member with rfl | later
      · exact first.entry.short
      · exact inductionHypothesis sample later

theorem Samples.mem_matching
    {ke : KcnEq} {maxnlocs : Nat} {samples : List Sample}
    {sample : Sample} (member : sample ∈ matching ke maxnlocs samples) :
    sample ∈ samples :=
  List.mem_of_mem_filter (List.mem_of_mem_take member)

/-- A query has one reply, with the samples that match. -/
theorem Service.Serves.of_query
    {service service' : Service} {tid : Nat}
    {clock : Except Errno Int64} {kmq : KcnMsgQuery}
    {error : Option Errno}
    (serves :
      service.Serves tid clock (.query (some kmq)) error service') :
    ∃ index answer,
      type2index kmq.kmqEq.keType = some index ∧ error = none ∧
      service' = service.reply tid answer ∧
      answer.found =
        Samples.matching kmq.kmqEq kmq.kmqMaxcount.toNat
          (service.samples index) ∧
      answer.error =
        if answer.found = [] then some Errno.esrch else none := by
  cases serves with
  | query _ index answer found responds =>
      refine ⟨index, answer, found, rfl, rfl, ?_⟩
      rw [Samples.respond] at responds
      split at responds
      · rename_i none
        cases responds
        simp [none]
      · rename_i some
        cases responds
        simp [some]

/-- The locators of the samples can be told from an end of the results. -/
def Samples.Plain (samples : List Sample) : Prop :=
  ∀ sample ∈ samples, sample.loc ≠ [] ∧ 0 ∉ sample.loc

/-- The results of a reply. -/
def Answer.results (answer : Answer) : List (KcndbDbRecord × Nat) :=
  answer.found.map fun sample => (sample.record, 0)

/-- The error of a reply to a query is a byte, and not `EAGAIN`. -/
theorem Answer.error_told
    (answer : Answer)
    (errorEq : answer.error =
      if answer.found = [] then some Errno.esrch else none) :
    (UInt8.ofNat (answer.error.getD 0)).toNat = answer.error.getD 0 ∧
      answer.error.getD 0 ≠ Errno.eagain := by
  rw [errorEq]
  split <;> decide

namespace KcnClient

/-- A client reads a reply up to the first end of results. -/
theorem receive_ended
    {answer : Answer} {answers : List NetAnswer} {ki : KcnInfo}
    {env : Env}
    (short : ∀ sample ∈ answer.found,
      sample.loc.length ≤ kcnMsgMaxlocsiz)
    (granted : ∀ grant ∈ answers, grant = .malloc true)
    (enough : answer.found.length ≤ answers.length)
    (empty : ki.kiLocs = [])
    (room : answer.found.length ≤ ki.kiMaxnlocs)
    (memory : KcndbServer.InputBlock)
    (delivers : env.trace.Delivers answer.bytes.length) :
    ∃ errno ctx' unread before,
      receive (listening answer.bytes memory env answers ki) =
        .ok (errno, ctx') ∧
      Ended
        (responsesOf answer.results
          (UInt8.ofNat (answer.error.getD 0)))
        unread before ctx'.data.kcrError ctx'.data.kcrKi := by
  have lengthEq : answer.results.length = answer.found.length :=
    List.length_map _
  have fits :
      ∀ result ∈ answer.results,
        result.1.kdrLoc.length ≤ kcnMsgMaxlocsiz := by
    intro result member
    obtain ⟨sample, found, rfl⟩ := List.mem_map.mp member
    exact short sample found
  have receives :=
    wp_receive (finished_responsesOf answer.results _)
      (receiving_start memory env fits granted (by rwa [lengthEq])
        empty (by rwa [lengthEq]))
      delivers
  obtain ⟨errno, ctx', returns, unread, before, ended, _⟩ :=
    wp_returns receives
  exact ⟨errno, ctx', unread, before, returns, ended⟩

/-- What a client that reads a reply makes of it. -/
theorem receive_answer
    {answer : Answer} (ki : KcnInfo) {env : Env}
    (short : ∀ sample ∈ answer.found,
      sample.loc.length ≤ kcnMsgMaxlocsiz)
    (errorEq : answer.error =
      if answer.found = [] then some Errno.esrch else none)
    (empty : ki.kiLocs = [])
    (room : answer.found.length ≤ ki.kiMaxnlocs)
    (memory : KcndbServer.InputBlock)
    (delivers : env.trace.Delivers answer.bytes.length) :
    ∃ errno ctx',
      receive
          (listening answer.bytes memory env
            (List.replicate answer.found.length (.malloc true)) ki) =
        .ok (errno, ctx') ∧
      (ctx'.data.kcrKi.locs = answer.found.map Sample.loc ∧
          ctx'.data.kcrError = answer.error.getD 0 ↔
        Samples.Plain answer.found) := by
  obtain ⟨byteEq, other⟩ := answer.error_told errorEq
  have plainIff : Plain answer.results ↔ Samples.Plain answer.found := by
    rw [Answer.results, Plain, Samples.Plain, List.forall_mem_map]
    rfl
  have locsEq :
      answer.results.map (fun result => result.1.kdrLoc) =
        answer.found.map Sample.loc := by
    rw [Answer.results, List.map_map]
    rfl
  obtain ⟨errno, ctx', unread, before, returns, ended⟩ :=
    receive_ended short
      (fun _ member => (List.mem_replicate.mp member).2)
      (Nat.le_of_eq List.length_replicate.symm) empty room memory
      delivers
  refine ⟨errno, ctx', returns, ?_⟩
  have reported := ended_iff ended
  rw [locsEq, byteEq, plainIff] at reported
  rw [reported]
  exact and_iff_left (Or.inl other)

end KcnClient

namespace Daemon

variable
  {files : Fin (kcnEqTypeMax - 1) → List UInt8 × List UInt8}
  {samples : Fin (kcnEqTypeMax - 1) → List Sample}
  {d d' : Daemon} {service : Service} {kmq : KcnMsgQuery}

/-- A round of a worker around which nothing goes wrong. -/
structure Rounds
    (d : Daemon) (tid : Nat) (handling : Handling) (d' : Daemon) :
    Prop where
  tid_eq : handling.tid = tid
  favourable : handling.trace.Favourable
  closes : handling.closes = true
  step : ∃ message error, d.Step (.handles handling message error) d'

/-- A worker whose answers are favourable handles a query. -/
theorem Shows.query_handled
    (shows : d.Shows service) {maxnlocs : Nat}
    (compiled : Compiled maxnlocs kmq) {tid : Nat}
    {index : Fin (kcnEqTypeMax - 1)} {conn : KcndbFile}
    {rest : List UInt8}
    (found : type2index kmq.kmqEq.keType = some index)
    (opened : (d.db index).handles tid ≠ none)
    (served : d.conns tid = some conn)
    (arrived :
      conn.kb.after = frame .query (queryBody kmq) ++ rest) :
    ∃ handling d', d.Rounds tid handling d' := by
  obtain ⟨trace, result, error, s, favourable, ran, locEq, tableEq⟩ :=
    (shows.tables index).exec_search opened compiled.known
      kmq.kmqMaxcount.toNat 0
  let handling : Handling := {
    tid := tid, errno := 0, trace := trace, clock := .ok 0, closes := true
  }
  have fits : Fits (Function.update d.db index s) := by
    intro other
    by_cases same : other = index
    · rw [same, Function.update_self, locEq, tableEq]
      have disk := (shows.tables index).cached.disk
      exact ⟨disk.locFits, disk.tableFits⟩
    · rw [Function.update_of_ne same]
      have disk := (shows.tables other).cached.disk
      exact ⟨disk.locFits, disk.tableFits⟩
  obtain ⟨incoming, _, carries⟩ := shows.conn served
  have holds := carries.holds
  have arrivedEq := carries.arrived_eq.symm.trans arrived
  have takes := compiled.serverCut_eq rest
  rw [← arrivedEq] at takes
  have returns :
      wp (KcndbServer.recvStep Worker.calls)
        (fun _ ctx => ctx.served.world.env.trace = [] ∧
          Fits ctx.served.world.db)
        (fun _ => False) (d.view handling conn) := by
    refine KcndbServer.wp_recvStep holds ?_ ?_ ?_
    · intro waits
      cases takes.symm.trans waits
    · intro failure refuses
      cases takes.symm.trans refuses
    · intro message rest' takes'
      cases takes.symm.trans takes'
      simp only [ServerCalls.handle, ServerCalls.handleQuery, Served.hand,
        Served.call, Worker.calls, wp_bind, wp_modify, wp_zoom, wp_gets,
        wp_pure]
      refine Worker.wp_tableCall_of found ran ?_
      intro _ _ _ _ _
      simp only [ServerCtx.moved, Served.worldLens, Worker.responds_env,
        Worker.responds_db]
      exact ⟨rfl, fits⟩
  obtain ⟨error, ctx, ran, answered, fits⟩ := wp_returns returns
  exact ⟨handling, _, rfl, favourable, rfl, _, error,
    .handles handling error conn ctx served ran answered fits⟩

/-- What a worker sends for a query that has arrived. -/
theorem Shows.query
    (shows : d.Shows service) {maxnlocs : Nat}
    (compiled : Compiled maxnlocs kmq)
    {handling : Handling} {message : Option ServerFrame}
    {error : Option Errno} {conn : KcndbFile} {rest : List UInt8}
    (served : d.conns handling.tid = some conn)
    (arrived :
      conn.kb.after = frame .query (queryBody kmq) ++ rest)
    (step : d.Step (.handles handling message error) d')
    (favourable : handling.trace.Favourable)
    (closes : handling.closes = true) :
    ∃ (index : Fin (kcnEqTypeMax - 1)) (answer : Answer),
      type2index kmq.kmqEq.keType = some index ∧ error = none ∧
      d'.sent handling.tid = d.sent handling.tid ++ answer.bytes ∧
      answer.found =
        Samples.matching kmq.kmqEq (maxnlocs % 256)
          (service.samples index) ∧
      answer.error =
        if answer.found = [] then some Errno.esrch else none := by
  have takes := compiled.serverCut_eq rest
  have head : message = some (.query (some kmq)) := by
    cases step with
    | handles _ _ conn' _ served' _ _ _ =>
        obtain rfl := Option.some.inj (served.symm.trans served')
        rw [arrived, headOf, takes]
  have favoured : d.Favoured (.handles handling message error) := by
    refine ⟨favourable, closes, ?_⟩
    intro asked taken
    cases head.symm.trans taken
    exact compiled.known
  obtain ⟨service', taken, shows'⟩ := shows.step ⟨step, favoured⟩
  obtain ⟨incoming, conns, carries⟩ := shows.conn served
  have arrivedEq := carries.arrived_eq.symm.trans arrived
  have same {conn' : Incoming}
      (conns' : service.conns handling.tid = some conn') :
      conn'.arrived = frame .query (queryBody kmq) ++ rest := by
    obtain rfl := Option.some.inj (conns.symm.trans conns')
    exact arrivedEq
  cases taken with
  | waits _ conn' conns' waits =>
      rw [same conns', takes] at waits
      cases waits
  | refuses _ conn' failure conns' refuses =>
      rw [same conns', takes] at refuses
      cases refuses
  | serves _ conn' message rest' _ service₁ conns' taken serves =>
      rw [same conns', takes] at taken
      cases taken
      obtain ⟨index, answer, found, none, rfl, foundEq, errorEq⟩ :=
        serves.of_query
      rw [compiled.maxcount_eq] at foundEq
      refine ⟨index, answer, found, none, ?_, foundEq, errorEq⟩
      have sentEq := shows'.sent handling.tid
      simp only [Service.connect, Service.reply, Function.update_self,
        List.map_append, List.map_singleton, List.flatten_append,
        List.flatten_singleton] at sentEq
      rw [sentEq, shows.sent]

/--
A search with keywords, through a daemon that has run in any way: the client
gets the locators of the first samples of the named type that match, as many as
the low byte of its limit tells, and `ESRCH` if there is none, if and only if
these locators can be told from an end of the results.
-/
theorem search_through
    {acts : List DaemonAct}
    (disk : ∀ index, ((onDisk files).db index).OnDisk)
    (stores : ∀ index,
      ((onDisk files).db index).Stores (samples index))
    (run : Run (Guarded Step Favoured) (onDisk files) acts d)
    {loctype : KcnLocType} {maxnlocs : Nat} {keyv : List (List UInt8)}
    {now : Option Int64} {ke : KcnEq}
    (compiles :
      searchQuery loctype maxnlocs keyv now ke = some kmq)
    {handling : Handling} {message : Option ServerFrame}
    {error : Option Errno} {conn : KcndbFile} {rest : List UInt8}
    (served : d.conns handling.tid = some conn)
    (arrived :
      conn.kb.after = frame .query (queryBody kmq) ++ rest)
    (step : d.Step (.handles handling message error) d')
    (favourable : handling.trace.Favourable)
    (closes : handling.closes = true) :
    ∃ service index bytes,
      Run Service.Takes (.start samples) acts service ∧
      type2index kmq.kmqEq.keType = some index ∧
      d'.sent handling.tid = d.sent handling.tid ++ bytes ∧
      let found :=
        Samples.matching kmq.kmqEq (maxnlocs % 256)
          (service.samples index)
      ∀ (memory : KcndbServer.InputBlock) (env : Env),
        env.trace.Delivers bytes.length →
        ∃ errno ctx,
          KcnClient.receive
              (KcnClient.listening bytes memory env
                (List.replicate found.length (.malloc true))
                (KcnInfo.new loctype maxnlocs)) =
            .ok (errno, ctx) ∧
          (ctx.data.kcrKi.locs = found.map Sample.loc ∧
              ctx.data.kcrError =
                (if found = [] then Errno.esrch else 0) ↔
            Samples.Plain found) := by
  obtain ⟨service, run', shows⟩ := shows_run disk stores run
  have compiled := compiled_of_searchQuery compiles
  obtain ⟨index, answer, found, _, sentEq, foundEq, errorEq⟩ :=
    shows.query compiled served arrived step favourable closes
  refine ⟨service, index, answer.bytes, run', found, sentEq, ?_⟩
  intro _ memory env delivers
  have short :
      ∀ sample ∈ answer.found,
        sample.loc.length ≤ kcnMsgMaxlocsiz := by
    intro sample member
    rw [foundEq] at member
    exact (shows.tables index).stores.short sample
      (Samples.mem_matching member)
  have room : answer.found.length ≤ maxnlocs := by
    rw [foundEq, Samples.matching, List.length_take]
    exact Nat.le_trans (Nat.min_le_left _ _) (Nat.mod_le _ _)
  obtain ⟨errno, ctx, returns, reported⟩ :=
    KcnClient.receive_answer (KcnInfo.new loctype maxnlocs) short errorEq
      rfl room memory delivers
  have errnoEq :
      answer.error.getD 0 =
        if answer.found = [] then Errno.esrch else 0 := by
    rw [errorEq]
    split <;> rfl
  rw [errnoEq] at reported
  rw [foundEq] at returns reported
  exact ⟨errno, ctx, returns, reported⟩

/-- The keywords `storage = 5`. -/
def storageFive : List (List UInt8) :=
  [ascii "storage", ascii "=", ascii "5"]

/-- The query that they become at the time 100. -/
def storageQuery : KcnMsgQuery where
  kmqLoctype := .uri
  kmqMaxcount := 1
  kmqEq := {
    keType := 1, keOp := 3, keVal := 5, keStart := -200
    keEnd := kcnTimeNow
  }

/-- A value was added, and the query has arrived. -/
def asksFive : List Asked :=
  [.opens 1 (Request.create 0),
    .accepts 0
      (frame .add
          (addBody
            { kmaType := 1, kmaTime := 1, kmaVal := 5, kmaLoc := [97] }) ++
        frame .query (queryBody storageQuery))
      KcndbServer.zeros,
    .reads 0 { errno := 0, trace := [.read .full] },
    round (.lock none :: (Request.newLoc ++ [.seek none, .write .full]))]

/-- The next round sends the reply. -/
def repliesNext (_ : List DaemonAct) (d : Daemon) : Bool :=
  d.sent 0 == [] &&
    (d.conns 0).any
      (fun conn =>
        conn.kb.after == frame .query (queryBody storageQuery)) &&
    match
      performIf checkFavoured perform d
        (round [.lock none, .seek none, .read .full, .seek none,
          .read .full, .callback true]) with
    | some (.handles handling _ _, d') =>
        handling.tid == 0 && d'.sent 0 == expectedReply.bytes
    | _ => false

/-- A search to which `search_through` applies. -/
theorem search_through_one :
    ∃ acts d handling message error d' service index,
      Run (Guarded Step Favoured) (onDisk fun _ => ([], [])) acts d ∧
      d.Step (.handles handling message error) d' ∧
      d'.sent 0 = d.sent 0 ++ expectedReply.bytes ∧
      Run Service.Takes (.start fun _ => []) acts service ∧
      let found :=
        Samples.matching storageQuery.kmqEq 1 (service.samples index)
      ∃ errno ctx,
        KcnClient.receive
            (KcnClient.listening expectedReply.bytes KcndbServer.zeros
              { errno := 0, trace := List.replicate 30 (.read .full) }
              (List.replicate found.length (.malloc true))
              (KcnInfo.new .uri 1)) =
          .ok (errno, ctx) ∧
        (ctx.data.kcrKi.locs = found.map Sample.loc ∧
            ctx.data.kcrError =
              (if found = [] then Errno.esrch else 0) ↔
          Samples.Plain found) := by
  obtain ⟨acts, d, run, shown⟩ :=
    Run.of_shown guarded_perform
      (show
        (performAll (performIf checkFavoured perform)
            (onDisk fun _ => ([], [])) asksFive).any
            (fun performed => repliesNext performed.1 performed.2) =
          true
        by decide +kernel)
  simp only [repliesNext, Bool.and_eq_true, beq_iff_eq,
    Option.any_eq_true] at shown
  obtain ⟨⟨nothing, conn, served, arrived⟩, next⟩ := shown
  split at next
  · rename_i handling message error d' performed
    simp only [Bool.and_eq_true, beq_iff_eq] at next
    obtain ⟨tid, sent⟩ := next
    obtain ⟨step, favourable, closes, _⟩ :=
      guarded_perform _ _ _ _ performed
    have stored (index : Fin (kcnEqTypeMax - 1)) :
        ((onDisk fun _ => ([], [])).db index).Stores [] :=
      Table.stores_nil []
    obtain ⟨service, index, bytes, run', _, sentEq, received⟩ :=
      search_through
        (fun _ => ⟨Or.inl rfl, Nat.zero_le _, Nat.zero_le _⟩) stored run
        (show
          searchQuery .uri 1 storageFive (some 100) (stack 0) =
            some storageQuery
          from rfl)
        (by rw [tid]; exact served)
        (by rw [arrived, List.append_nil]) step favourable closes
    rw [tid, sent, nothing, List.nil_append] at sentEq
    subst sentEq
    have delivers :
        Trace.Delivers (List.replicate 30 (.read .full))
          expectedReply.bytes.length := by
      refine ⟨?_, by decide⟩
      intro event member
      rw [(List.mem_replicate.mp member).2]
      trivial
    refine ⟨acts, d, handling, message, error, d', service, index, run,
      step, ?_, run', ?_⟩
    · rw [sent, nothing, List.nil_append]
    · exact received KcndbServer.zeros
        { errno := 0, trace := List.replicate 30 (.read .full) } delivers
  · cases next

end Daemon

end Kcn
