import Kcn.Asking

namespace Kcn

open Program Bytes KcnBuf Framing KcnNetstat

/-!
# The count of a search

A search asks for a number of locators, and a query has one byte for it.  The
client gets as many as it asked for where that byte tells enough.
-/

/-! ### What the client counts -/

/--
The client has as many of the locators that match as it asked for, and is told
that there are none only if none matches.
-/
structure KcnClientResponse.Counted
    (kcr : KcnClientResponse) (maxnlocs : Nat) (matching : List Sample) :
    Prop where
  count : kcr.kcrKi.nlocs = min maxnlocs matching.length
  none : kcr.kcrError = Errno.esrch → matching = []

/-- Where the count is right if the low byte of it is asked for. -/
theorem KcnClientResponse.counted_iff
    {kcr : KcnClientResponse} {maxnlocs : Nat} {matching : List Sample}
    (positive : 1 ≤ maxnlocs)
    (nlocsEq :
      kcr.kcrKi.nlocs = (matching.take (maxnlocs % 256)).length)
    (errorEq :
      kcr.kcrError =
        if matching.take (maxnlocs % 256) = [] then Errno.esrch else 0) :
    kcr.Counted maxnlocs matching ↔
      maxnlocs < 256 ∨ matching.length ≤ maxnlocs % 256 := by
  rw [List.length_take] at nlocsEq
  constructor
  · rintro ⟨count, _⟩
    omega
  · intro enough
    refine ⟨by omega, fun none => ?_⟩
    rw [errorEq] at none
    split at none
    · rename_i empty
      have length := congrArg List.length empty
      rw [List.length_take, List.length_nil] at length
      exact List.eq_nil_of_length_eq_zero (by omega)
    · cases none

namespace KcnClient

/-- A client counts the locators of a reply. -/
theorem receive_counted
    {answer : Answer} {answers : List NetAnswer} {ki : KcnInfo}
    {env : Env}
    (short : ∀ sample ∈ answer.found,
      sample.loc.length ≤ kcnMsgMaxlocsiz)
    (located : ∀ sample ∈ answer.found, sample.loc ≠ [])
    (errorEq : answer.error =
      if answer.found = [] then some Errno.esrch else none)
    (granted : ∀ grant ∈ answers, grant = .malloc true)
    (enough : answer.found.length ≤ answers.length)
    (empty : ki.kiLocs = [])
    (room : answer.found.length ≤ ki.kiMaxnlocs)
    (memory : KcndbServer.InputBlock)
    (delivers : env.trace.Delivers answer.bytes.length) :
    ∃ errno ctx',
      receive (listening answer.bytes memory env answers ki) =
        .ok (errno, ctx') ∧
      ctx'.data.kcrKi.nlocs = answer.found.length ∧
      ctx'.data.kcrError =
        if answer.found = [] then Errno.esrch else 0 := by
  obtain ⟨byteEq, other⟩ := answer.error_told errorEq
  obtain ⟨errno, ctx', unread, before, returns, ended⟩ :=
    receive_ended short granted enough empty room memory delivers
  have nonempty :
      ∀ result ∈ answer.results, result.1.kdrLoc ≠ [] := by
    intro result member
    obtain ⟨sample, found, rfl⟩ := List.mem_map.mp member
    exact located sample found
  obtain ⟨_, locsEq, reported⟩ := ended.of_located nonempty
  refine ⟨errno, ctx', returns, ?_, ?_⟩
  · rw [KcnInfo.nlocs, locsEq, List.length_map, List.length_map,
      Answer.results, List.length_map]
  · rw [reported, ClientEnd.errno_of_other (by rwa [byteEq]), byteEq,
      errorEq]
    split <;> rfl

end KcnClient

/-! ### Through the daemon -/

namespace Daemon

variable
  {files : Fin (kcnEqTypeMax - 1) → List UInt8 × List UInt8}
  {samples : Fin (kcnEqTypeMax - 1) → List Sample}
  {d d' : Daemon} {service : Service} {kmq : KcnMsgQuery}

/-- What a client counts after a worker has answered its query. -/
theorem Shows.query_counted
    (shows : d.Shows service)
    {loctype : KcnLocType} {maxnlocs : Nat}
    (compiled : Compiled maxnlocs kmq)
    {index : Fin (kcnEqTypeMax - 1)} {held : List Sample}
    (found : type2index kmq.kmqEq.keType = some index)
    (holds : (d.db index).Stores held)
    (located : ∀ sample ∈ held, sample.loc ≠ [])
    {tid : Nat} {conn : KcndbFile} {rest : List UInt8}
    (served : d.conns tid = some conn)
    (arrived :
      conn.kb.after = frame .query (queryBody kmq) ++ rest)
    {handling : Handling} (rounds : d.Rounds tid handling d') :
    ∃ bytes, d'.sent tid = d.sent tid ++ bytes ∧
      ∀ (memory : KcndbServer.InputBlock) (env : Env)
        (answers : List NetAnswer),
        env.trace.Delivers bytes.length →
        (∀ answer ∈ answers, answer = .malloc true) →
        held.length ≤ answers.length →
        ∃ errno ctx,
          KcnClient.receive
              (KcnClient.listening bytes memory env answers
                (KcnInfo.new loctype maxnlocs)) =
            .ok (errno, ctx) ∧
          let first := Samples.matching kmq.kmqEq (maxnlocs % 256) held
          ctx.data.kcrKi.nlocs = first.length ∧
            ctx.data.kcrError =
              if first = [] then Errno.esrch else 0 := by
  obtain ⟨rfl, favourable, closes, message, error, step⟩ := rounds
  obtain ⟨index', answer, found', _, sentEq, foundEq, errorEq⟩ :=
    shows.query compiled served arrived step favourable closes
  cases found.symm.trans found'
  rw [(shows.tables index).stores.unique holds] at foundEq
  refine ⟨answer.bytes, sentEq, ?_⟩
  intro memory env answers delivers granted enough
  have inside : ∀ sample ∈ answer.found, sample ∈ held := by
    intro sample member
    rw [foundEq] at member
    exact Samples.mem_matching member
  have count : answer.found.length ≤ held.length := by
    rw [foundEq, Samples.matching]
    exact ((List.take_sublist _ _).trans List.filter_sublist).length_le
  have room : answer.found.length ≤ maxnlocs := by
    rw [foundEq, Samples.matching, List.length_take]
    exact Nat.le_trans (Nat.min_le_left _ _) (Nat.mod_le _ _)
  obtain ⟨errno, ctx, returns, counted⟩ :=
    KcnClient.receive_counted
      (fun sample member => holds.short sample (inside sample member))
      (fun sample member => located sample (inside sample member))
      errorEq granted (Nat.le_trans count enough)
      (show (KcnInfo.new loctype maxnlocs).kiLocs = [] from rfl) room
      memory delivers
  rw [foundEq] at counted
  exact ⟨errno, ctx, returns, counted⟩

/--
A search with keywords, through a daemon that has run in any way.  A worker that
has the query answers it, and the client gets the number of locators that it
asked for, if and only if it asked for fewer than 256, or no more match than the
low byte of its number tells.
-/
theorem count_delivered
    {acts : List DaemonAct}
    (disk : ∀ index, ((onDisk files).db index).OnDisk)
    (stores : ∀ index,
      ((onDisk files).db index).Stores (samples index))
    (run : Run (Guarded Step Favoured) (onDisk files) acts d)
    {loctype : KcnLocType} {maxnlocs : Nat} (positive : 1 ≤ maxnlocs)
    {keyv : List (List UInt8)} {now : Option Int64} {ke : KcnEq}
    (compiles :
      searchQuery loctype maxnlocs keyv now ke = some kmq)
    {index : Fin (kcnEqTypeMax - 1)} {held : List Sample}
    (found : type2index kmq.kmqEq.keType = some index)
    (holds : (d.db index).Stores held)
    (located : ∀ sample ∈ held, sample.loc ≠ [])
    {tid : Nat} {conn : KcndbFile} {rest : List UInt8}
    (opened : (d.db index).handles tid ≠ none)
    (served : d.conns tid = some conn)
    (arrived :
      conn.kb.after = frame .query (queryBody kmq) ++ rest) :
    (∃ handling d', d.Rounds tid handling d') ∧
      ∀ handling d', d.Rounds tid handling d' →
        ∃ bytes, d'.sent tid = d.sent tid ++ bytes ∧
          ∀ (memory : KcndbServer.InputBlock) (env : Env)
            (answers : List NetAnswer),
            env.trace.Delivers bytes.length →
            (∀ answer ∈ answers, answer = .malloc true) →
            held.length ≤ answers.length →
            ∃ errno ctx,
              KcnClient.receive
                  (KcnClient.listening bytes memory env answers
                    (KcnInfo.new loctype maxnlocs)) =
                .ok (errno, ctx) ∧
              let matching :=
                held.filter fun sample => sample.Fits kmq.kmqEq
              (ctx.data.Counted maxnlocs matching ↔
                maxnlocs < 256 ∨ matching.length ≤ maxnlocs % 256) := by
  obtain ⟨service, _, shows⟩ := shows_run disk stores run
  have compiled := compiled_of_searchQuery compiles
  refine ⟨shows.query_handled compiled found opened served arrived, ?_⟩
  intro handling d' rounds
  obtain ⟨bytes, sentEq, received⟩ :=
    shows.query_counted compiled found holds located served arrived
      rounds
  refine ⟨bytes, sentEq, ?_⟩
  intro memory env answers delivers granted enough
  obtain ⟨errno, ctx, returns, nlocsEq, errorEq⟩ :=
    received memory env answers delivers granted enough
  exact ⟨errno, ctx, returns,
    KcnClientResponse.counted_iff positive nlocsEq errorEq⟩

/-- The query for the value five, with the byte for the count. -/
def queryFive (maxcount : UInt8) : KcnMsgQuery := {
  storageQuery with kmqMaxcount := maxcount
}

/-- Two samples that the query is for. -/
def fives : List Sample :=
  [⟨1, 5, [97]⟩, ⟨2, 5, [98]⟩]

/-- The two samples were added, and the query has arrived. -/
def asksFives (maxcount : UInt8) : List Asked :=
  [.opens 1 (Request.create 0),
    .accepts 0
      (frame .add
          (addBody
            { kmaType := 1, kmaTime := 1, kmaVal := 5, kmaLoc := [97] }) ++
        frame .add
          (addBody
            { kmaType := 1, kmaTime := 2, kmaVal := 5, kmaLoc := [98] }) ++
        frame .query (queryBody (queryFive maxcount)))
      KcndbServer.zeros,
    .reads 0 { errno := 0, trace := [.read .full] },
    round (.lock none :: (Request.newLoc ++ [.seek none, .write .full])),
    round
      (.lock none :: .seek none :: .read .full ::
        (Request.newLoc ++ [.seek none, .write .full]))]

/-- The records of the samples, as they were stored. -/
def storedFives : List KcndbDbRecord :=
  [{ kdrTime := 1, kdrVal := 5, kdrLocidx := 2048, kdrLoc := [] },
    { kdrTime := 2, kdrVal := 5, kdrLocidx := 2059, kdrLoc := [] }]

/-- The samples are stored, and the worker has the query. -/
def holdsFives
    (maxcount : UInt8) (_ : List DaemonAct) (d : Daemon) : Bool :=
  (d.db Database.first).table == encodeRecords storedFives &&
    slice (d.db Database.first).loc 2048 3 == encodeLoc [97] &&
    slice (d.db Database.first).loc 2059 3 == encodeLoc [98] &&
    (d.db Database.first).loc.length == 2070 && ((d.db Database.first).handles 0).isSome &&
    d.sent 0 == [] &&
    (d.conns 0).any fun conn =>
      conn.kb.after == frame .query (queryBody (queryFive maxcount))

/-- What is stored then. -/
theorem stores_of_holdsFives
    {maxcount : UInt8} {acts : List DaemonAct}
    (shown : holdsFives maxcount acts d = true) :
    (d.db Database.first).Stores fives := by
  simp only [holdsFives, Bool.and_eq_true, beq_iff_eq] at shown
  obtain ⟨⟨⟨⟨⟨⟨table, first⟩, second⟩, length⟩, _⟩, _⟩, _⟩ := shown
  refine ⟨storedFives, table, .cons ⟨rfl, rfl, by decide, ?_⟩
    (.cons ⟨rfl, rfl, by decide, ?_⟩ .nil)⟩
  · exact ⟨by decide, first, by rw [length]; decide⟩
  · exact ⟨by decide, second, by rw [length]; decide⟩

/-- A run after which the worker has the query. -/
theorem run_fives
    (maxcount : UInt8)
    (performed :
      (performAll (performIf checkFavoured perform)
          (onDisk fun _ => ([], [])) (asksFives maxcount)).any
        (fun performed => holdsFives maxcount performed.1 performed.2) =
      true) :
    ∃ acts d conn,
      Run (Guarded Step Favoured) (onDisk fun _ => ([], [])) acts d ∧
      (d.db Database.first).Stores fives ∧
      (d.db Database.first).handles 0 ≠ none ∧ d.sent 0 = [] ∧
      d.conns 0 = some conn ∧
      conn.kb.after =
        frame .query (queryBody (queryFive maxcount)) := by
  obtain ⟨acts, d, run, shown⟩ :=
    Run.of_shown guarded_perform performed
  have stores := stores_of_holdsFives shown
  simp only [holdsFives, Bool.and_eq_true, beq_iff_eq,
    Option.any_eq_true] at shown
  obtain ⟨⟨⟨_, opened⟩, nothing⟩, conn, served, arrived⟩ := shown
  exact ⟨acts, d, conn, run, stores, Option.ne_none_iff_isSome.mpr opened,
    nothing, served, arrived⟩

/-- Reads that return all there is deliver any number of bytes. -/
theorem delivers_full (count : Nat) :
    Trace.Delivers (List.replicate count (.read .full)) count where
  moves := by
    intro event member
    rw [(List.mem_replicate.mp member).2]
    trivial
  enough := Nat.le_of_eq List.length_replicate.symm

/-- A search for two locators, to which `count_delivered` applies. -/
theorem count_delivered_two :
    ∃ (d d' : Daemon) (handling : Handling) (bytes : List UInt8)
      (errno : Errno) (ctx : NetCtx KcnClientResponse),
      d.Rounds 0 handling d' ∧ d'.sent 0 = bytes ∧
      KcnClient.receive
          (KcnClient.listening bytes KcndbServer.zeros
            { errno := 0
              trace := List.replicate bytes.length (.read .full) }
            [.malloc true, .malloc true] (KcnInfo.new .uri 2)) =
        .ok (errno, ctx) ∧
      ctx.data.Counted 2 fives := by
  obtain ⟨acts, d, conn, run, holds, opened, nothing, served, arrived⟩ :=
    run_fives 2 (by decide +kernel)
  have stored (index : Fin (kcnEqTypeMax - 1)) :
      ((onDisk fun _ => ([], [])).db index).Stores [] :=
    Table.stores_nil []
  obtain ⟨⟨handling, d', rounds⟩, delivers⟩ :=
    count_delivered (fun _ => ⟨Or.inl rfl, Nat.zero_le _, Nat.zero_le _⟩)
      stored run (by decide : 1 ≤ 2)
      (show
        searchQuery .uri 2 storageFive (some 100) (stack 0) =
          some (queryFive 2)
        from rfl)
      (show
        type2index (queryFive 2).kmqEq.keType = some Database.first
        from rfl)
      holds (by decide) opened served
      (by rw [arrived, List.append_nil])
  obtain ⟨bytes, sent, received⟩ := delivers handling d' rounds
  rw [nothing, List.nil_append] at sent
  obtain ⟨errno, ctx, returns, counted⟩ :=
    received KcndbServer.zeros
      { errno := 0, trace := List.replicate bytes.length (.read .full) }
      [.malloc true, .malloc true] (delivers_full bytes.length)
      (by simp) (by decide)
  exact ⟨d, d', handling, bytes, errno, ctx, rounds, sent, returns,
    counted.mpr (Or.inl (by decide))⟩

/-- The byte of a search for 256 locators is 0, and the client gets none. -/
theorem count_not_delivered :
    ∃ (acts : List DaemonAct) (d d' : Daemon) (handling : Handling)
      (bytes : List UInt8) (errno : Errno)
      (ctx : NetCtx KcnClientResponse),
      Run (Guarded Step Favoured) (onDisk fun _ => ([], [])) acts d ∧
      (d.db Database.first).Stores fives ∧
      searchQuery .uri 256 storageFive (some 100) (stack 0) =
        some (queryFive 0) ∧
      (fives.filter fun sample => sample.Fits (queryFive 0).kmqEq) =
        fives ∧
      d.Rounds 0 handling d' ∧ d'.sent 0 = bytes ∧
      KcnClient.receive
          (KcnClient.listening bytes KcndbServer.zeros
            { errno := 0
              trace := List.replicate bytes.length (.read .full) }
            [.malloc true, .malloc true] (KcnInfo.new .uri 256)) =
        .ok (errno, ctx) ∧
      ctx.data.kcrKi.nlocs = 0 ∧ ctx.data.kcrError = Errno.esrch ∧
      ¬ ctx.data.Counted 256 fives := by
  obtain ⟨acts, d, conn, run, holds, opened, nothing, served, arrived⟩ :=
    run_fives 0 (by decide +kernel)
  have stored (index : Fin (kcnEqTypeMax - 1)) :
      ((onDisk fun _ => ([], [])).db index).Stores [] :=
    Table.stores_nil []
  obtain ⟨service, _, shows⟩ :=
    shows_run (fun _ => ⟨Or.inl rfl, Nat.zero_le _, Nat.zero_le _⟩) stored
      run
  have compiles :
      searchQuery .uri 256 storageFive (some 100) (stack 0) =
        some (queryFive 0) :=
    rfl
  have compiled := compiled_of_searchQuery compiles
  have found :
      type2index (queryFive 0).kmqEq.keType = some Database.first :=
    rfl
  rw [← List.append_nil (frame _ _)] at arrived
  obtain ⟨handling, d', rounds⟩ :=
    shows.query_handled compiled found opened served arrived
  obtain ⟨bytes, sent, received⟩ :=
    shows.query_counted compiled found holds (by decide) served arrived
      rounds
  rw [nothing, List.nil_append] at sent
  obtain ⟨errno, ctx, returns, nlocs, error⟩ :=
    received KcndbServer.zeros
      { errno := 0, trace := List.replicate bytes.length (.read .full) }
      [.malloc true, .malloc true] (delivers_full bytes.length)
      (by simp) (by decide)
  refine ⟨acts, d, d', handling, bytes, errno, ctx, run, holds, compiles,
    by decide, rounds, sent, returns, nlocs, error, ?_⟩
  rintro ⟨count, _⟩
  rw [nlocs] at count
  cases count

end Daemon

end Kcn
