import Kcn.Library.Run
import Kcn.Steps

namespace Kcn

open Program KcnBuf KcndbDb

/-!
# The table file as a log

Adds and searches of any threads on a table that starts empty.  As long as
no add finds more than two records in the buffer of its thread, the file is
the log of the records that were accepted.
-/

/-- The record that a call was asked to add. -/
def Call.record? : Call → Option KcndbDbRecord
  | .recordAdd kdr => some kdr
  | .tableOpen _ _ | .search _ _ => none

theorem Call.record?_eq_some
    {call : Call} {kdr : KcndbDbRecord} :
    call.record? = some kdr ↔ call = .recordAdd kdr := by
  cases call <;> simp [record?]

/-- The record that an accepted call stored. -/
def Done.accepted (done : Done) : Option KcndbDbRecord :=
  if done.result.ok then
    done.call.record?.map fun kdr => {
      kdr with kdrLocidx := done.result.locidx
    }
  else
    none

/-- The records that the calls of a run stored, in order. -/
def acceptedRecords (dones : List Done) : List KcndbDbRecord :=
  dones.filterMap Done.accepted

/-- The bytes of records one after the other. -/
def encodeRecords (kdrs : List KcndbDbRecord) : List UInt8 :=
  kdrs.flatMap encodeRecord

theorem acceptedRecords_snoc (dones : List Done) (done : Done) :
    acceptedRecords (dones ++ [done]) =
      acceptedRecords dones ++ done.accepted.toList := by
  cases accepted : done.accepted <;>
    simp [acceptedRecords, accepted]

theorem encodeRecords_append (first second : List KcndbDbRecord) :
    encodeRecords (first ++ second) =
      encodeRecords first ++ encodeRecords second :=
  List.flatMap_append

theorem encodeRecords_singleton (kdr : KcndbDbRecord) :
    encodeRecords [kdr] = encodeRecord kdr := by
  simp [encodeRecords]

/-- A log is read back record by record, without the locators. -/
theorem records_encodeRecords (kdrs : List KcndbDbRecord) :
    records (encodeRecords kdrs) =
      kdrs.map fun kdr => { kdr with kdrLoc := [] } := by
  induction kdrs with
  | nil =>
      rfl
  | cons kdr kdrs inductionHypothesis =>
      have split :
          encodeRecords (kdr :: kdrs) =
            encodeRecord kdr ++ encodeRecords kdrs :=
        List.flatMap_cons
      have enough :
          recordsiz ≤ (encodeRecords (kdr :: kdrs)).length := by
        rw [split, List.length_append, length_encodeRecord]
        exact Nat.le_add_right _ _
      rw [records_cons enough, split, decodeRecord_encodeRecord,
        ← length_encodeRecord kdr, List.drop_left,
        inductionHypothesis, List.map_cons]

/-- An error among the answers can be told. -/
instance (event : Event) : Decidable event.Fails := by
  cases event with
  | openFile error | lock error | stat error | seek error =>
      exact inferInstanceAs (Decidable (error ≠ none))
  | read transfer | write transfer =>
      cases transfer with
      | fail error =>
          exact inferInstanceAs (Decidable (error ≠ .eintr))
      | full | short _ =>
          exact inferInstanceAs (Decidable False)
  | callback _ =>
      exact inferInstanceAs (Decidable False)

instance (trace : Trace) : Decidable trace.Clean :=
  inferInstanceAs (Decidable (∀ event ∈ trace, ¬ event.Fails))

namespace Table

/-- The files of a table as they are before any thread opened them. -/
def onDisk (loc table : List UInt8) : Table :=
  { blank with loc := loc, table := table }

/--
A call meets no error, and if it adds a record, its buffer holds at most two
records, or the record is older than the one it is compared with.
-/
def Tidy (s : Table) (request : Request) : Prop :=
  request.trace.Clean ∧
    ∀ kdr ∈ request.call.record?,
      ∀ kdt ∈ s.handles request.tid,
        kdt.kdtTable.kb.after.length ≤ 2 * recordsiz ∨
          comparedTime s.base.kdbTablesize s.table kdt.kdtTable.kb >
            kdr.kdrTime

instance (s : Table) (request : Request) : Decidable (s.Tidy request) :=
  inferInstanceAs (Decidable (_ ∧ _))

/-- The table file is the log of the records accepted so far. -/
structure Logs (dones : List Done) (s : Table) : Prop where
  table_eq : s.table = encodeRecords (acceptedRecords dones)
  tablesize : s.base.kdbTablesize = s.table.length
  bounded : s.table.length ≤ offMax
  sized : s.Sized
  rested : ∀ tid kdt, s.handles tid = some kdt →
    Rested s.table kdt.kdtTable.kb

theorem logs_onDisk (loc : List UInt8) :
    (onDisk loc []).Logs [] where
  table_eq := rfl
  tablesize := rfl
  bounded := Nat.zero_le _
  sized := sized_blank
  rested := by
    intro tid kdt handle
    cases handle

/-- A call that was not accepted adds nothing to the log. -/
theorem accepted_refused
    {done : Done} (refused : done.result.ok = false) :
    done.accepted = none := by
  simp [Done.accepted, refused]

/-- An accepted call to add a record adds it to the log. -/
theorem accepted_recordAdd
    {done : Done} {kdr : KcndbDbRecord}
    (call : done.call = .recordAdd kdr)
    (ok : done.result.ok = true) :
    done.accepted =
      some { kdr with kdrLocidx := done.result.locidx } := by
  simp [Done.accepted, ok, call, Call.record?]

/-- Other calls add nothing to the log. -/
theorem accepted_other
    {done : Done} (other : done.call.record? = none) :
    done.accepted = none := by
  simp [Done.accepted, other]

variable {s s' : Table} {dones : List Done} {done : Done}

/-- What a tidy call to add a record does to the log. -/
inductive Adds (s : Table) (kdr : KcndbDbRecord) (kb : KcnBuf)
    (done : Done) (s' : Table) : Prop where
  | refused :
      done.result.ok = false →
      s'.table = s.table →
      (comparedTime s.base.kdbTablesize s.table kb > kdr.kdrTime →
        done.result.errno = Errno.erange) →
      Adds s kdr kb done s'
  | stored :
      done.result.ok = true →
      ¬ comparedTime s.base.kdbTablesize s.table kb > kdr.kdrTime →
      Adds s kdr kb done s'

namespace Logs

/-- A call of a thread on a table that is a log. -/
theorem sound (logs : s.Logs dones) {kdt : KcndbDbTable}
    (handle : s.handles done.tid = some kdt) :
    (s.seen done kdt).TableSound :=
  ⟨logs.rested _ _ handle, logs.tablesize, logs.bounded⟩

/-- A call that leaves the file alone keeps the log. -/
theorem keep
    (logs : s.Logs dones) (step : s.Step done s')
    (none : done.accepted = none)
    (tableEq : s'.table = s.table)
    (tablesize : s'.base.kdbTablesize = s.base.kdbTablesize)
    (rested : ∀ tid kdt, s'.handles tid = some kdt →
      s.handles tid = some kdt ∨ Rested s.table kdt.kdtTable.kb) :
    s'.Logs (dones ++ [done]) where
  table_eq := by
    rw [tableEq, logs.table_eq, acceptedRecords_snoc, none,
      Option.toList_none, List.append_nil]
  tablesize := by rw [tablesize, tableEq, logs.tablesize]
  bounded := step.tableFits
  sized := step.sized logs.sized
  rested := by
    intro tid kdt handle
    rw [tableEq]
    exact (rested tid kdt handle).elim (logs.rested tid kdt) id

/-- The buffers after a call whose thread has a rested one. -/
theorem rested_after
    {ctx : TableCtx} {content : List UInt8}
    (own : Rested content ctx.table.kb) (tid : Nat)
    (kdt : KcndbDbTable)
    (handle : (s.after ctx (some (handleOf ctx))).handles tid =
      some kdt) :
    s.handles tid = some kdt ∨ Rested content kdt.kdtTable.kb := by
  rcases handles_after handle with ⟨_, old⟩ | ⟨_, new⟩
  · exact Or.inl old
  · obtain rfl := Option.some.inj new
    exact Or.inr own

/-- A tidy call to add a record keeps the log. -/
theorem recordAdd
    (logs : s.Logs dones) (step : s.Step done s')
    (tidy : s.Tidy done.toRequest) {kdr : KcndbDbRecord}
    (call : done.call = .recordAdd kdr) :
    s'.Logs (dones ++ [done]) ∧
      ∃ kdt, s.handles done.tid = some kdt ∧
        s.Adds kdr kdt.kdtTable.kb done s' := by
  obtain ⟨clean, few⟩ := tidy
  obtain ⟨kdt, kdr', ctx, handle, outcome, locidxEq, _, errnoEq, rfl⟩ :=
    step.added call fun kdt handle => logs.sound handle
  have few := few kdr (Call.record?_eq_some.mpr call) kdt handle
  generalize okEq : done.result.ok = ok at outcome
  cases outcome with
  | rejected _ late errno sizeEq contentEq rested =>
      rw [contentEq] at rested
      refine ⟨logs.keep step (accepted_refused okEq) contentEq sizeEq
        (Logs.rested_after rested), kdt, handle, ?_⟩
      exact .refused okEq contentEq fun _ => errnoEq.symm.trans errno
  | failed _ reason sizeEq contentEq rested =>
      rw [contentEq] at rested
      refine ⟨logs.keep step (accepted_refused okEq) contentEq sizeEq
        (Logs.rested_after rested), kdt, handle, ?_⟩
      refine .refused okEq contentEq fun late => ?_
      rcases reason with unclean | inTime
      · exact absurd clean unclean
      · exact absurd late inTime
  | kept _ idx unclean =>
      exact absurd clean unclean
  | torn _ idx torn =>
      exact absurd torn clean.not_torn
  | stored _ idx rest inTime none sizeEq contentEq holds =>
      have nothing : rest = [] :=
        none (few.resolve_right inTime)
      rw [nothing, List.append_nil] at contentEq
      refine ⟨⟨?_, ?_, step.tableFits, step.sized logs.sized, ?_⟩,
        kdt, handle, .stored okEq inTime⟩
      · have added := accepted_recordAdd call okEq
        rw [acceptedRecords_snoc, added, Option.toList_some,
          encodeRecords_append, encodeRecords_singleton, locidxEq,
          ← logs.table_eq]
        exact contentEq
      · have lengthEq := congrArg List.length contentEq
        rw [List.length_append, length_encodeRecord] at lengthEq
        exact (sizeEq.trans (congrArg (· + recordsiz) logs.tablesize)).trans
          lengthEq.symm
      · intro tid kdt' handle'
        rcases Logs.rested_after (.empty holds) tid kdt' handle' with
            old | new
        · refine (logs.rested tid kdt' old).grow ?_
          have lengthEq := congrArg List.length contentEq
          rw [List.length_append] at lengthEq
          exact lengthEq.symm ▸ Nat.le_add_right _ _
        · exact new

/-- Every tidy call keeps the log. -/
theorem step
    (logs : s.Logs dones) (step : s.Step done s')
    (tidy : s.Tidy done.toRequest) :
    s'.Logs (dones ++ [done]) := by
  cases call : done.call with
  | tableOpen loc table =>
      have opened := step.opened call
      have none : done.accepted = none :=
        accepted_other (by rw [call]; rfl)
      refine logs.keep step none opened.table_eq ?_ ?_
      · rcases opened.tablesize with same | ⟨zero, fetched⟩
        · exact same
        · rw [fetched, logs.tablesize]
      · intro tid kdt handle
        exact (opened.handles tid kdt handle).imp_right fun fresh =>
          .empty fresh.table
  | recordAdd kdr =>
      exact (logs.recordAdd step tidy call).1
  | search ke maxnlocs =>
      have none : done.accepted = none :=
        accepted_other (by rw [call]; rfl)
      obtain ⟨kdt, ctx, handle, looked, _, rfl⟩ :=
        step.looked call logs.sized
      refine logs.keep step none looked.content_eq looked.tablesize_eq
        (Logs.rested_after ?_)
      have rested := looked.rested (logs.rested _ _ handle)
      rw [looked.content_eq] at rested
      exact rested

end Logs

/-! ### Runs that are computed -/

/-- What is performed under a condition on requests is a step under it. -/
theorem guarded_perform
    {condition : Table → Request → Prop}
    [∀ s request, Decidable (condition s request)]
    (s : Table) (request : Request) (done : Done) (s' : Table)
    (performed :
      performIf (fun s request => decide (condition s request)) perform
          s request =
        some (done, s')) :
    Guarded Step (fun s done => condition s done.toRequest) s done
      s' := by
  refine guarded_performIf
    (fun s request done s' performed =>
      (step_perform s request done s' performed).1)
    ?_ s request done s' performed
  intro s request done s' performed checked
  rw [(step_perform s request done s' performed).2]
  exact of_decide_eq_true checked

/-- The answers for the last record and a locator that has an entry. -/
def known : Trace :=
  [.seek none, .read .full, .seek none, .read .full, .seek none,
    .read .full]

/-- The same where the last record is taken from the buffer. -/
def knownHeld : Trace :=
  [.seek none, .seek none, .read .full, .seek none, .read .full]

/-- Add records with the first times to a new table. -/
def addFirst : Nat → List Request
  | 0 => [Request.create 0]
  | 1 => [Request.create 0, Request.add 0 1 5 [1] Request.newLoc]
  | count + 1 =>
      addFirst count ++
        [Request.add 0 (Int64.ofNat (count + 1)) 5 [1] known]

/-- A search whose callback refuses the first record. -/
def refused : Request :=
  Request.ask 0 1 5 1
    [.read .full, .seek none, .read .full, .callback false]

/-- As many records were accepted, and the file is the log of them. -/
def showsLog (count : Nat) (dones : List Done) (s : Table) : Bool :=
  (acceptedRecords dones).length == count &&
    s.table.length == count * recordsiz

/--
The record log: after every run of tidy calls the table file is the log of
the accepted records, and the cached size is its length.
-/
theorem table_is_log
    {loc : List UInt8}
    (run :
      Run (Guarded Step fun s done => s.Tidy done.toRequest)
        (onDisk loc []) dones s) :
    s.table = encodeRecords (acceptedRecords dones) ∧
      s.base.kdbTablesize = s.table.length := by
  have logs : s.Logs dones :=
    run.invariant (logs_onDisk loc)
      fun _ _ _ _ logs turn => logs.step turn.1 turn.2
  exact ⟨logs.table_eq, logs.tablesize⟩

/-- A run to which `table_is_log` applies: two adds and a search between. -/
theorem table_is_log_two :
    ∃ dones s,
      Run (Guarded Step fun s done => s.Tidy done.toRequest)
        (onDisk [] []) dones s ∧
      showsLog 2 dones s = true ∧
      s.table = encodeRecords (acceptedRecords dones) ∧
      s.base.kdbTablesize = s.table.length := by
  obtain ⟨dones, s, run, shown⟩ :=
    Run.of_shown guarded_perform
      (show
        (performAll
            (performIf (fun s request => decide (s.Tidy request))
              perform)
            (onDisk [] [])
            (addFirst 1 ++
              [refused, Request.add 0 2 5 [1] known])).any
            (fun performed => showsLog 2 performed.1 performed.2) =
          true
        by decide +kernel)
  exact ⟨dones, s, run, shown, table_is_log run⟩

/-- No call met an error, and the file is longer than the log. -/
def showsExcess (dones : List Done) (s : Table) : Bool :=
  dones.all (fun done => decide done.trace.Clean) &&
    (encodeRecords (acceptedRecords dones)).length == 120 &&
    s.table.length == 144 && s.base.kdbTablesize == 120

/--
An interrupted search leaves three records in the buffer, and the next add of
the thread stores the last of them a second time.
-/
theorem table_is_not_log :
    ∃ dones s, Run Step (onDisk [] []) dones s ∧
      (∀ done ∈ dones, done.trace.Clean) ∧
      s.table ≠ encodeRecords (acceptedRecords dones) ∧
      s.base.kdbTablesize ≠ s.table.length := by
  obtain ⟨dones, s, run, shown⟩ :=
    Run.of_shown
      (fun s request done s' performed =>
        (step_perform s request done s' performed).1)
      (show
        (performAll perform (onDisk [] [])
            (addFirst 4 ++
              [refused, Request.add 0 5 5 [1] knownHeld])).any
            (fun performed => showsExcess performed.1 performed.2) =
          true
        by decide +kernel)
  simp only [showsExcess, Bool.and_eq_true, List.all_eq_true,
    decide_eq_true_eq, beq_iff_eq] at shown
  obtain ⟨⟨⟨clean, logged⟩, length⟩, cached⟩ := shown
  refine ⟨dones, s, run, clean, fun same => ?_, fun same => ?_⟩
  · have lengths := congrArg List.length same
    omega
  · omega

/-! ### The order of the records -/

/--
The buffer of a thread is empty, or it starts with the last record of the file
and holds at most two records.
-/
def Current (content : List UInt8) (kb : KcnBuf) : Prop :=
  kb.after = [] ∨
    kb.after.length ≤ 2 * recordsiz ∧
      kb.after.take recordsiz =
        content.drop (content.length - recordsiz)

/-- A call meets no error, and if it adds a record, its buffer is current. -/
def Timely (s : Table) (request : Request) : Prop :=
  request.trace.Clean ∧
    (request.call.record? ≠ none →
      ∀ kdt ∈ s.handles request.tid, Current s.table kdt.kdtTable.kb)

instance (content : List UInt8) (kb : KcnBuf) :
    Decidable (Current content kb) :=
  inferInstanceAs (Decidable (_ ∨ _))

instance (s : Table) (request : Request) :
    Decidable (s.Timely request) :=
  inferInstanceAs (Decidable (_ ∧ _))

theorem Current.few {content : List UInt8} {kb : KcnBuf}
    (current : Current content kb) :
    kb.after.length ≤ 2 * recordsiz := by
  rcases current with empty | ⟨few, _⟩
  · rw [empty]
    exact Nat.zero_le _
  · exact few

/-- A current buffer starts with the last record as soon as that is read. -/
theorem Current.lastBytes_eq {content : List UInt8} {kb : KcnBuf}
    (current : Current content kb) (some : recordsiz ≤ content.length) :
    (lastBytes content.length content kb).take recordsiz =
      content.drop (content.length - recordsiz) := by
  have lengthEq :
      (content.drop (content.length - recordsiz)).length = recordsiz := by
    rw [List.length_drop, Nat.sub_sub_self some]
  unfold lastBytes
  rcases current with empty | ⟨_, first⟩
  · rw [empty, List.nil_append]
    exact List.take_of_length_le (Nat.le_of_eq lengthEq)
  · have held : recordsiz ≤ kb.after.length := by
      have lengths := congrArg List.length first
      rw [lengthEq, List.length_take] at lengths
      exact Nat.le_trans (Nat.le_of_eq lengths.symm)
        (Nat.min_le_right _ _)
    rw [List.take_append_of_le_length held]
    exact first

theorem Timely.tidy {s : Table} {request : Request}
    (timely : s.Timely request) : s.Tidy request := by
  obtain ⟨clean, current⟩ := timely
  refine ⟨clean, fun kdr asked kdt handle => Or.inl ?_⟩
  have adds : request.call.record? ≠ none := by
    rw [show request.call.record? = some kdr from asked]
    exact Option.some_ne_none kdr
  exact (current adds kdt handle).few

/-- The first record is not younger than the second one. -/
def NotAfter (first second : KcndbDbRecord) : Prop :=
  first.kdrTime ≤ second.kdrTime

/-- Records in order stay so with one more that is not older than the last. -/
theorem pairwise_notAfter_snoc
    {kdrs : List KcndbDbRecord} {kdr : KcndbDbRecord}
    (ordered : kdrs.Pairwise NotAfter)
    (last : ∀ last ∈ kdrs.getLast?, NotAfter last kdr) :
    (kdrs ++ [kdr]).Pairwise NotAfter := by
  refine List.pairwise_append.mpr
    ⟨ordered, List.pairwise_singleton _ _, ?_⟩
  intro first member second new
  rw [List.mem_singleton.mp new]
  rcases List.eq_nil_or_concat kdrs with rfl | ⟨before, final, rfl⟩
  · cases member
  · have lastFits : NotAfter final kdr :=
      last final (by simp)
    rw [List.concat_eq_append] at ordered member
    rcases List.mem_append.mp member with earlier | same
    · have between : NotAfter first final :=
        (List.pairwise_append.mp ordered).2.2 first earlier final
          (by simp)
      exact Int64.le_trans between lastFits
    · rw [List.mem_singleton.mp same]
      exact lastFits

variable {s s' : Table} {dones : List Done} {done : Done}

/-- The last record of a log is at its end. -/
theorem Logs.decode_last
    (logs : s.Logs dones) {last : KcndbDbRecord}
    (lastEq : (records s.table).getLast? = some last) :
    recordsiz ≤ s.table.length ∧
      decodeRecord (s.table.drop (s.table.length - recordsiz)) = last := by
  rw [logs.table_eq, records_encodeRecords] at lastEq
  rw [logs.table_eq]
  rcases List.eq_nil_or_concat (acceptedRecords dones) with
    none | ⟨before, final, shape⟩
  · rw [none] at lastEq
    cases lastEq
  · rw [shape, List.concat_eq_append, List.map_append, List.map_singleton,
      List.getLast?_concat] at lastEq
    obtain rfl := Option.some.inj lastEq
    rw [shape, List.concat_eq_append, encodeRecords_append,
      encodeRecords_singleton, List.length_append, length_encodeRecord,
      Nat.add_sub_cancel, List.drop_left]
    refine ⟨Nat.le_add_left _ _, ?_⟩
    rw [← List.append_nil (encodeRecord final), decodeRecord_encodeRecord]

/-- With a current buffer an add is compared with the last record. -/
theorem Logs.comparedTime_eq
    (logs : s.Logs dones) {kb : KcnBuf} {last : KcndbDbRecord}
    (current : Current s.table kb)
    (lastEq : (records s.table).getLast? = some last) :
    comparedTime s.base.kdbTablesize s.table kb = last.kdrTime := by
  obtain ⟨some, decoded⟩ := logs.decode_last lastEq
  rw [comparedTime, logs.tablesize, if_neg (Nat.not_lt.mpr some),
    ← decodeRecord_take, current.lastBytes_eq some, decoded]

/-- A timely add is refused if it is older than the last record. -/
theorem Logs.late
    (logs : s.Logs dones) (step : s.Step done s')
    (timely : s.Timely done.toRequest) {kdr last : KcndbDbRecord}
    (call : done.call = .recordAdd kdr)
    (lastEq : (records s.table).getLast? = some last)
    (late : last.kdrTime > kdr.kdrTime) :
    done.result.ok = false ∧ done.result.errno = Errno.erange ∧
      s'.table = s.table := by
  obtain ⟨_, kdt, handle, adds⟩ :=
    logs.recordAdd step timely.tidy call
  have older :
      comparedTime s.base.kdbTablesize s.table kdt.kdtTable.kb >
        kdr.kdrTime := by
    have adds : done.toRequest.call.record? ≠ none := by
      rw [Call.record?_eq_some.mpr call]
      exact Option.some_ne_none kdr
    rw [logs.comparedTime_eq (timely.2 adds kdt handle) lastEq]
    exact late
  cases adds with
  | refused failed tableEq errno =>
      exact ⟨failed, errno older, tableEq⟩
  | stored _ inTime =>
      exact absurd older inTime

/-- The time of an accepted record is not below that of the last record. -/
theorem Logs.accepted_fits
    (logs : s.Logs dones) (step : s.Step done s')
    (timely : s.Timely done.toRequest) {stored : KcndbDbRecord}
    (accepted : done.accepted = some stored) :
    ∀ last ∈ (records s.table).getLast?, NotAfter last stored := by
  intro last lastEq
  cases call : done.call with
  | tableOpen loc table =>
      rw [accepted_other (by rw [call]; rfl)] at accepted
      cases accepted
  | search ke maxnlocs =>
      rw [accepted_other (by rw [call]; rfl)] at accepted
      cases accepted
  | recordAdd kdr =>
      cases ok : done.result.ok with
      | false =>
          rw [accepted_refused ok] at accepted
          cases accepted
      | true =>
          rw [accepted_recordAdd call ok] at accepted
          obtain rfl := Option.some.inj accepted
          by_contra late
          have refused :=
            (logs.late step timely call lastEq
              (Int64.not_le.mp late)).1
          rw [ok] at refused
          cases refused

/-- Timely calls keep the records of the file in order. -/
theorem Logs.ordered_step
    (logs : s.Logs dones) (step : s.Step done s')
    (timely : s.Timely done.toRequest)
    (ordered : (records s.table).Pairwise NotAfter) :
    (records s'.table).Pairwise NotAfter := by
  have logs' := logs.step step timely.tidy
  rw [logs'.table_eq, acceptedRecords_snoc, records_encodeRecords,
    List.map_append, ← records_encodeRecords, ← logs.table_eq]
  cases accepted : done.accepted with
  | none =>
      simpa using ordered
  | some stored =>
      refine pairwise_notAfter_snoc ordered fun last lastEq => ?_
      exact logs.accepted_fits step timely accepted last lastEq

theorem ordered_onDisk (loc : List UInt8) :
    (records (onDisk loc []).table).Pairwise NotAfter := by
  have short : (onDisk loc []).table.length < recordsiz :=
    Nat.zero_lt_succ 23
  rw [records_short short]
  exact .nil

/-- The file is a log whose records are in order. -/
structure LogsInOrder (dones : List Done) (s : Table) : Prop where
  logs : s.Logs dones
  ordered : (records s.table).Pairwise NotAfter

/--
Time order: after every run of timely calls the times in the file do not
decrease, and a timely add that is older than the last record is refused with
`ERANGE` and leaves the file as it is.
-/
theorem times_in_order
    {loc : List UInt8}
    (run :
      Run (Guarded Step fun s done => s.Timely done.toRequest)
        (onDisk loc []) dones s) :
    (records s.table).Pairwise NotAfter ∧
      ∀ done s' kdr last,
        s.Step done s' → s.Timely done.toRequest →
        done.call = .recordAdd kdr →
        (records s.table).getLast? = some last →
        last.kdrTime > kdr.kdrTime →
          done.result.ok = false ∧
            done.result.errno = Errno.erange ∧ s'.table = s.table := by
  have inOrder : LogsInOrder dones s :=
    run.invariant ⟨logs_onDisk loc, ordered_onDisk loc⟩
      fun _ _ _ _ before turn =>
        ⟨before.logs.step turn.1 turn.2.tidy,
          before.logs.ordered_step turn.1 turn.2 before.ordered⟩
  refine ⟨inOrder.ordered, ?_⟩
  intro done s' kdr last step timely call lastEq late
  exact inOrder.logs.late step timely call lastEq late

/-- A request that is older than the records of `addFirst`. -/
def tooOld : Request where
  tid := 0
  call := .recordAdd {
    kdrTime := 0, kdrVal := 5, kdrLocidx := 0, kdrLoc := [1]
  }
  errno := 0
  trace := [.lock none, .seek none, .read .full]

/-- The last record has the time 3, and one that is too old can be asked. -/
def awaitsTooOld (_ : List Done) (s : Table) : Bool :=
  ((records s.table).getLast?.map KcndbDbRecord.kdrTime) == some 3 &&
    decide (s.Timely tooOld) && (s.perform tooOld).isSome

/--
A run to which `times_in_order` applies, with an add to a buffer that holds the
last record, and an add that is too old.
-/
theorem times_in_order_two :
    ∃ dones s done s',
      Run (Guarded Step fun s done => s.Timely done.toRequest)
        (onDisk [] []) dones s ∧
      s.Step done s' ∧ done.toRequest = tooOld ∧
      (records s.table).Pairwise NotAfter ∧
      done.result.ok = false ∧ done.result.errno = Errno.erange ∧
      s'.table = s.table := by
  obtain ⟨dones, s, run, shown⟩ :=
    Run.of_shown guarded_perform
      (show
        (performAll
            (performIf (fun s request => decide (s.Timely request))
              perform)
            (onDisk [] [])
            (addFirst 2 ++
              [refused, Request.add 0 3 5 [1] knownHeld])).any
            (fun performed => awaitsTooOld performed.1 performed.2) =
          true
        by decide +kernel)
  simp only [awaitsTooOld, Bool.and_eq_true, beq_iff_eq,
    decide_eq_true_eq, Option.isSome_iff_exists] at shown
  obtain ⟨⟨lastTime, timely⟩, ⟨done, s'⟩, performed⟩ := shown
  obtain ⟨step, same⟩ := step_perform _ _ _ _ performed
  obtain ⟨last, lastEq, timeEq⟩ := Option.map_eq_some_iff.mp lastTime
  obtain ⟨ordered, late⟩ := times_in_order run
  refine ⟨dones, s, done, s', run, step, same, ordered, ?_⟩
  refine late done s' _ last step (same ▸ timely)
    (congrArg Request.call same) lastEq ?_
  rw [timeEq]
  decide

/-- No call met an error, and an add that is too old was accepted. -/
def showsDisorder (dones : List Done) (s : Table) : Bool :=
  dones.all (fun done => decide done.trace.Clean) &&
    (records s.table).map KcndbDbRecord.kdrTime == [1, 2, 3, 2]

/--
An interrupted search leaves two records in the buffer, and the next add of
the thread is compared with the first of them and not with the last record.
-/
theorem times_out_of_order :
    ∃ dones s, Run Step (onDisk [] []) dones s ∧
      (∀ done ∈ dones, done.trace.Clean) ∧
      ¬ (records s.table).Pairwise NotAfter := by
  obtain ⟨dones, s, run, shown⟩ :=
    Run.of_shown
      (fun s request done s' performed =>
        (step_perform s request done s' performed).1)
      (show
        (performAll perform (onDisk [] [])
            (addFirst 3 ++
              [refused, Request.add 0 2 5 [1] knownHeld])).any
            (fun performed => showsDisorder performed.1 performed.2) =
          true
        by decide +kernel)
  simp only [showsDisorder, Bool.and_eq_true, List.all_eq_true,
    decide_eq_true_eq, beq_iff_eq] at shown
  obtain ⟨clean, times⟩ := shown
  refine ⟨dones, s, run, clean, fun ordered => ?_⟩
  have sorted :
      ((records s.table).map KcndbDbRecord.kdrTime).Pairwise
        fun first second => first ≤ second :=
    List.pairwise_map.mpr ordered
  rw [times] at sorted
  exact absurd sorted (by decide)

end Table

end Kcn
