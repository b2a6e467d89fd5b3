import Kcn.Cached

namespace Kcn

open Program Bytes KcnBuf KcndbDb

/-!
# What a table stores

A table stores samples: a time, a value and the locator of where the value was
measured.  `Stores` relates the two files to the samples, in the order in which
they arrived.  Calls that meet errors keep this relation as long as no
transfer is torn, and so does starting the daemon again.
-/

/-- A value that was measured at some time, with its locator. -/
structure Sample where
  time : Int64
  val : UInt64
  loc : List UInt8
  deriving DecidableEq

/-- What a record tells to those who search. -/
def KcndbDbRecord.sample (kdr : KcndbDbRecord) : Sample where
  time := kdr.kdrTime
  val := kdr.kdrVal
  loc := kdr.kdrLoc

/-- A record with what a sample tells. -/
def Sample.record (sample : Sample) : KcndbDbRecord where
  kdrTime := sample.time
  kdrVal := sample.val
  kdrLocidx := 0
  kdrLoc := sample.loc

/-- A stored record has the locator of the sample as its entry. -/
structure Kept
    (content : List UInt8) (kdr : KcndbDbRecord) (sample : Sample) :
    Prop where
  time_eq : kdr.kdrTime = sample.time
  val_eq : kdr.kdrVal = sample.val
  behind : locIndextablesiz ≤ kdr.kdrLocidx.toNat
  entry : Entry content kdr.kdrLocidx.toNat sample.loc

theorem Kept.mono
    {content content' : List UInt8} {kdr : KcndbDbRecord}
    {sample : Sample} (kept : Kept content kdr sample)
    (heap : HeapKept content content') :
    Kept content' kdr sample :=
  ⟨kept.time_eq, kept.val_eq, kept.behind,
    heap.entry _ _ kept.behind kept.entry⟩

@[simp] theorem length_encodeRecords (kdrs : List KcndbDbRecord) :
    (encodeRecords kdrs).length = recordsiz * kdrs.length := by
  induction kdrs with
  | nil =>
      rfl
  | cons kdr kdrs inductionHypothesis =>
      have split :
          encodeRecords (kdr :: kdrs) =
            encodeRecord kdr ++ encodeRecords kdrs :=
        List.flatMap_cons
      rw [split, List.length_append, length_encodeRecord,
        inductionHypothesis, List.length_cons, Nat.mul_succ,
        Nat.add_comm]

/-- Nothing is left over in the buffer. -/
def Drained (kb : KcnBuf) : Prop :=
  kb.before = [] ∧ kb.after = []

instance (kb : KcnBuf) : Decidable (Drained kb) :=
  inferInstanceAs (Decidable (_ ∧ _))

namespace Samples

/-- The time that a new sample is compared with. -/
def lastTime (samples : List Sample) : Int64 :=
  (samples.map Sample.time).getLast?.getD 0

end Samples

namespace Table

/-- The files of the table hold the samples. -/
def Stores (s : Table) (samples : List Sample) : Prop :=
  ∃ kdrs, s.table = encodeRecords kdrs ∧
    List.Forall₂ (Kept s.loc) kdrs samples

theorem stores_nil (loc : List UInt8) : (onDisk loc []).Stores [] :=
  ⟨[], rfl, .nil⟩

variable {s s' : Table} {samples : List Sample} {done : Done}

namespace Stores

/-- The files hold the samples as long as the entries are kept. -/
theorem keep
    (stores : s.Stores samples) (tableEq : s'.table = s.table)
    (heap : HeapKept s.loc s'.loc) :
    s'.Stores samples := by
  obtain ⟨kdrs, encoded, kept⟩ := stores
  exact ⟨kdrs, tableEq.trans encoded,
    kept.imp fun _ _ one => one.mono heap⟩

/-- One more record is one more sample. -/
theorem snoc
    {kdr : KcndbDbRecord} {sample : Sample}
    (stores : s.Stores samples)
    (tableEq : s'.table = s.table ++ encodeRecord kdr)
    (heap : HeapKept s.loc s'.loc)
    (new : Kept s'.loc kdr sample) :
    s'.Stores (samples ++ [sample]) := by
  obtain ⟨kdrs, encoded, kept⟩ := stores
  refine ⟨kdrs ++ [kdr], ?_, ?_⟩
  · rw [tableEq, encoded, encodeRecords_append,
      encodeRecords_singleton]
  · exact List.rel_append (kept.imp fun _ _ one => one.mono heap)
      (.cons new .nil)

/-- The times of the records are those of the samples. -/
theorem times_eq
    {content : List UInt8} {kdrs : List KcndbDbRecord}
    (kept : List.Forall₂ (Kept content) kdrs samples) :
    kdrs.map KcndbDbRecord.kdrTime = samples.map Sample.time := by
  induction kept with
  | nil =>
      rfl
  | cons first _ inductionHypothesis =>
      rw [List.map_cons, List.map_cons, first.time_eq,
        inductionHypothesis]

/-- With an empty buffer a new sample is compared with the last one. -/
theorem comparedTime_eq
    (stores : s.Stores samples) {kb : KcnBuf}
    (empty : kb.after = []) :
    comparedTime s.table.length s.table kb =
      Samples.lastTime samples := by
  obtain ⟨kdrs, encoded, kept⟩ := stores
  rw [Samples.lastTime, ← times_eq kept, encoded, comparedTime,
    length_encodeRecords]
  rcases List.eq_nil_or_concat kdrs with rfl | ⟨before, last, rfl⟩
  · rfl
  · rw [List.concat_eq_append]
    have large :
        ¬ recordsiz * (before ++ [last]).length < recordsiz := by
      rw [List.length_append, List.length_singleton, Nat.mul_succ]
      omega
    have place :
        recordsiz * (before ++ [last]).length - recordsiz =
          (encodeRecords before).length := by
      rw [length_encodeRecords, List.length_append,
        List.length_singleton, Nat.mul_succ]
      omega
    have decoded := decodeRecord_encodeRecord last []
    rw [List.append_nil] at decoded
    rw [if_neg large, lastBytes, empty, List.nil_append, place,
      encodeRecords_append, List.drop_left, encodeRecords_singleton,
      decoded]
    simp

end Stores

/-- The buffer of the calling thread is empty after the call. -/
def LeavesDrained (done : Done) (s' : Table) : Prop :=
  ∀ kdt ∈ s'.handles done.tid, Drained kdt.kdtTable.kb

/-- What adding a record does to a table that stores samples. -/
inductive AddsSample
    (s : Table) (samples : List Sample) (kdr : KcndbDbRecord)
    (done : Done) (s' : Table) : Prop where
  | late :
      done.result.ok = false →
      Samples.lastTime samples > kdr.kdrTime →
      done.result.errno = Errno.erange →
      s'.table = s.table →
      s'.loc = s.loc →
      LeavesDrained done s' →
      AddsSample s samples kdr done s'
  | failed :
      done.result.ok = false →
      ¬ done.trace.Clean →
      s'.table = s.table →
      AddsSample s samples kdr done s'
  | stored (stored : KcndbDbRecord) :
      done.result.ok = true →
      done.accepted = some stored →
      stored.sample = kdr.sample →
      ¬ Samples.lastTime samples > kdr.kdrTime →
      s'.table = s.table ++ encodeRecord stored →
      Kept s'.loc stored stored.sample →
      LeavesDrained done s' →
      AddsSample s samples kdr done s'

/-- The handle that a call with the given outcome leaves. -/
theorem leavesDrained_after
    {ctx : TableCtx} (tidEq : ctx.tid = done.tid)
    (before : ctx.table.kb.before = [])
    (after : ctx.table.kb.after = []) :
    LeavesDrained done (s.after ctx (some (handleOf ctx))) := by
  intro kdt handle
  rcases handles_after handle with ⟨other, _⟩ | ⟨_, new⟩
  · exact absurd tidEq.symm other
  · obtain rfl := Option.some.inj new
    exact ⟨before, after⟩

/-- Adding a record, whatever errors it meets. -/
theorem Cached.add
    (cached : s.Cached) (stores : s.Stores samples)
    (step : s.Step done s') {kdr : KcndbDbRecord}
    (call : done.call = .recordAdd kdr)
    (untorn : ¬ done.trace.Torn)
    (short : kdr.kdrLoc.length ≤ kcnMsgMaxlocsiz)
    (leads : Leads s.loc kdr.kdrLoc)
    (drained : ∀ kdt ∈ s.handles done.tid, Drained kdt.kdtTable.kb) :
    s'.Cached ∧ HeapKept s.loc s'.loc ∧
      s.AddsSample samples kdr done s' := by
  have brief (kdt : KcndbDbTable) (handle : kdt ∈ s.handles done.tid) :
      kdt.kdtTable.kb.before = [] ∧ Brief s.table kdt.kdtTable.kb := by
    obtain ⟨before, after⟩ := drained kdt handle
    refine ⟨before, ?_, ?_⟩ <;> rw [after] <;> exact Nat.zero_le _
  obtain ⟨kdt, kdr', ctx, handle, outcome, locidxEq, errnoEq, tidEq,
    afterEq, cached', heap⟩ :=
    cached.stores_add step call untorn short leads brief
  obtain ⟨_, after⟩ := drained kdt handle
  refine ⟨cached', heap, ?_⟩
  have timeEq :
      (s.seen done kdt).lastTime = Samples.lastTime samples := by
    have sizeEq : (s.seen done kdt).base.kdbTablesize =
        s.table.length := (cached.opened _ _ handle).tablesize
    rw [TableCtx.lastTime, sizeEq]
    exact stores.comparedTime_eq after
  generalize okEq : done.result.ok = ok at outcome
  rw [afterEq]
  cases outcome with
  | torn _ _ torn =>
      exact absurd torn untorn
  | late _ late errno same kept before' _ emptied =>
      exact .late okEq (timeEq ▸ late) (errnoEq.symm.trans errno)
        kept.content_eq same.content_eq
        (leavesDrained_after tidEq before' (emptied after))
  | failed _ _ unclean _ tableKept _ =>
      exact .failed okEq unclean tableKept.content_eq
  | stored _ idx inTime _ behind entry _ contentEq holds =>
      have accepted := accepted_recordAdd call okEq
      rw [locidxEq] at accepted
      exact .stored { kdr with kdrLocidx := idx } okEq accepted rfl
        (timeEq ▸ inTime) contentEq ⟨rfl, rfl, behind, entry⟩
        (leavesDrained_after tidEq holds.before_eq holds.after_eq)

/-- A search leaves the files and their sizes alone. -/
theorem Cached.search
    (cached : s.Cached) (step : s.Step done s') {ke : KcnEq}
    {maxnlocs : Nat} (call : done.call = .search ke maxnlocs) :
    s'.Cached ∧ s'.table = s.table ∧ s'.loc = s.loc := by
  obtain ⟨kdt, ctx, handle, looked, _, afterEq⟩ :=
    step.looked call cached.sized
  have known := cached.opened _ _ handle
  have tableEq : s'.table = s.table := by
    rw [afterEq]
    exact looked.content_eq
  have locEq : s'.loc = s.loc := by
    rw [afterEq]
    exact looked.locContent_eq
  refine ⟨cached.after step handle (.of_eq locEq) ?_ ?_, tableEq,
    locEq⟩
  · rw [locEq, ← known.locsize, afterEq]
    exact looked.locsize_eq
  · rw [tableEq, ← known.tablesize, afterEq]
    exact looked.tablesize_eq

/-! ### Runs with errors -/

/--
No transfer is torn; a record to be added has a locator that a message can
carry and whose walk is not misled, and the buffer of the thread is empty.
-/
def Untorn (s : Table) (request : Request) : Prop :=
  ¬ request.trace.Torn ∧
    ∀ kdr ∈ request.call.record?,
      kdr.kdrLoc.length ≤ kcnMsgMaxlocsiz ∧ Leads s.loc kdr.kdrLoc ∧
        ∀ kdt ∈ s.handles request.tid, Drained kdt.kdtTable.kb

/-- The records that the acts of a run stored, in order. -/
def storedRecords (acts : List Act) : List KcndbDbRecord :=
  acts.filterMap Act.accepted

theorem storedRecords_snoc (acts : List Act) (act : Act) :
    storedRecords (acts ++ [act]) =
      storedRecords acts ++ act.accepted.toList := by
  cases accepted : act.accepted <;>
    simp [storedRecords, accepted]

/-- The entries of the records of before, and that of a new one. -/
theorem kept_snoc
    {acts : List Act} {act : Act}
    (kept : ∀ kdr ∈ storedRecords acts, Kept s.loc kdr kdr.sample)
    (heap : HeapKept s.loc s'.loc)
    (new : ∀ kdr ∈ act.accepted, Kept s'.loc kdr kdr.sample) :
    ∀ kdr ∈ storedRecords (acts ++ [act]),
      Kept s'.loc kdr kdr.sample := by
  intro kdr member
  rw [storedRecords_snoc] at member
  rcases List.mem_append.mp member with old | last
  · exact (kept kdr old).mono heap
  · exact new kdr (Option.mem_toList.mp last)

/-- What holds of the files after acts that started with given samples. -/
structure Lasting
    (samples : List Sample) (acts : List Act) (s : Table) :
    Prop where
  cached : s.Cached
  stores :
    s.Stores (samples ++ (storedRecords acts).map KcndbDbRecord.sample)
  kept : ∀ kdr ∈ storedRecords acts, Kept s.loc kdr kdr.sample

namespace Lasting

variable {acts : List Act} {act : Act}

/-- An act that stores no record. -/
theorem keep
    (lasting : Lasting samples acts s) (cached : s'.Cached)
    (none : act.accepted = none) (tableEq : s'.table = s.table)
    (heap : HeapKept s.loc s'.loc) :
    Lasting samples (acts ++ [act]) s' := by
  have same : storedRecords (acts ++ [act]) = storedRecords acts := by
    rw [storedRecords_snoc, none, Option.toList_none, List.append_nil]
  refine ⟨cached, ?_, kept_snoc lasting.kept heap ?_⟩
  · rw [same]
    exact lasting.stores.keep tableEq heap
  · rw [none]
    nofun

/-- An act that stores a record. -/
theorem store
    (lasting : Lasting samples acts s) (cached : s'.Cached)
    {stored : KcndbDbRecord} (accepted : act.accepted = some stored)
    (tableEq : s'.table = s.table ++ encodeRecord stored)
    (heap : HeapKept s.loc s'.loc)
    (new : Kept s'.loc stored stored.sample) :
    Lasting samples (acts ++ [act]) s' := by
  have more :
      storedRecords (acts ++ [act]) =
        storedRecords acts ++ [stored] := by
    rw [storedRecords_snoc, accepted, Option.toList_some]
  refine ⟨cached, ?_, kept_snoc lasting.kept heap ?_⟩
  · rw [more, List.map_append, ← List.append_assoc]
    exact lasting.stores.snoc tableEq heap new
  · rw [accepted]
    rintro kdr ⟨⟩
    exact new

/-- The index that an open creates keeps the entries there are. -/
theorem heapKept_open
    (opened : s'.loc = s.loc ∨
      s.loc = [] ∧ s'.loc = List.replicate locIndextablesiz 0) :
    HeapKept s.loc s'.loc := by
  rcases opened with same | ⟨nothing, created⟩
  · exact .of_eq same
  · rw [nothing, created]
    exact HeapKept.append [] _

/-- Every act without a torn transfer keeps the samples. -/
theorem step
    (lasting : Lasting samples acts s)
    (lives : Lives Untorn s act s') :
    Lasting samples (acts ++ [act]) s' := by
  have cached := lasting.cached
  cases lives with
  | restart =>
      exact lasting.keep cached.restarted rfl rfl (.refl _)
  | call done _ step condition =>
      obtain ⟨untorn, adds⟩ := condition
      cases call : done.call with
      | tableOpen loc table =>
          obtain ⟨cached', tableEq, opened⟩ :=
            cached.opens step call untorn
          exact lasting.keep cached'
            (accepted_other (by rw [call]; rfl)) tableEq
            (heapKept_open opened)
      | search ke maxnlocs =>
          obtain ⟨cached', tableEq, locEq⟩ := cached.search step call
          exact lasting.keep cached'
            (accepted_other (by rw [call]; rfl)) tableEq
            (.of_eq locEq)
      | recordAdd kdr =>
          obtain ⟨short, leads, drained⟩ :=
            adds kdr (Call.record?_eq_some.mpr call)
          obtain ⟨cached', heap, outcome⟩ :=
            cached.add lasting.stores step call untorn short leads
              drained
          cases outcome with
          | late refused _ _ tableEq _ _ =>
              exact lasting.keep cached' (accepted_refused refused)
                tableEq heap
          | failed refused _ tableEq =>
              exact lasting.keep cached' (accepted_refused refused)
                tableEq heap
          | stored stored _ accepted _ _ tableEq new _ =>
              exact lasting.store cached' accepted tableEq heap new

end Lasting

/-- A locator that is stored is found as it was added. -/
theorem Cached.lookup
    (cached : s.Cached) {kdr : KcndbDbRecord}
    (kept : Kept s.loc kdr kdr.sample) {tid : Nat} {kdt : KcndbDbTable}
    (handle : s.handles tid = some kdt) {env : Env}
    (undisturbed : Trace.Clean env.trace ∧
      ∀ event ∈ env.trace, event.ReadsFull) :
    wp (locLookup kdr.kdrLocidx)
      (fun result _ => result = some kdr.kdrLoc) (· = .starved)
      (s.view tid kdt env) := by
  obtain ⟨slots, locsize, _⟩ := cached.opened _ _ handle
  obtain ⟨locSize, _⟩ := cached.sized _ _ handle
  have ready : (s.view tid kdt env).LocReady :=
    ⟨locSize, slots, locsize, cached.disk.locFits⟩
  exact wp_locLookup_entry ready kept.entry undisturbed

/-- The slot of the locator is vacant or leads to its entry at once. -/
def LeadsAtOnce (content loc : List UInt8) : Prop :=
  let idx := slotAt content (slotOff (locHash loc))
  idx = 0 ∨
    locIndextablesiz ≤ idx.toNat ∧ loc.length ≤ kcnMsgMaxlocsiz ∧
      slice content idx.toNat (2 + loc.length) = encodeLoc loc ∧
      idx.toNat + 2 + loc.length + 8 ≤ content.length ∧
      slotAt content (idx.toNat + 2 + loc.length) = 0

instance (content loc : List UInt8) :
    Decidable (LeadsAtOnce content loc) :=
  inferInstanceAs (Decidable (_ ∨ _ ∧ _ ∧ _ ∧ _ ∧ _))

theorem LeadsAtOnce.leads
    {content loc : List UInt8} (atOnce : LeadsAtOnce content loc) :
    Leads content loc := by
  rcases atOnce with vacant | ⟨behind, short, stored, inside, last⟩
  · exact leads_of_vacant vacant
  · have taken :
        Taken content (locHash loc)
          (slotAt content (slotOff (locHash loc))) loc :=
      ⟨rfl, behind, ⟨short, stored, inside⟩, last, rfl⟩
    exact taken.leads rfl

/-- An act that is asked for: a request, or a restart. -/
abbrev Ask : Type :=
  Option Request

/-- Perform a request that passes a check, or restart. -/
def performAct
    (check : Table → Request → Bool) (s : Table) :
    Ask → Option (Act × Table)
  | some request =>
      (performIf check perform s request).map fun performed =>
        (.call performed.1, performed.2)
  | none => some (.restart, onDisk s.loc s.table)

/-- What is performed is an act, where the check tells the condition. -/
theorem lives_performAct
    {check : Table → Request → Bool}
    {condition : Table → Request → Prop}
    (sound : ∀ s request, check s request = true → condition s request)
    (s : Table) (ask : Ask) (act : Act) (s' : Table)
    (performed : performAct check s ask = some (act, s')) :
    Lives condition s act s' := by
  cases ask with
  | none =>
      obtain ⟨rfl, rfl⟩ := Prod.mk.inj (Option.some.inj performed)
      exact .restart
  | some request =>
      obtain ⟨⟨done, s₁⟩, ran, same⟩ :=
        Option.map_eq_some_iff.mp performed
      obtain ⟨rfl, rfl⟩ := Prod.mk.inj same
      unfold performIf at ran
      split at ran
      · rename_i passes
        obtain ⟨step, requestEq⟩ := step_perform _ _ _ _ ran
        exact .call done s₁ step (requestEq ▸ sound s request passes)
      · cases ran

/-- No answer is an error, or no write moves a byte. -/
def seemsUntorn (trace : Trace) : Bool :=
  decide trace.Clean ||
    trace.all fun event =>
      match event with
      | .write (.fail _) => true
      | .write _ => false
      | _ => true

theorem not_torn_of_seems
    {trace : Trace} (seems : seemsUntorn trace = true) :
    ¬ trace.Torn := by
  simp only [seemsUntorn, Bool.or_eq_true, decide_eq_true_eq,
    List.all_eq_true] at seems
  rcases seems with clean | still
  · exact clean.not_torn
  · rintro ⟨before, block, after, rfl, _, ⟨event, member, writes⟩, _⟩
    have idle := still event (by simp [member])
    cases event with
    | write transfer =>
        cases transfer with
        | fail _ =>
            exact writes
        | full | short _ =>
            cases idle
    | openFile _ | lock _ | stat _ | seek _ | read _ | callback _ =>
        exact writes

/-- What tells that a request is `Untorn`. -/
def checkUntorn (s : Table) (request : Request) : Bool :=
  seemsUntorn request.trace &&
    decide
      (∀ kdr ∈ request.call.record?,
        kdr.kdrLoc.length ≤ kcnMsgMaxlocsiz ∧
          LeadsAtOnce s.loc kdr.kdrLoc ∧
          ∀ kdt ∈ s.handles request.tid, Drained kdt.kdtTable.kb)

theorem untorn_of_check
    (s : Table) (request : Request)
    (passes : checkUntorn s request = true) :
    s.Untorn request := by
  simp only [checkUntorn, Bool.and_eq_true, decide_eq_true_eq] at passes
  obtain ⟨seems, adds⟩ := passes
  refine ⟨not_torn_of_seems seems, fun kdr asked => ?_⟩
  obtain ⟨short, atOnce, drained⟩ := adds kdr asked
  exact ⟨short, atOnce.leads, drained⟩

/-- A request to add a record for which there is no space left. -/
def noSpace : Request where
  tid := 0
  call := .recordAdd {
    kdrTime := 2, kdrVal := 5, kdrLocidx := 0, kdrLoc := [2]
  }
  errno := 0
  trace :=
    [.lock none, .seek none, .read .full, .seek none, .read .full,
      .seek none, .write (.fail .enospc)]

/-- A request to open a table after a restart. -/
def reopen : Request where
  tid := 1
  call := .tableOpen Request.zeros Request.zeros
  errno := 0
  trace :=
    [.openFile none, .openFile none, .lock none, .stat none, .stat none]

/-- Two records around a failure and a restart. -/
def aroundFailure : List Ask :=
  [some (Request.create 0), some (Request.add 0 1 5 [1] Request.newLoc),
    some noSpace, none, some reopen, some (Request.add 1 3 5 [1] known)]

/-- Two records are stored and the second thread has a handle. -/
def showsTwo (acts : List Act) (s : Table) : Bool :=
  acts.length == 6 &&
    (storedRecords acts).map KcndbDbRecord.sample ==
      [⟨1, 5, [1]⟩, ⟨3, 5, [1]⟩] &&
    (s.handles 1).isSome

end Table

end Kcn
