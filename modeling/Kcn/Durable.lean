import Kcn.Finding
import Kcn.Store

namespace Kcn

open Program Bytes KcnBuf KcndbDb

/-!
# Locators that last

Opens and adds keep the cached sizes in step with the files, and the entries of
all accepted records, as long as no transfer is torn, no walk is misled and no
thread adds a record after one that it could not write.
-/

/-- The call opens the table or adds a record. -/
def Call.OpensOrAdds : Call → Prop
  | .tableOpen _ _ | .recordAdd _ => True
  | .search _ _ => False

instance (call : Call) : Decidable call.OpensOrAdds :=
  match call with
  | .tableOpen _ _ | .recordAdd _ => .isTrue trivial
  | .search _ _ => .isFalse not_false

namespace Brief

variable {content content' : List UInt8} {kb : KcnBuf}

theorem empty
    {sp : Nat} (holds : kb.Holds kcndbFileBufsiz sp [] []) :
    Brief content kb := by
  refine ⟨?_, ?_⟩ <;> rw [holds.after_eq] <;> exact Nat.zero_le _

theorem grow
    (brief : Brief content kb)
    (grown : content.length ≤ content'.length) :
    Brief content' kb :=
  ⟨Nat.le_trans brief.held grown, brief.few⟩

end Brief

namespace Table

variable {s s' : Table} {done : Done} {acts : List Act} {act : Act}

/-- What lasts over opens and adds. -/
structure Durable (acts : List Act) (s : Table) : Prop where
  cached : s.Cached
  brief : ∀ tid kdt, s.handles tid = some kdt →
    Brief s.table kdt.kdtTable.kb
  kept : ∀ kdr ∈ storedRecords acts, Kept s.loc kdr kdr.sample

/-- The cursor of every buffer of the table file is at its start. -/
def Started (s : Table) : Prop :=
  ∀ tid kdt, s.handles tid = some kdt → kdt.kdtTable.kb.before = []

/-- A message can carry the locator, and the walk for it is not misled. -/
def Guided (s : Table) (kdr : KcndbDbRecord) : Prop :=
  kdr.kdrLoc.length ≤ kcnMsgMaxlocsiz ∧ Leads s.loc kdr.kdrLoc

/--
An open, or an add whose walk is not misled, that tears no transfer.  The
cursor of the thread's buffer is at its start, as it is unless the thread could
not write the record that it added last.
-/
def Whole (s : Table) (request : Request) : Prop :=
  request.call.OpensOrAdds ∧ ¬ request.trace.Torn ∧
    ∀ kdr ∈ request.call.record?,
      s.Guided kdr ∧
        ∀ kdt ∈ s.handles request.tid, kdt.kdtTable.kb.before = []

/-- An open, or an add whose walk is not misled, that meets no error. -/
def Smooth (s : Table) (request : Request) : Prop :=
  request.call.OpensOrAdds ∧ request.trace.Clean ∧
    ∀ kdr ∈ request.call.record?, s.Guided kdr

namespace Durable

theorem restarted (durable : Durable acts s) :
    Durable (acts ++ [.restart]) (onDisk s.loc s.table) :=
  ⟨durable.cached.restarted, (fun _ _ handle => by cases handle),
    kept_snoc durable.kept (.refl _) nofun⟩

/-- An open without a torn transfer. -/
theorem opens
    (durable : Durable acts s) (step : s.Step done s')
    {loc table : Block} (call : done.call = .tableOpen loc table)
    (untorn : ¬ done.trace.Torn) :
    Durable (acts ++ [.call done]) s' ∧ (s.Started → s'.Started) := by
  obtain ⟨cached, tableEq, locOpened⟩ :=
    durable.cached.opens step call untorn
  have handles := (step.opened call).handles
  have none : done.accepted = none :=
    accepted_other (by rw [call]; rfl)
  refine ⟨⟨cached, ?_, ?_⟩, ?_⟩
  · intro tid kdt handle
    rcases handles tid kdt handle with old | fresh
    · rw [tableEq]
      exact durable.brief tid kdt old
    · exact .empty fresh.table
  · refine kept_snoc durable.kept (Lasting.heapKept_open locOpened) ?_
    intro kdr accepted
    rw [Act.accepted, none] at accepted
    cases accepted
  · intro started tid kdt handle
    rcases handles tid kdt handle with old | fresh
    · exact started tid kdt old
    · exact fresh.table.before_eq

/-- What an add does to the handles and to the records. -/
theorem adds
    (durable : Durable acts s) (step : s.Step done s')
    {kdr : KcndbDbRecord} (call : done.call = .recordAdd kdr)
    (untorn : ¬ done.trace.Torn) (guided : s.Guided kdr)
    (started : ∀ kdt ∈ s.handles done.tid,
      kdt.kdtTable.kb.before = []) :
    Durable (acts ++ [.call done]) s' ∧
      (done.trace.Clean → s.Started → s'.Started) := by
  have brief (kdt : KcndbDbTable) (handle : kdt ∈ s.handles done.tid) :
      kdt.kdtTable.kb.before = [] ∧ Brief s.table kdt.kdtTable.kb :=
    ⟨started kdt handle, durable.brief _ _ handle⟩
  obtain ⟨kdt, kdr', ctx, _, outcome, locidxEq, _, _, afterEq, cached,
    heap⟩ :=
    durable.cached.stores_add step call untorn guided.1 guided.2 brief
  have own :
      s.table.length ≤ ctx.table.content.length ∧
        Brief ctx.table.content ctx.table.kb ∧
        (done.trace.Clean → ctx.table.kb.before = []) ∧
        ∀ stored ∈ done.accepted,
          Kept ctx.loc.content stored stored.sample := by
    generalize okEq : done.result.ok = ok at outcome
    cases outcome with
    | torn _ _ torn =>
        exact absurd torn untorn
    | late _ _ _ _ kept before brief _ =>
        refine ⟨(congrArg List.length kept.content_eq).ge, brief,
          fun _ => before, ?_⟩
        rw [accepted_refused okEq]
        nofun
    | failed _ _ unclean _ kept brief =>
        -- An append that fails leaves the cursor behind the record.
        refine ⟨(congrArg List.length kept.content_eq).ge, brief,
          fun clean => absurd clean unclean, ?_⟩
        rw [accepted_refused okEq]
        nofun
    | stored _ idx _ _ behind entry _ contentEq holds =>
        have length := congrArg List.length contentEq
        rw [List.length_append] at length
        refine ⟨length.symm ▸ Nat.le_add_right _ _, .empty holds,
          fun _ => holds.before_eq, ?_⟩
        rw [accepted_recordAdd call okEq, locidxEq]
        rintro stored ⟨⟩
        exact ⟨rfl, rfl, behind, entry⟩
  obtain ⟨grown, ownBrief, ownStart, new⟩ := own
  rw [afterEq] at cached heap ⊢
  refine ⟨⟨cached, ?_, kept_snoc durable.kept heap new⟩, ?_⟩
  · intro tid kdt' handle
    rcases handles_after handle with ⟨_, old⟩ | ⟨_, latest⟩
    · exact (durable.brief tid kdt' old).grow grown
    · obtain rfl := Option.some.inj latest
      exact ownBrief
  · intro clean started tid kdt' handle
    rcases handles_after handle with ⟨_, old⟩ | ⟨_, latest⟩
    · exact started tid kdt' old
    · obtain rfl := Option.some.inj latest
      exact ownStart clean

/-- Every act that tears no transfer. -/
theorem step
    (durable : Durable acts s) (lives : Lives Whole s act s') :
    Durable (acts ++ [act]) s' := by
  cases lives with
  | restart =>
      exact durable.restarted
  | call done _ step whole =>
      obtain ⟨plain, untorn, adds⟩ := whole
      cases call : done.call with
      | tableOpen loc table =>
          exact (durable.opens step call untorn).1
      | recordAdd kdr =>
          obtain ⟨guided, started⟩ :=
            adds kdr (Call.record?_eq_some.mpr call)
          exact (durable.adds step call untorn guided started).1
      | search ke maxnlocs =>
          simp only [call, Call.OpensOrAdds] at plain

/-- Every act that meets no error leaves the buffers at their start. -/
theorem smooth
    (durable : Durable acts s) (started : s.Started)
    (lives : Lives Smooth s act s') :
    Durable (acts ++ [act]) s' ∧ s'.Started := by
  cases lives with
  | restart =>
      exact ⟨durable.restarted, fun _ _ handle => by cases handle⟩
  | call done _ step smooth =>
      obtain ⟨plain, clean, guided⟩ := smooth
      have untorn := clean.not_torn
      cases call : done.call with
      | tableOpen loc table =>
          exact (durable.opens step call untorn).imp_right
            fun keeps => keeps started
      | recordAdd kdr =>
          have guided := guided kdr (Call.record?_eq_some.mpr call)
          exact (durable.adds step call untorn guided
            fun kdt handle => started _ kdt handle).imp_right
            fun keeps => keeps clean started
      | search ke maxnlocs =>
          simp only [call, Call.OpensOrAdds] at plain

end Durable

theorem durable_onDisk
    {loc table : List UInt8} (disk : (onDisk loc table).OnDisk) :
    Durable [] (onDisk loc table) := by
  refine ⟨cached_onDisk disk, (fun _ _ handle => by cases handle), ?_⟩
  simp [storedRecords]

/--
The thread finds the locator of a record at its index: a lookup with
undisturbed answers gives nothing else, and there are such answers with which
it returns.
-/
structure Finds
    (s : Table) (tid : Nat) (kdt : KcndbDbTable) (kdr : KcndbDbRecord) :
    Prop where
  only : ∀ env : Env,
    (Trace.Clean env.trace ∧
      ∀ event ∈ env.trace, event.ReadsFull) →
    wp (locLookup kdr.kdrLocidx)
      (fun result _ => result = some kdr.kdrLoc) (· = .starved)
      (s.view tid kdt env)
  returns : ∃ env ctx', Trace.Favourable env.trace ∧
    locLookup kdr.kdrLocidx (s.view tid kdt env) =
      .ok (some kdr.kdrLoc, ctx')

/-- The entry of a record is found. -/
theorem Cached.finds
    (cached : s.Cached) {kdr : KcndbDbRecord}
    (kept : Kept s.loc kdr kdr.sample) {tid : Nat} {kdt : KcndbDbTable}
    (handle : s.handles tid = some kdt) :
    s.Finds tid kdt kdr := by
  have only (env : Env)
      (undisturbed : Trace.Clean env.trace ∧
        ∀ event ∈ env.trace, event.ReadsFull) :=
    cached.lookup kept handle undisturbed
  obtain ⟨locSize, _⟩ := cached.sized _ _ handle
  have bounded := cached.disk.locFits
  have lenEq := kept.entry.lenAt_eq
  have inside := kept.entry.inside
  have short := kept.entry.short
  have block : kcnMsgMaxlocsiz ≤ kcndbFileBufsiz := by decide
  let ctx := s.view tid kdt { errno := 0, trace := [] }
  have small :
      lenAt ctx.loc.content kdr.kdrLocidx.toNat ≤ kcndbFileBufsiz := by
    rw [show ctx.loc.content = s.loc from rfl, lenEq]
    omega
  obtain ⟨taken, result, ctx', favourable, _, runs⟩ :
      Feasible TableCtx.traceLens Event.Favours
        (locLookup kdr.kdrLocidx) (fun _ _ => True) ctx :=
    feasible_locLookup locSize (by omega) small
  have favourable : Trace.Favourable taken := favourable
  have alone := runs []
  rw [List.append_nil] at alone
  have ran :
      locLookup kdr.kdrLocidx
          (s.view tid kdt { errno := 0, trace := taken }) =
        .ok (result, TableCtx.traceLens.set ctx' []) :=
    alone
  obtain rfl :=
    wp_ok (only _ ⟨favourable.clean, favourable.full⟩) ran
  exact ⟨only, _, _, favourable, ran⟩

/-! ### Locators over runs without errors -/

/-- The entries last, and the buffers are at their start, over such runs. -/
theorem smooth_run
    {loc table : List UInt8} (disk : (onDisk loc table).OnDisk)
    (run : Run (Lives Smooth) (onDisk loc table) acts s) :
    Durable acts s ∧ s.Started := by
  induction run with
  | nil =>
      exact ⟨durable_onDisk disk, fun _ _ handle => by cases handle⟩
  | snoc _ last inductionHypothesis =>
      exact inductionHypothesis.1.smooth inductionHypothesis.2 last

/-- What tells that a walk is not misled. -/
def guidedAtOnce (s : Table) (request : Request) : Bool :=
  decide
    (∀ kdr ∈ request.call.record?,
      kdr.kdrLoc.length ≤ kcnMsgMaxlocsiz ∧
        LeadsAtOnce s.loc kdr.kdrLoc)

theorem guided_of_atOnce
    {request : Request} (atOnce : guidedAtOnce s request = true) :
    ∀ kdr ∈ request.call.record?, s.Guided kdr := by
  intro kdr asked
  simp only [guidedAtOnce, decide_eq_true_eq] at atOnce
  exact (atOnce kdr asked).imp_right LeadsAtOnce.leads

/-- What tells that a request is `Smooth`. -/
def checkSmooth (s : Table) (request : Request) : Bool :=
  decide (request.call.OpensOrAdds ∧ request.trace.Clean) &&
    guidedAtOnce s request

theorem smooth_of_check
    (s : Table) (request : Request)
    (passes : checkSmooth s request = true) :
    s.Smooth request := by
  simp only [checkSmooth, Bool.and_eq_true, decide_eq_true_eq] at passes
  obtain ⟨⟨plain, clean⟩, atOnce⟩ := passes
  exact ⟨plain, clean, guided_of_atOnce atOnce⟩

/-- Two records of two locators around a restart. -/
def acrossRestart : List Ask :=
  [some (Request.create 0), some (Request.add 0 1 5 [1] Request.newLoc),
    none, some reopen,
    some (Request.add 1 3 5 [2]
      ([.seek none, .read .full] ++ Request.newLoc))]

/-- The records have the locators, and the second thread has a handle. -/
def showsLocs
    (locs : List (List UInt8)) (acts : List Act) (s : Table) : Bool :=
  (storedRecords acts).map KcndbDbRecord.kdrLoc == locs &&
    (s.handles 1).isSome

/-- An open, or an add of a locator that fits, that meets no error. -/
def Errorless (request : Request) : Prop :=
  request.call.OpensOrAdds ∧ request.trace.Clean ∧
    ∀ kdr ∈ request.call.record?, kdr.kdrLoc.length ≤ kcnMsgMaxlocsiz

instance (request : Request) : Decidable (Errorless request) :=
  inferInstanceAs (Decidable (_ ∧ _ ∧ _))

/-- What tells that a request is `Errorless`. -/
def checkErrorless (_ : Table) (request : Request) : Bool :=
  decide (Errorless request)

theorem errorless_of_check
    (s : Table) (request : Request)
    (passes : checkErrorless s request = true) :
    Errorless request :=
  of_decide_eq_true passes

/-- Two locators of one hash and length that agree up to a NUL. -/
def confusing : List Ask :=
  [some (Request.create 0),
    some (Request.add 0 1 5 [0, 0] Request.newLoc),
    some (Request.add 0 2 5 [0, 249] known)]

/-- The answers of a lookup. -/
def lookupEnv : Env where
  errno := 0
  trace := [.seek none, .read .full]

/-- The locator at the index of a record is another one. -/
def findsOther (s : Table) (kdr : KcndbDbRecord) : Bool :=
  kdr.kdrLoc == [0, 249] &&
    (s.handles 0).any fun kdt =>
      match locLookup kdr.kdrLocidx (s.view 0 kdt lookupEnv) with
      | .ok (found, _) => found == some [0, 0]
      | .error _ => false

/-- That of some accepted record is. -/
def showsOther (acts : List Act) (s : Table) : Bool :=
  (storedRecords acts).any (findsOther s)

/--
Opens and adds of which none tears a transfer keep the index complete and the
sizes in step with the files, and every thread finds the locators of all
accepted records.
-/
theorem sizes_follow
    {loc table : List UInt8} (disk : (onDisk loc table).OnDisk)
    (run : Run (Lives Whole) (onDisk loc table) acts s) :
    (s.loc = [] ∨ locIndextablesiz ≤ s.loc.length) ∧
      (s.base.kdbLocsize = 0 ∨ s.base.kdbLocsize = s.loc.length) ∧
      (s.base.kdbTablesize = 0 ∨
        s.base.kdbTablesize = s.table.length) ∧
      ∀ tid kdt, s.handles tid = some kdt →
        s.Known ∧ ∀ kdr ∈ storedRecords acts, s.Finds tid kdt kdr := by
  have lasts : Durable acts s :=
    run.invariant (durable_onDisk disk) fun _ _ _ _ before act =>
      before.step act
  have cached := lasts.cached
  refine ⟨cached.disk.index, cached.locsize, cached.tablesize, ?_⟩
  intro tid kdt handle
  refine ⟨cached.opened tid kdt handle, fun kdr member => ?_⟩
  exact cached.finds (lasts.kept kdr member) handle

/-- What tells that a request is `Whole`. -/
def checkWhole (s : Table) (request : Request) : Bool :=
  decide (request.call.OpensOrAdds) && seemsUntorn request.trace &&
    guidedAtOnce s request &&
    decide
      (∀ kdt ∈ s.handles request.tid, kdt.kdtTable.kb.before = [])

theorem whole_of_check
    (s : Table) (request : Request)
    (passes : checkWhole s request = true) :
    s.Whole request := by
  simp only [checkWhole, Bool.and_eq_true, decide_eq_true_eq] at passes
  obtain ⟨⟨⟨plain, seems⟩, atOnce⟩, started⟩ := passes
  exact ⟨plain, not_torn_of_seems seems, fun kdr asked =>
    ⟨guided_of_atOnce atOnce kdr asked, started⟩⟩

/-- A run with a failed write to which `sizes_follow` applies. -/
theorem sizes_follow_two :
    ∃ acts s kdt,
      Run (Lives Whole) (onDisk [] []) acts s ∧
      s.handles 1 = some kdt ∧
      (storedRecords acts).map KcndbDbRecord.kdrLoc = [[1], [1]] ∧
      s.Known ∧ ∀ kdr ∈ storedRecords acts, s.Finds 1 kdt kdr := by
  obtain ⟨acts, s, run, shown⟩ :=
    Run.of_shown (lives_performAct whole_of_check)
      (show
        (performAll (performAct checkWhole) (onDisk [] [])
            aroundFailure).any
            (fun performed =>
              showsLocs [[1], [1]] performed.1 performed.2) =
          true
        by decide +kernel)
  simp only [showsLocs, Bool.and_eq_true, beq_iff_eq,
    Option.isSome_iff_exists] at shown
  obtain ⟨locs, kdt, handle⟩ := shown
  have disk : (onDisk [] []).OnDisk :=
    ⟨Or.inl rfl, Nat.zero_le _, Nat.zero_le _⟩
  obtain ⟨_, _, _, opened⟩ := sizes_follow disk run
  exact ⟨acts, s, kdt, run, handle, locs, opened 1 kdt handle⟩

/-- An open or an add of which only writes fail. -/
def WritesFail (request : Request) : Prop :=
  request.call.OpensOrAdds ∧
    ∀ event ∈ request.trace, event.Fails → event.IsWrite

instance (event : Event) : Decidable event.IsWrite :=
  match event with
  | .write _ => .isTrue trivial
  | .openFile _ | .lock _ | .stat _ | .seek _ | .read _
  | .callback _ => .isFalse not_false

instance (request : Request) : Decidable (WritesFail request) :=
  inferInstanceAs (Decidable (_ ∧ _))

/-- What tells that a request is `WritesFail`. -/
def checkWritesFail (_ : Table) (request : Request) : Bool :=
  decide (WritesFail request)

theorem writesFail_of_check
    (s : Table) (request : Request)
    (passes : checkWritesFail s request = true) :
    WritesFail request :=
  of_decide_eq_true passes

/-- A record of which ten bytes are written before there is no space left. -/
def tornAdd : List Ask :=
  [some (Request.create 0),
    some {
      tid := 0
      call := .recordAdd {
        kdrTime := 1, kdrVal := 5, kdrLocidx := 0, kdrLoc := [1]
      }
      errno := 0
      trace :=
        .lock none ::
          (Request.newLoc ++
            [.seek none, .write (.short 10), .write (.fail .enospc)]) }]

/-- The table is open, and its file is longer than its cached size. -/
def showsTorn (_ : List Act) (s : Table) : Bool :=
  (s.handles 0).isSome && s.table.length == 10 &&
    s.base.kdbTablesize == 0

/-- A write that is torn leaves the file longer than its cached size. -/
theorem sizes_differ :
    ∃ acts s kdt,
      Run (Lives fun _ request => WritesFail request) (onDisk [] [])
        acts s ∧
      s.handles 0 = some kdt ∧ s.table.length = 10 ∧
      s.base.kdbTablesize = 0 := by
  obtain ⟨acts, s, run, shown⟩ :=
    Run.of_shown
      (lives_performAct writesFail_of_check)
      (show
        (performAll (performAct checkWritesFail) (onDisk [] []) tornAdd).any
            (fun performed => showsTorn performed.1 performed.2) =
          true
        by decide +kernel)
  simp only [showsTorn, Bool.and_eq_true, beq_iff_eq,
    Option.isSome_iff_exists] at shown
  obtain ⟨⟨⟨kdt, handle⟩, length⟩, size⟩ := shown
  exact ⟨acts, s, kdt, run, handle, length, size⟩

end Table

end Kcn
