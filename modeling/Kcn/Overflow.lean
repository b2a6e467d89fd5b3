import Kcn.Apart

namespace Kcn

open Program Bytes KcnBuf KcndbDb

/-!
# When the buffer of a table file overflows

A record for which there is no room meets the assertion of `kcn_buf_append`
when its locator has a bucket of its own: reading the last record and adding
the locator succeed, and the three fields then run into the end of the buffer.
-/

namespace TableCtx

variable {ctx ctx' : TableCtx}

/-- The last record of the file was read through an empty buffer. -/
structure LastTaken (ctx ctx' : TableCtx) : Prop where
  visits : ctx.Visits ctx'
  holds :
    ctx'.table.kb.Holds ctx.table.kb.size
      (ctx.table.kb.sp + recordsiz) [] []

/-- Through an empty buffer with room the last record alone is read. -/
theorem LastRead.taken
    {kdr0 : KcndbDbRecord}
    (outcome : ctx.LastRead ctx' (some kdr0))
    (sound : ctx.TableSound)
    (empty : ctx.table.kb.after = [])
    (large : recordsiz ≤ ctx.base.kdbTablesize)
    (room : ctx.table.kb.sp + recordsiz ≤ ctx.table.kb.size) :
    ctx.LastTaken ctx' := by
  have visits := outcome.visits
  cases outcome with
  | empty small _ =>
      omega
  | read env' _ _ shape outcome =>
      cases outcome with
      | read taken new sp reads _ enough _ holds start =>
          have few := reads.few sound.tablesize
          simp only [empty, List.nil_append] at holds start
          rw [List.drop_eq_nil_of_le few] at holds
          rcases start with next | ⟨_, beyond⟩
          · exact ⟨visits, next ▸ holds⟩
          · omega

/-- Where there was no room before the last record was read, there is none. -/
theorem LastRead.beyond
    {kdr0 : KcndbDbRecord}
    (outcome : ctx.LastRead ctx' (some kdr0))
    (full : ¬ HasRoom ctx.base.kdbTablesize ctx.table.kb) :
    ctx'.table.kb.size < ctx'.table.kb.sp + recordsiz := by
  cases outcome with
  | empty small same =>
      rw [same]
      rw [HasRoom, if_pos small] at full
      omega
  | read env' _ large shape outcome =>
      cases outcome with
      | read taken new sp reads _ enough _ holds start =>
          rw [HasRoom, if_neg (Nat.not_lt.mpr large)] at full
          rw [holds.sp_eq, holds.size_eq]
          simp only at start ⊢
          omega

/-- With favourable answers the last record of a file is read. -/
theorem LastRead.some
    {result : Option KcndbDbRecord}
    (outcome : ctx.LastRead ctx' result)
    (sizes : ctx.base.kdbTablesize ≤ ctx.table.content.length)
    (bounded : ctx.table.content.length ≤ offMax)
    (clean : Trace.Clean ctx.env.trace) :
    ∃ kdr0, result = some kdr0 := by
  cases outcome with
  | empty _ _ =>
      exact ⟨_, rfl⟩
  | refused event large shape refusal _ =>
      rcases refusal with ⟨_, beyond⟩ | ⟨error, rfl⟩
      · omega
      · rw [shape] at clean
        simp [Trace.Clean, Event.Fails] at clean
  | read env' _ large shape outcome =>
      cases outcome with
      | read taken new sp reads _ _ _ _ _ =>
          exact ⟨_, rfl⟩
      | ended taken new sp reads _ _ atEnd below _ _ =>
          have offEq := reads.off_eq
          rw [reads.content_eq, offEq] at atEnd
          simp only [List.length_append] at atEnd below
          omega
      | failed taken new sp reads unclean _ _ _ _ =>
          have later := reads.took.trace_eq
          simp only at later
          rw [shape, later] at clean
          exact absurd (fun event member => clean event (by simp [member]))
            unclean

end TableCtx

namespace KcndbDb

open TableCtx KcndbFile

variable {ctx : TableCtx} {kdr : KcndbDbRecord} {loc : List UInt8}

/-- Three fields that do not fit run into the end of the buffer. -/
theorem wp_recordAppend_overflows
    (atStart : ctx.table.kb.before = [])
    (beyond : ctx.table.kb.size < ctx.table.kb.sp + recordsiz) :
    wp (recordAppend kdr) (fun _ _ => False) (· = .tableAssertion)
      ctx := by
  have holds := holds_self ctx.table.kb
  rw [atStart] at holds
  unfold recordsiz at beyond
  unfold recordAppend
  simp only [wp_bind, onTable, wp_zoom, wp_mapStop, FileCtx.buf,
    put64, tableLens, FileCtx.kbLens]
  refine wp_store holds ?_ (fun _ => rfl)
  intro _ kb₁ holds₁
  refine wp_store holds₁ ?_ (fun _ => rfl)
  intro _ kb₂ holds₂
  refine wp_store holds₂ ?_ (fun _ => rfl)
  intro fits kb₃ holds₃
  simp only [List.nil_append, List.length_append, length_bytes64]
    at fits
  omega

/-- A lock that is free is granted. -/
theorem feasible_wrlock
    {post : Bool → TableCtx → Prop}
    (free : ctx.base.kdbLock.Free)
    (holds : post true (ctx.writeLocked ctx.env)) :
    Feasible TableCtx.traceLens Event.Favours wrlock post ctx := by
  refine .bind (feasible_sys (Env.feasible_next (.lock none)
    ⟨by simp [Event.Fails], trivial, by simp⟩ ?_))
  refine .bind (.gets (fun _ => rfl) ?_)
  rw [if_pos (by exact free)]
  refine .bind (.gets (fun _ => rfl) (.bind (.modify (fun _ => rfl) ?_)))
  exact .pure holds

/-- `kcndb_db_record_read_last` returns a record, whatever is in the buffer. -/
theorem feasible_recordReadLast
    (atStart : ctx.AtStart)
    (sizes : ctx.base.kdbTablesize ≤ ctx.table.content.length) :
    Feasible TableCtx.traceLens Event.Favours recordReadLast
      (fun result ctx' => ∃ kdr0 trace, result = some kdr0 ∧
        LastRead (TableCtx.traceLens.set ctx trace)
          (TableCtx.traceLens.set ctx' []) (some kdr0))
      ctx := by
  have bounded := atStart.bounded
  have block : recordsiz ≤ ctx.table.kb.size := by
    rw [atStart.size_eq]
    decide
  have returns :
      Feasible TableCtx.traceLens Event.Favours recordReadLast
        (fun _ _ => True) ctx := by
    refine .bind (.gets (fun _ => rfl) ?_)
    split
    · exact .pure trivial
    · refine .bind (feasible_onTable (feasible_sysSeek (by omega) ?_))
      rw [if_pos rfl]
      exact feasible_recordRead atStart.before_eq block
  have read : ∀ taken : Trace, (∀ event ∈ taken, event.Favours) →
      wp recordReadLast
        (fun result between => ∀ ctx',
          between = TableCtx.traceLens.set ctx' [] →
          ∃ kdr0 trace, result = some kdr0 ∧
            LastRead (TableCtx.traceLens.set ctx trace)
              (TableCtx.traceLens.set ctx' []) (some kdr0))
        (fun _ => True) (TableCtx.traceLens.set ctx taken) := by
    intro taken favourable
    refine wp_recordReadLast trivial atStart.before_eq block ?_
    rintro result between outcome ctx' rfl
    have clean : Trace.Clean taken := Trace.Favourable.clean favourable
    obtain ⟨kdr0, rfl⟩ := outcome.some sizes bounded clean
    exact ⟨kdr0, taken, rfl, outcome⟩
  exact (returns.also read).imp fun _ _ both => both.2

/-- Taking a free lock for writing and releasing it changes nothing. -/
theorem release_writeLocked
    (free : ctx.base.kdbLock.Free) {ctx' : TableCtx} {env : Env}
    (visits : (ctx.writeLocked env).Visits ctx') :
    ctx.Visits ctx'.unlocked := by
  obtain ⟨tidEq, baseEq, contentEq, locContentEq, locSizeEq⟩ := visits
  refine ⟨tidEq, ?_, contentEq, locContentEq, locSizeEq⟩
  have tidEq : ctx'.tid = ctx.tid := tidEq
  simp only [unlocked, baseEq, tidEq, writeLocked]
  rw [RwLock.release, if_pos rfl, ← free.1]

/-- A record that is too old is rejected once the last one was read. -/
theorem feasible_recordAdd_late
    (free : ctx.base.kdbLock.Free)
    (atStart : ctx.AtStart)
    (sound : ctx.TableSound)
    (empty : ctx.table.kb.after = [])
    (large : recordsiz ≤ ctx.base.kdbTablesize)
    (room : ctx.table.kb.sp + recordsiz ≤ ctx.table.kb.size)
    (late : ctx.lastTime > kdr.kdrTime) :
    Feasible TableCtx.traceLens Event.Favours (recordAdd kdr)
      (fun result ctx' => result.1 = false ∧ LastTaken ctx ctx')
      ctx := by
  refine .bind (feasible_wrlock free ?_)
  rw [if_pos rfl]
  have locked : (ctx.writeLocked ctx.env).AtStart :=
    ⟨atStart.size_eq, atStart.before_eq, atStart.bounded⟩
  refine .bind (.bind
    ((feasible_recordReadLast locked (Nat.le_of_eq sound.tablesize)).imp ?_))
  rintro _ ctx₁ ⟨kdr0, trace, rfl, last⟩
  obtain ⟨visits, holds⟩ :=
    last.taken ⟨sound.rested, sound.tablesize, sound.bounded⟩ empty large room
  obtain ⟨timeEq, _⟩ := last.room atStart.size_eq
  change kdr0.kdrTime = ctx.lastTime at timeEq
  have older : kdr0.kdrTime > kdr.kdrTime := by
    rw [timeEq]
    exact late
  simp only [older, ↓reduceIte]
  refine .bind (feasible_sys (.modify (fun _ => rfl) (.pure ?_)))
  refine .bind (.bind (.gets (fun _ => rfl)
    (.modify (fun _ => rfl) (.pure ⟨rfl, ?_, ?_⟩))))
  · exact release_writeLocked free
      ⟨visits.tid_eq, visits.base_eq, visits.content_eq,
        visits.locContent_eq, visits.locSize_eq⟩
  · exact holds

/-! ### A record that does not fit -/

/-- The answers with which a locator with a bucket of its own is added. -/
def ownAnswers (buckets : Buckets) (h : Nat) : Trace :=
  oneRead ++ if buckets h = none then linkAnswers else oneRead

/-- `kcndb_db_loc_add` returns for a locator with a bucket of its own. -/
theorem locAdd_returns
    {buckets : Buckets}
    (indexed : Indexed ctx.loc.content buckets)
    (fits : LocFits buckets loc)
    (short : loc.length ≤ kcnMsgMaxlocsiz)
    (sizeEq : ctx.loc.kb.size = kcndbFileBufsiz)
    (bounded : ctx.loc.content.length ≤ offMax)
    (answer : ctx.env.trace = ownAnswers buckets (locHash loc)) :
    ∃ idx ctx', locAdd loc ctx = .ok (some idx, ctx') ∧
      ctx'.env.trace = [] := by
  have bound := locHash_lt loc
  have inside := slotOff_inside bound
  have slots := indexed.slots
  have room : locIndextablesiz ≤ kcndbFileBufsiz := by decide
  have table : 8 ≤ locIndextablesiz := by decide
  cases bucket : buckets (locHash loc) with
  | some entry =>
      obtain ⟨idx, stored⟩ := entry
      rw [ownAnswers, if_neg (by simp [bucket])] at answer
      have walk : ctx.env.trace = walkAnswers buckets (locHash loc) := by
        rw [answer, walkAnswers, if_neg (by simp [bucket])]
      obtain ⟨result, ctx', ran, done, found⟩ :=
        locFind_returns indexed sizeEq bounded walk
      obtain rfl := found idx stored bucket (fits idx stored bucket)
      refine ⟨idx, ctx', ?_, done⟩
      rw [locAdd, bind_of_ok ran]
      rfl
  | none =>
      rw [ownAnswers, if_pos bucket] at answer
      have returns :
          wp (locAdd loc)
            (fun result ctx' => (∃ idx, result = some idx) ∧
              ctx'.env.trace = [])
            (fun _ => False) ctx := by
        unfold locAdd
        rw [wp_bind]
        refine wp_locFind_answered answer sizeEq ?_ ?_ ?_
        · simp only [Transfer.amount]
          omega
        · intro missing
          simp only [Transfer.amount] at missing
          omega
        · intro ctx₂ before after traceEq contentEq _ window heading total
          simp only [Transfer.amount] at total
          have slot := indexed.vacant _ bound bucket
          refine wp_locWalk_ends window (by omega) ?_ ?_
          · rw [contentEq, heading, Nat.zero_add]
            exact slot
          · intro ctx₃ traceEq₃ contentEq₃ _ sizeEq₃ heading₃
            refine wp_locLink_answered (traceEq₃.trans traceEq) sizeEq₃
              short ?_ ?_ ?_
            · rw [contentEq₃, contentEq]
              exact bounded
            · have small : locIndextablesiz < 2 ^ 64 := by decide
              have fits : locIndextablesiz ≤ offMax := by decide
              rw [heading₃, patchOff_heading (by omega) (by omega)]
              omega
            · intro idx ctx' done
              exact ⟨⟨idx, rfl⟩, done⟩
      obtain ⟨_, ctx', ran, ⟨idx, rfl⟩, done⟩ := wp_returns returns
      exact ⟨idx, ctx', ran, done⟩

theorem favourable_ownAnswers (buckets : Buckets) (h : Nat) :
    Trace.Favourable (ownAnswers buckets h) := by
  unfold ownAnswers
  split <;>
    simp [Trace.Favourable, Event.Favours, oneRead, linkAnswers,
      Event.Fails, Event.ReadsFull]

/--
A record that is not too old and whose locator has a bucket of its own does not
fit where there is no room behind what is read.
-/
theorem recordAdd_overflows
    {buckets : Buckets}
    (free : ctx.base.kdbLock.Free)
    (atStart : ctx.AtStart)
    (sizes : ctx.base.kdbTablesize ≤ ctx.table.content.length)
    (full : ¬ HasRoom ctx.base.kdbTablesize ctx.table.kb)
    (inTime : ¬ ctx.lastTime > kdr.kdrTime)
    (indexed : Indexed ctx.loc.content buckets)
    (fits : LocFits buckets kdr.kdrLoc)
    (short : kdr.kdrLoc.length ≤ kcnMsgMaxlocsiz)
    (locSize : ctx.loc.kb.size = kcndbFileBufsiz)
    (locBounded : ctx.loc.content.length ≤ offMax) :
    ∃ trace, Trace.Favourable trace ∧
      recordAdd kdr (TableCtx.traceLens.set ctx trace) =
        .error .tableAssertion := by
  have granted :
      Feasible TableCtx.traceLens Event.Favours wrlock
        (fun ok ctx' => ok = true ∧ ctx' = ctx.writeLocked ctx.env)
        ctx :=
    feasible_wrlock free ⟨rfl, rfl⟩
  obtain ⟨first, _, _, favours₁, ⟨rfl, rfl⟩, locks⟩ := granted
  have locked : (ctx.writeLocked ctx.env).AtStart :=
    ⟨atStart.size_eq, atStart.before_eq, atStart.bounded⟩
  obtain ⟨second, _, ctx₁, favours₂, ⟨kdr0, trace, rfl, last⟩, reads⟩ :=
    feasible_recordReadLast locked sizes
  have visits := last.visits
  have atStart₁ :=
    (last.moved ⟨locked.size_eq, locked.before_eq, locked.bounded⟩).atStart
  have beyond := last.beyond full
  have timeEq := (last.room atStart.size_eq).1
  let answers := ownAnswers buckets (locHash kdr.kdrLoc)
  obtain ⟨idx, ctx₂, added, _⟩ :
      ∃ idx ctx₂,
        locAdd kdr.kdrLoc (TableCtx.traceLens.set ctx₁ answers) =
            .ok (some idx, ctx₂) ∧
          ctx₂.env.trace = [] := by
    have contentEq : ctx₁.loc.content = ctx.loc.content :=
      visits.locContent_eq
    refine locAdd_returns ?_ fits short
      (visits.locSize_eq.trans locSize) ?_ rfl
    · exact contentEq.symm ▸ indexed
    · exact contentEq.symm ▸ locBounded
  have tableEq : ctx₂.table = ctx₁.table := by
    have kept := (keeps_tablePart_locAdd kdr.kdrLoc).ok added
    simp only [tablePart, Prod.mk.injEq] at kept
    exact kept.2.2
  have overflows :
      wp (recordAppend { kdr with kdrLocidx := idx }) (fun _ _ => False)
        (· = .tableAssertion) ctx₂ := by
    refine wp_recordAppend_overflows ?_ ?_
    · rw [tableEq]
      exact atStart₁.before_eq
    · rw [tableEq]
      exact beyond
  have notOlder : ¬ kdr0.kdrTime > kdr.kdrTime := by
    rw [timeEq]
    exact inTime
  refine ⟨first ++ (second ++ answers), ?_, ?_⟩
  · intro event member
    rcases List.mem_append.mp member with locking | later
    · exact favours₁ event locking
    · rcases List.mem_append.mp later with reading | adding
      · exact favours₂ event reading
      · exact favourable_ownAnswers _ _ event adding
  · unfold recordAdd
    rw [bind_of_ok (locks _), if_pos rfl]
    apply bind_of_error
    unfold recordAddLocked
    rw [bind_of_ok (reads _)]
    simp only [notOlder, ↓reduceIte]
    rw [bind_of_ok added]
    apply bind_of_error
    exact stops_of_wp overflows

end KcndbDb

namespace Table

open TableCtx KcndbDb

variable {locs : List (List UInt8)} {s : Table}

/-- A call to add a record that waits for the lock meets no assertion. -/
theorem exec_ne_of_locked
    {tid : Nat} {kdr : KcndbDbRecord}
    (locked : ¬ s.base.kdbLock.Free) (env : Env) :
    s.exec tid (.recordAdd kdr) env ≠ .error .tableAssertion := by
  intro stops
  unfold exec at stops
  simp only at stops
  split at stops
  · rename_i kdt handle
    split at stops
    · cases stops
    · rename_i reason ran
      obtain rfl := Except.error.inj stops
      have waits :
          wp (recordAdd kdr) (fun _ _ => True) Spares
            (s.view tid kdt env) :=
        wp_recordAdd spares_starved (fun _ => by unfold Spares; simp)
          (fun _ _ _ => trivial) fun _ _ free => absurd free locked
      exact wp_error waits ran rfl
  · cases stops

/-- A record without room meets the assertion with favourable answers. -/
theorem Spread.overflows
    (spread : s.Spread locs) (apart : Apart locs)
    {tid : Nat} {kdt : KcndbDbTable} {kdr : KcndbDbRecord}
    (handle : s.handles tid = some kdt)
    (among : Among locs kdr) (free : s.base.kdbLock.Free)
    (inTime :
      ¬ comparedTime s.base.kdbTablesize s.table kdt.kdtTable.kb >
        kdr.kdrTime)
    (full : ¬ HasRoom s.base.kdbTablesize kdt.kdtTable.kb) :
    ∃ trace, Trace.Favourable trace ∧
      s.exec tid (.recordAdd kdr) { errno := 0, trace := trace } =
        .error .tableAssertion := by
  obtain ⟨member, short⟩ := among
  obtain ⟨sizes, ⟨buckets, indexed, stores⟩, _⟩ :=
    spread.ample handle { errno := 0, trace := [] }
  obtain ⟨locSize, _⟩ := spread.atStart.sized _ _ handle
  have atStart := spread.atStart.view handle { errno := 0, trace := [] }
  have notOlder :
      ¬ (s.view tid kdt { errno := 0, trace := [] }).lastTime >
        kdr.kdrTime :=
    inTime
  obtain ⟨trace, favourable, stops⟩ :=
    recordAdd_overflows free atStart sizes full notOlder indexed
      (stores.fits apart member) short locSize spread.locFits
  have ran :
      recordAdd kdr (s.view tid kdt { errno := 0, trace := trace }) =
        .error .tableAssertion :=
    stops
  refine ⟨trace, favourable, ?_⟩
  unfold exec
  simp only [handle, ran]

/-! ### A run that fills the buffer -/

/-- The time of the last record of a file. -/
def endTime (table : List UInt8) : Int64 :=
  (decodeRecord (table.drop (table.length - recordsiz))).kdrTime

/-- A thread whose buffer is empty starts to read at a position. -/
structure Parked (s : Table) (kdt : KcndbDbTable) (sp : Nat) : Prop where
  handle : s.handles 0 = some kdt
  locSize : kdt.kdtLoc.kb.size = kcndbFileBufsiz
  holds : kdt.kdtTable.kb.Holds kcndbFileBufsiz sp [] []
  free : s.base.kdbLock.Free
  tablesize : s.base.kdbTablesize = s.table.length
  large : recordsiz ≤ s.table.length
  tableFits : s.table.length ≤ offMax
  locFits : s.loc.length ≤ offMax

/-- The files, their sizes and the lock are those of another state. -/
structure SameFiles (s s' : Table) : Prop where
  base_eq : s'.base = s.base
  loc_eq : s'.loc = s.loc
  table_eq : s'.table = s.table

theorem SameFiles.refl (s : Table) : SameFiles s s :=
  ⟨rfl, rfl, rfl⟩

theorem SameFiles.trans
    {s s' s'' : Table} (first : SameFiles s s')
    (second : SameFiles s' s'') : SameFiles s s'' :=
  ⟨second.base_eq.trans first.base_eq,
    second.loc_eq.trans first.loc_eq,
    second.table_eq.trans first.table_eq⟩

/-- The first thread asks to add a record, with favourable answers. -/
structure Asks (request : Request) (kdr : KcndbDbRecord) : Prop where
  tid_eq : request.tid = 0
  call_eq : request.call = .recordAdd kdr
  favourable : request.trace.Favourable

namespace Parked

variable {s : Table} {kdt : KcndbDbTable} {sp : Nat}

theorem atStart (parked : s.Parked kdt sp) (env : Env) :
    (s.view 0 kdt env).AtStart :=
  ⟨parked.holds.size_eq, parked.holds.before_eq, parked.tableFits⟩

theorem sound (parked : s.Parked kdt sp) (env : Env) :
    (s.view 0 kdt env).TableSound :=
  ⟨.empty parked.holds, parked.tablesize, parked.tableFits⟩

theorem lastTime_eq (parked : s.Parked kdt sp) (env : Env) :
    (s.view 0 kdt env).lastTime = endTime s.table := by
  have large := parked.large
  unfold lastTime comparedTime lastBytes endTime
  simp only [view, parked.tablesize, parked.holds.after_eq,
    List.nil_append]
  rw [if_neg (by omega)]

/-- A record that is too old moves the position by one record. -/
theorem reject
    (parked : s.Parked kdt sp) {kdr : KcndbDbRecord}
    (room : sp + recordsiz ≤ kcndbFileBufsiz)
    (late : endTime s.table > kdr.kdrTime) :
    ∃ done s' kdt', s.Step done s' ∧ Asks done.toRequest kdr ∧
      done.result.ok = false ∧ SameFiles s s' ∧
      s'.Parked kdt' (sp + recordsiz) := by
  let ctx := s.view 0 kdt { errno := 0, trace := [] }
  have holds : ctx.table.kb.Holds kcndbFileBufsiz sp [] [] :=
    parked.holds
  have older : ctx.lastTime > kdr.kdrTime := by
    rw [parked.lastTime_eq]
    exact late
  have large : recordsiz ≤ ctx.base.kdbTablesize :=
    parked.tablesize.symm ▸ parked.large
  have fits : ctx.table.kb.sp + recordsiz ≤ ctx.table.kb.size := by
    rw [holds.sp_eq, holds.size_eq]
    exact room
  obtain ⟨taken, ⟨ok, kdr'⟩, ctx', favourable, ⟨failed, last⟩, runs⟩ :=
    feasible_recordAdd_late parked.free (parked.atStart _)
      (parked.sound _) holds.after_eq large fits older
  obtain ⟨tidEq, baseEq, contentEq, locContentEq, locSizeEq⟩ :=
    last.visits
  have tidEq : ctx'.tid = 0 := tidEq
  have baseEq : ctx'.base = s.base := baseEq
  have contentEq : ctx'.table.content = s.table := contentEq
  have locContentEq : ctx'.loc.content = s.loc := locContentEq
  have alone := runs []
  rw [List.append_nil] at alone
  have returns :
      s.exec 0 (.recordAdd kdr) { errno := 0, trace := taken } =
        .ok
          ({ ok := ok, locidx := kdr'.kdrLocidx, delivered := []
             errno := ctx'.env.errno },
            { errno := ctx'.env.errno, trace := [] },
            s.after ctx' (some (handleOf ctx'))) := by
    unfold exec
    simp only [parked.handle]
    have ran :
        recordAdd kdr
            (s.view 0 kdt { errno := 0, trace := taken }) =
          .ok ((ok, kdr'), TableCtx.traceLens.set ctx' []) :=
      alone
    rw [ran]
    rfl
  refine ⟨{
      tid := 0
      call := .recordAdd kdr
      errno := 0
      trace := taken
      result := {
        ok := ok, locidx := kdr'.kdrLocidx, delivered := []
        errno := ctx'.env.errno
      } },
    s.after ctx' (some (handleOf ctx')), handleOf ctx',
    ⟨returns, ?_, ?_⟩, ⟨rfl, rfl, favourable⟩, failed,
    ⟨baseEq, locContentEq, contentEq⟩, ?_⟩
  · simp only [after, locContentEq]
    exact parked.locFits
  · simp only [after, contentEq]
    exact parked.tableFits
  · have lastHolds := last.holds
    rw [holds.size_eq, holds.sp_eq] at lastHolds
    constructor
    · simp only [after, tidEq, Function.update_self]
    · exact locSizeEq.trans parked.locSize
    · exact lastHolds
    · simp only [after, baseEq]
      exact parked.free
    · simp only [after, baseEq, contentEq]
      exact parked.tablesize
    · simp only [after, contentEq]
      exact parked.large
    · simp only [after, contentEq]
      exact parked.tableFits
    · simp only [after, locContentEq]
      exact parked.locFits

/-- Records that are too old move the position as many records on. -/
theorem rejects
    (parked : s.Parked kdt sp) (kdr : KcndbDbRecord) (count : Nat)
    (room : sp + count * recordsiz ≤ kcndbFileBufsiz)
    (late : endTime s.table > kdr.kdrTime) :
    ∃ dones s' kdt', Run Step s dones s' ∧ dones.length = count ∧
      (∀ done ∈ dones, Asks done.toRequest kdr ∧
        done.result.ok = false) ∧
      SameFiles s s' ∧ s'.Parked kdt' (sp + count * recordsiz) := by
  induction count with
  | zero =>
      exact ⟨[], s, kdt, .nil, rfl, by simp, .refl s, by
        simpa using parked⟩
  | succ count inductionHypothesis =>
      rw [Nat.succ_mul] at room
      obtain ⟨dones, s₁, kdt₁, run, length, all, same, parked₁⟩ :=
        inductionHypothesis (by omega)
      have late₁ : endTime s₁.table > kdr.kdrTime := by
        rw [same.table_eq]
        exact late
      obtain ⟨done, s₂, kdt₂, step, asks, failed, same₂, parked₂⟩ :=
        parked₁.reject (by omega) late₁
      refine ⟨dones ++ [done], s₂, kdt₂, .snoc run step, by simp [length],
        ?_, same.trans same₂, ?_⟩
      · intro other member
        rcases List.mem_append.mp member with earlier | last
        · exact all other earlier
        · rw [List.mem_singleton.mp last]
          exact ⟨asks, failed⟩
      · rw [Nat.succ_mul, ← Nat.add_assoc]
        exact parked₂

/-- A record in time meets the assertion where its fields do not fit. -/
theorem overflows
    (parked : s.Parked kdt sp) (kdr : KcndbDbRecord)
    {buckets : Buckets} {idx : UInt64} {stored : List UInt8}
    (room : sp + recordsiz ≤ kcndbFileBufsiz)
    (beyond : kcndbFileBufsiz < sp + 2 * recordsiz)
    (inTime : ¬ endTime s.table > kdr.kdrTime)
    (indexed : Indexed s.loc buckets)
    (bucket : buckets (locHash kdr.kdrLoc) = some (idx, stored))
    (same : sameLoc stored kdr.kdrLoc = true)
    (short : kdr.kdrLoc.length ≤ kcnMsgMaxlocsiz) :
    ∃ request, Asks request kdr ∧
      s.exec request.tid request.call
          { errno := request.errno, trace := request.trace } =
        .error .tableAssertion := by
  let ctx := s.view 0 kdt { errno := 0, trace := [] }
  have holds : ctx.table.kb.Holds kcndbFileBufsiz sp [] [] :=
    parked.holds
  have tablesize : ctx.base.kdbTablesize = s.table.length :=
    parked.tablesize
  have large := parked.large
  have full : ¬ HasRoom ctx.base.kdbTablesize ctx.table.kb := by
    rw [HasRoom, if_neg (by omega), holds.sp_eq, holds.size_eq]
    omega
  have notOlder : ¬ ctx.lastTime > kdr.kdrTime := by
    rw [parked.lastTime_eq]
    exact inTime
  have fits : LocFits buckets kdr.kdrLoc := by
    intro idx' stored' bucket'
    rw [bucket] at bucket'
    obtain ⟨_, rfl⟩ := Prod.mk.inj (Option.some.inj bucket')
    exact same
  obtain ⟨trace, favourable, stops⟩ :=
    recordAdd_overflows parked.free (parked.atStart _)
      (Nat.le_of_eq parked.tablesize) full notOlder indexed fits short
      parked.locSize parked.locFits
  have ran :
      recordAdd kdr (s.view 0 kdt { errno := 0, trace := trace }) =
        .error .tableAssertion :=
    stops
  refine ⟨{
      tid := 0, call := .recordAdd kdr, errno := 0, trace := trace },
    ⟨rfl, rfl, favourable⟩, ?_⟩
  unfold exec
  simp only [parked.handle, ran]

end Parked

/-- The locator file with one entry, for the byte 1. -/
def oneEntry : List UInt8 :=
  overwrite (List.replicate locIndextablesiz 0 ++ entryBytes [1])
    (slotOff (locHash [1])) (bytes64 2048)

theorem indexed_oneEntry :
    Indexed oneEntry
      (Function.update (fun _ => none) (locHash [1])
        (some (2048, [1]))) :=
  Indexed.initial.insert (by decide) (by rw [List.length_replicate]; rfl)

/-- The buffer is empty and starts at the head of its memory. -/
def emptyBuffer (kb : KcnBuf) : Bool :=
  kb.size == kcndbFileBufsiz && kb.sp == 0 && kb.before == [] &&
    kb.after == []

/-- One record was added without disturbance, and the thread is parked. -/
def showsParked (dones : List Done) (s : Table) : Bool :=
  dones.all (fun done => done.tid == 0 &&
      decide done.trace.Favourable &&
      done.call.record?.all fun kdr => kdr.kdrLoc == [1]) &&
    (s.handles 0).any (fun kdt =>
      kdt.kdtLoc.kb.size == kcndbFileBufsiz &&
        emptyBuffer kdt.kdtTable.kb) &&
    s.base.kdbLock == RwLock.initializer &&
    s.base.kdbTablesize == recordsiz && s.table.length == recordsiz &&
    s.loc == oneEntry && endTime s.table == 1

/-- What `showsParked` shows of the thread. -/
theorem parked_of_shown
    {dones : List Done} {s : Table}
    (shown : showsParked dones s = true) :
    ∃ kdt, s.Parked kdt 0 := by
  simp only [showsParked, Bool.and_eq_true, beq_iff_eq,
    Option.any_eq_true] at shown
  obtain ⟨⟨⟨⟨⟨⟨_, kdt, handle, locSize, buffer⟩, lock⟩, tablesize⟩,
    length⟩, locEq⟩, _⟩ := shown
  simp only [emptyBuffer, Bool.and_eq_true, beq_iff_eq] at buffer
  obtain ⟨⟨⟨sizeEq, spEq⟩, beforeEq⟩, afterEq⟩ := buffer
  refine ⟨kdt, handle, locSize, ⟨sizeEq, spEq, beforeEq, afterEq⟩, ?_,
    by rw [tablesize, length], by rw [length], ?_, ?_⟩
  · rw [lock]
    exact ⟨rfl, rfl⟩
  · rw [length]
    decide
  · rw [locEq]
    decide +kernel

/-- A record for the byte 1. -/
def recordAt (time : Int64) : KcndbDbRecord where
  kdrTime := time
  kdrVal := 5
  kdrLocidx := 0
  kdrLoc := [1]

/-- A call of the first thread, with favourable answers, on the one locator. -/
def Quiet (request : Request) : Prop :=
  request.tid = 0 ∧ request.trace.Favourable ∧
    ∀ kdr ∈ request.call.record?, kdr.kdrLoc = [1]

theorem Asks.quiet
    {request : Request} {time : Int64}
    (asks : Asks request (recordAt time)) : Quiet request := by
  refine ⟨asks.tid_eq, asks.favourable, ?_⟩
  intro kdr asked
  rw [asks.call_eq] at asked
  obtain rfl := Option.some.inj asked
  rfl

/--
After one record and 169 that are too old, the three fields of a further one
do not fit into the buffer.
-/
theorem buffer_overflows :
    ∃ dones s request, Run Step (onDisk [] []) dones s ∧
      (∀ done ∈ dones, Quiet done.toRequest) ∧
      Quiet request ∧ request.call = .recordAdd (recordAt 1) ∧
      s.exec request.tid request.call
          { errno := request.errno, trace := request.trace } =
        .error .tableAssertion := by
  obtain ⟨first, s, run, shown⟩ :=
    Run.of_shown
      (fun s request done s' performed =>
        (step_perform s request done s' performed).1)
      (show
        (performAll perform (onDisk [] []) (addFirst 1)).any
            (fun performed => showsParked performed.1 performed.2) =
          true
        by decide +kernel)
  obtain ⟨kdt, parked⟩ := parked_of_shown shown
  simp only [showsParked, Bool.and_eq_true, beq_iff_eq,
    List.all_eq_true, decide_eq_true_eq, Option.all_eq_true] at shown
  obtain ⟨⟨⟨⟨⟨⟨quiet, _⟩, _⟩, _⟩, _⟩, locEq⟩, timeEq⟩ := shown
  obtain ⟨rejected, s', kdt', later, _, all, same, parked'⟩ :=
    parked.rejects (recordAt 0) 169 (by decide)
      (by rw [timeEq]; decide)
  obtain ⟨request, asks, stops⟩ :=
    parked'.overflows (recordAt 1) (by decide) (by decide)
      (by rw [same.table_eq, timeEq]; decide)
      (by rw [same.loc_eq, locEq]; exact indexed_oneEntry)
      (Function.update_self _ _ _) (sameLoc_self _) (by decide)
  refine ⟨first ++ rejected, s', request, run.append later, ?_,
    asks.quiet, asks.call_eq, stops⟩
  intro done member
  rcases List.mem_append.mp member with start | late
  · obtain ⟨⟨tidEq, favourable⟩, locs⟩ := quiet done start
    exact ⟨tidEq, favourable, locs⟩
  · exact (all done late).1.quiet

/--
After every run of calls for which there is room, on locators that have buckets
of their own, opens and searches meet no assertion of the buffer of the table
file, and a record is added without meeting it, if and only if the call waits
for the lock, is rejected for its time, or has room for the three fields.
-/
theorem overflows_iff
    {loc table : List UInt8} {dones : List Done}
    (tableFits : table.length ≤ offMax) (locFits : loc.length ≤ offMax)
    (file : loc = [] ∨ Filed locs loc) (apart : Apart locs)
    (run :
      Run (Guarded Step fun s done => s.RoomyAmong locs done.toRequest)
        (onDisk loc table) dones s)
    {tid : Nat} {kdt : KcndbDbTable}
    (handle : s.handles tid = some kdt) :
    (∀ request : Request, request.trace.Clean →
        request.call.record? = none →
        s.exec request.tid request.call
            { errno := request.errno, trace := request.trace } ≠
          .error .tableAssertion) ∧
      ∀ kdr, Among locs kdr →
        ((∀ errno trace, Trace.Favourable trace →
            s.exec tid (.recordAdd kdr)
                { errno := errno, trace := trace } ≠
              .error .tableAssertion) ↔
          ¬ s.base.kdbLock.Free ∨
            comparedTime s.base.kdbTablesize s.table kdt.kdtTable.kb >
              kdr.kdrTime ∨
            HasRoom s.base.kdbTablesize kdt.kdtTable.kb) := by
  have spread := spread_run tableFits locFits file apart run
  refine ⟨?_, fun kdr among => ⟨?_, ?_⟩⟩
  · intro request clean none
    refine spread.atStart.exec_ne ⟨clean, ?_⟩ _
    intro kdr asked
    rw [none] at asked
    cases asked
  · intro never
    by_contra against
    rw [not_or, not_or, not_not] at against
    obtain ⟨free, inTime, full⟩ := against
    obtain ⟨trace, favourable, stops⟩ :=
      spread.overflows apart handle among free inTime full
    exact never 0 trace favourable stops
  · rintro (locked | room) errno trace favourable
    · exact exec_ne_of_locked locked _
    · let request : Request := {
        tid := tid, call := .recordAdd kdr, errno := errno, trace := trace
      }
      have roomy : s.Roomy request := by
        refine ⟨favourable.clean, ?_⟩
        intro kdr' asked kdt' handle'
        obtain rfl := Option.some.inj asked
        obtain rfl := Option.some.inj (handle.symm.trans handle')
        exact room
      exact spread.atStart.exec_ne roomy _

instance (locs : List (List UInt8)) (kdr : KcndbDbRecord) :
    Decidable (Among locs kdr) :=
  inferInstanceAs (Decidable (_ ∧ _))

instance (locs : List (List UInt8)) (s : Table) (request : Request) :
    Decidable (s.RoomyAmong locs request) :=
  inferInstanceAs (Decidable (_ ∧ _))

/-- Two calls were made, and there is room for another record. -/
def showsMore (dones : List Done) (s : Table) : Bool :=
  dones.length == 2 &&
    (s.handles 0).any fun kdt =>
      decide (HasRoom s.base.kdbTablesize kdt.kdtTable.kb)

/-- A run to which `overflows_iff` applies, and what follows for a record. -/
theorem overflows_iff_one :
    ∃ dones s,
      Run (Guarded Step fun s done => s.RoomyAmong [[1]] done.toRequest)
        (onDisk [] []) dones s ∧
      dones.length = 2 ∧
      ∀ errno trace, Trace.Favourable trace →
        s.exec 0 (.recordAdd (recordAt 1))
            { errno := errno, trace := trace } ≠
          .error .tableAssertion := by
  obtain ⟨dones, s, run, shown⟩ :=
    Run.of_shown guarded_perform
      (show
        (performAll
            (performIf
              (fun s request => decide (s.RoomyAmong [[1]] request))
              perform)
            (onDisk [] []) (addFirst 1)).any
            (fun performed => showsMore performed.1 performed.2) =
          true
        by decide +kernel)
  simp only [showsMore, Bool.and_eq_true, beq_iff_eq,
    Option.any_eq_true, decide_eq_true_eq] at shown
  obtain ⟨count, kdt, handle, room⟩ := shown
  obtain ⟨_, adds⟩ :=
    overflows_iff (Nat.zero_le _) (Nat.zero_le _) (Or.inl rfl)
      (by simp [Apart]) run handle
  exact ⟨dones, s, run, count,
    (adds (recordAt 1) (by decide)).mpr (Or.inr (Or.inr room))⟩

end Table

end Kcn
