import Kcn.Capacity
import Kcn.Locks
import Kcn.Store

namespace Kcn

open Program Bytes KcnBuf KcndbDb

/-!
# The answers of a table

To its callers a table is the list of the samples it stores.  A record is
refused if it is older than the last sample, and a search finds the first
samples that the equation admits.  As long as nothing goes wrong around it, the
code gives these answers over any run of calls and restarts.
-/

/-! ### Samples and answers -/

/-- The equation admits the time and the value of the sample. -/
def Sample.Fits (ke : KcnEq) (sample : Sample) : Prop :=
  ke.Admits sample.record

instance (ke : KcnEq) (sample : Sample) : Decidable (sample.Fits ke) :=
  inferInstanceAs (Decidable (ke.Admits _))

/-- What a call tells its caller: an error, or what was found. -/
structure Answer where
  error : Option Errno
  found : List Sample
  deriving DecidableEq

namespace Samples

/-- The first samples that the equation admits. -/
def matching
    (ke : KcnEq) (maxnlocs : Nat) (samples : List Sample) :
    List Sample :=
  (samples.filter fun sample => sample.Fits ke).take maxnlocs

/-- What is stored after a call, and its answer. -/
def respond (samples : List Sample) :
    Call → List Sample × Option Answer
  | .tableOpen _ _ => (samples, none)
  | .recordAdd kdr =>
      if lastTime samples > kdr.kdrTime then
        (samples, some { error := some Errno.erange, found := [] })
      else
        (samples ++ [kdr.sample], some { error := none, found := [] })
  | .search ke maxnlocs =>
      if matching ke maxnlocs samples = [] then
        (samples, some { error := some Errno.esrch, found := [] })
      else
        (samples,
          some {
            error := none
            found := matching ke maxnlocs samples
          })

end Samples

/-- The answer of a complete call, where its caller is told more than success. -/
def Done.answer (done : Done) : Option Answer :=
  let error := if done.result.ok then none else some done.result.errno
  match done.call with
  | .tableOpen _ _ => none
  | .recordAdd _ => some { error := error, found := [] }
  | .search _ _ =>
      some {
        error := error
        found := done.result.delivered.map KcndbDbRecord.sample
      }

/-- An act as one of the list of samples. -/
def Samples.Takes (samples : List Sample) :
    Act → List Sample → Prop
  | .call done, samples' =>
      respond samples done.call = (samples', done.answer)
  | .restart, samples' => samples' = samples

/-! ### What a search finds -/

theorem Kept.fits_iff
    {content : List UInt8} {kdr : KcndbDbRecord} {sample : Sample}
    (kept : Kept content kdr sample) (ke : KcnEq) :
    ke.Admits kdr ↔ sample.Fits ke := by
  unfold Sample.Fits
  rw [← recordFits_iff, ← recordFits_iff, recordFits, recordFits,
    kept.time_eq, kept.val_eq]
  rfl

/-- A record is kept for one sample. -/
theorem Kept.unique
    {content : List UInt8} {kdr : KcndbDbRecord}
    {sample sample' : Sample} (kept : Kept content kdr sample)
    (kept' : Kept content kdr sample') :
    sample = sample' := by
  have locEq := kept.entry.locAt_eq.symm.trans kept'.entry.locAt_eq
  have timeEq := kept.time_eq.symm.trans kept'.time_eq
  have valEq := kept.val_eq.symm.trans kept'.val_eq
  cases sample
  cases sample'
  simp only at locEq timeEq valEq
  rw [locEq, timeEq, valEq]

/-- The records that are admitted are those of the samples that fit. -/
theorem admitted_eq
    {ctx : TableCtx} {kdrs : List KcndbDbRecord}
    {samples : List Sample} (ke : KcnEq)
    (kept : List.Forall₂ (Kept ctx.loc.content) kdrs samples) :
    ((kdrs.filter fun kdr => ke.Admits kdr).map ctx.located).map
        KcndbDbRecord.sample =
      samples.filter fun sample => sample.Fits ke := by
  induction kept with
  | nil =>
      rfl
  | @cons kdr sample kdrs samples first _ inductionHypothesis =>
      have fits := first.fits_iff ke
      by_cases admitted : ke.Admits kdr
      · have sampleEq : (ctx.located kdr).sample = sample := by
          have locEq := first.entry.locAt_eq
          cases sample
          simp only [TableCtx.located, KcndbDbRecord.sample,
            first.time_eq, first.val_eq, locEq]
        rw [List.filter_cons_of_pos (by simpa using admitted),
          List.filter_cons_of_pos (by simpa using fits.mp admitted),
          List.map_cons, List.map_cons, sampleEq, inductionHypothesis]
      · rw [List.filter_cons_of_neg (by simpa using admitted),
          List.filter_cons_of_neg
            (by simpa using fun other => admitted (fits.mpr other)),
          inductionHypothesis]

/-- The index of every stored record is that of an entry. -/
theorem entry_of_kept
    {content : List UInt8} {kdrs : List KcndbDbRecord}
    {samples : List Sample}
    (kept : List.Forall₂ (Kept content) kdrs samples) :
    ∀ kdr ∈ kdrs, ∃ loc, Entry content kdr.kdrLocidx.toNat loc := by
  induction kept with
  | nil =>
      simp
  | cons first _ inductionHypothesis =>
      intro kdr member
      rcases List.mem_cons.mp member with rfl | later
      · exact ⟨_, first.entry⟩
      · exact inductionHypothesis kdr later

namespace Table

variable {s : Table} {samples : List Sample}

/-- Records are read back from the file as far as samples tell. -/
theorem Stores.records_kept (stores : s.Stores samples) :
    List.Forall₂ (Kept s.loc) (records s.table) samples := by
  obtain ⟨kdrs, encoded, kept⟩ := stores
  rw [encoded, records_encodeRecords, List.forall₂_map_left_iff]
  exact kept.imp fun _ _ one =>
    ⟨one.time_eq, one.val_eq, one.behind, one.entry⟩

/-- The files hold one list of samples. -/
theorem Stores.unique
    {samples' : List Sample} (stores : s.Stores samples)
    (stores' : s.Stores samples') :
    samples = samples' := by
  have one : Relator.RightUnique (Kept s.loc) :=
    fun _ _ _ kept kept' => kept.unique kept'
  exact one.forall₂ stores.records_kept stores'.records_kept

theorem Stores.whole (stores : s.Stores samples) :
    recordsiz ∣ s.table.length := by
  obtain ⟨kdrs, encoded, _⟩ := stores
  rw [encoded, length_encodeRecords]
  exact Nat.dvd_mul_right _ _

/-- A thread sees a table that is well formed. -/
theorem Stores.wellFormed
    (stores : s.Stores samples) (cached : s.Cached) {tid : Nat}
    {kdt : KcndbDbTable} (handle : s.handles tid = some kdt)
    (env : Env) :
    (s.view tid kdt env).WellFormed := by
  obtain ⟨_, locsize, tablesize⟩ := cached.opened _ _ handle
  exact ⟨stores.whole, entry_of_kept stores.records_kept, locsize,
    tablesize, cached.disk.locFits⟩

/-- What a search wants of the table is what matches. -/
theorem Stores.wanted_eq
    (stores : s.Stores samples) (tid : Nat) (kdt : KcndbDbTable)
    (env : Env) (ke : KcnEq) (maxnlocs : Nat) :
    ((s.view tid kdt env).wanted ke maxnlocs).map
        KcndbDbRecord.sample =
      Samples.matching ke maxnlocs samples := by
  have kept :
      List.Forall₂ (Kept (s.view tid kdt env).loc.content)
        (records s.table) samples :=
    stores.records_kept
  rw [Samples.matching, ← admitted_eq ke kept, TableCtx.wanted,
    List.map_take, List.map_take]
  rfl

end Table

/-! ### The lock around a call -/

namespace RwLock

/-- A lock taken for writing is as before once it was released. -/
theorem release_writer
    {lock : RwLock} (writer : lock.writer = none) (tid : Nat) :
    ({ lock with writer := some tid } : RwLock).release tid = lock := by
  obtain ⟨_, readers⟩ := lock
  obtain rfl : _ = none := writer
  simp [release]

/-- So is a lock taken for reading. -/
theorem release_reader
    {lock : RwLock} (writer : lock.writer = none) (tid : Nat) :
    ({ lock with readers := tid :: lock.readers } : RwLock).release tid =
      lock := by
  obtain ⟨_, readers⟩ := lock
  obtain rfl : _ = none := writer
  simp [release]

end RwLock

/-! ### What a search leaves in the buffer -/

namespace TableCtx

variable {ctx : TableCtx} {rest : List UInt8}

/-- At the end of a file of whole records nothing is left over. -/
theorem Scanned.drained
    (scanned : ctx.Scanned rest) (whole : recordsiz ∣ rest.length)
    (short : rest.length < recordsiz) :
    Drained ctx.table.kb := by
  have none : rest = [] :=
    List.length_eq_zero_iff.mp (Nat.eq_zero_of_dvd_of_lt whole short)
  have data := scanned.data
  rw [none] at data
  exact ⟨scanned.atStart, (List.append_eq_nil_iff.mp data).1⟩

end TableCtx

namespace KcndbDb

open TableCtx

variable {ctx : TableCtx} {ke : KcnEq} {maxnlocs n : Nat}
  {rest : List UInt8}

/-- What the loop of `kcndb_db_search` leaves where it runs to the end. -/
structure LoopDrains
    (maxnlocs n : Nat) (ctx : TableCtx) (total : Nat)
    (ctx' : TableCtx) : Prop where
  full : maxnlocs ≤ n → total = n ∧ ctx'.table = ctx.table
  short : n < maxnlocs → total < maxnlocs → Drained ctx'.table.kb

/-- A loop that wants more reads the file to its end. -/
theorem wp_searchLoop_drains
    {rounds : Nat}
    (sizeEq : ctx.loc.kb.size = kcndbFileBufsiz)
    (scanned : ctx.Scanned rest) (whole : recordsiz ∣ rest.length) :
    wp (searchLoop ke maxnlocs rounds n)
      (fun result ctx' => ∀ total, result = some total →
        LoopDrains maxnlocs n ctx total ctx')
      (fun _ => True) ctx := by
  induction rounds generalizing ctx rest n with
  | zero =>
      trivial
  | succ rounds inductionHypothesis =>
      unfold searchLoop
      rw [wp_ite]
      refine ⟨fun room => ?_, fun full => ?_⟩
      · rw [wp_bind]
        have block : recordsiz ≤ kcndbFileBufsiz := by decide
        refine wp_recordRead trivial scanned.atStart
          (by rw [scanned.size_eq]; exact block) ?_
        intro result ctx₁ outcome
        cases result with
        | none =>
            obtain ⟨scanned₁, _, ended | failed⟩ :=
              scanned.unread outcome
            · obtain ⟨short, errnoEq, _⟩ := ended
              rw [wp_bind, wp_gets, if_pos errnoEq, wp_pure]
              intro total _
              exact ⟨fun full => absurd room (Nat.not_lt.mpr full),
                fun _ _ => scanned₁.drained whole short⟩
            · rw [wp_bind, wp_gets, if_neg failed.2, wp_pure]
              intro total none
              cases none
        | some kdr =>
            obtain ⟨enough, _, scanned₁, _, taken, passes⟩ :=
              scanned.read outcome
            have whole₁ :
                recordsiz ∣ (rest.drop recordsiz).length := by
              rw [List.length_drop]
              exact Nat.dvd_sub whole (Nat.dvd_refl _)
            have sizeEq₁ : ctx₁.loc.kb.size = kcndbFileBufsiz :=
              passes.visits.locSize_eq.trans sizeEq
            simp only [wp_bind]
            refine wp_visit trivial (fun _ _ => trivial)
              (fun _ => trivial) sizeEq₁ ?_ ?_ ?_
            · intro _
              refine wp_imp
                (inductionHypothesis sizeEq₁ scanned₁ whole₁) ?_
              intro result ctx₂ drains total some
              exact ⟨fun full => absurd room (Nat.not_lt.mpr full),
                (drains total some).short⟩
            · intro _ ctx₂ taken₂ shown passes₂ _ tableEq _
              refine wp_imp
                (inductionHypothesis
                  (passes₂.visits.locSize_eq.trans sizeEq₁)
                  (scanned₁.of_table_eq tableEq) whole₁) ?_
              intro result ctx₃ drains total some
              obtain ⟨full, short⟩ := drains total some
              refine ⟨fun full => absurd room (Nat.not_lt.mpr full),
                fun _ fewer => short ?_ fewer⟩
              by_contra reached
              have := (full (Nat.le_of_not_lt reached)).1
              omega
            · intro _ ctx₂ _ _ _ total none
              cases none
      · rw [wp_pure]
        intro total same
        obtain rfl := Option.some.inj same
        exact ⟨fun _ => ⟨rfl, rfl⟩, fun room => absurd room full⟩

/-- Nothing hinders a search of the file. -/
structure Unhindered (ke : KcnEq) (ctx : TableCtx) : Prop where
  clean : ctx.env.trace.Clean
  willing : ctx.env.trace.Willing
  resolves : ∀ kdr ∈ hits ke ctx.table.content,
    Resolves ctx.base.kdbLocsize ctx.loc.content kdr.kdrLocidx
  whole : recordsiz ∣ ctx.table.content.length

/-- A search in vain leaves nothing in the buffer. -/
theorem wp_searchLocked_drains
    (locSize : ctx.loc.kb.size = kcndbFileBufsiz)
    (tableSize : ctx.table.kb.size = kcndbFileBufsiz)
    (unhindered : Unhindered ke ctx) :
    wp (searchLocked ke maxnlocs)
      (fun ok ctx' => ok = false → Drained ctx'.table.kb)
      (fun _ => True) ctx := by
  obtain ⟨clean, willing, resolves, whole⟩ := unhindered
  unfold searchLocked
  simp only [wp_bind, onTable, wp_zoom, wp_mapStop, FileCtx.buf]
  refine KcndbFile.wp_sysSeek trivial ?_ ?_
  · intro env₁ _ shape
    simp only [↓reduceIte, wp_bind, wp_zoom, wp_mapStop, wp_gets]
    refine wp_reset (holds_self _) (Nat.zero_le _) ?_
    intro kb empty
    simp only [tableLens, FileCtx.kbLens] at empty shape ⊢
    rw [tableSize] at empty
    have scanned :
        TableCtx.Scanned
          { ctx with
            table := { content := ctx.table.content, off := 0, kb := kb }
            env := env₁ }
          ctx.table.content := by
      refine ⟨empty.size_eq, empty.before_eq, ?_, List.suffix_refl _,
        ?_⟩
      · rw [empty.after_eq]
        rfl
      · rw [empty.sp_eq, Nat.zero_add]
    have later : env₁.trace <:+ ctx.env.trace := ⟨[_], shape.symm⟩
    have sweeps :
        wp (searchLoop ke maxnlocs (ctx.table.content.length + 1) 0)
          (fun result ctx' =>
            TableCtx.Swept ke maxnlocs 0
              { ctx with
                table := {
                  content := ctx.table.content, off := 0, kb := kb
                }
                env := env₁ }
              ctx.table.content result ctx')
          (fun _ => True)
          { ctx with
            table := { content := ctx.table.content, off := 0, kb := kb }
            env := env₁ } :=
      wp_searchLoop trivial (fun _ _ _ => trivial) (fun _ => trivial)
        locSize scanned
    refine wp_mono
      (wp_and sweeps (wp_searchLoop_drains locSize scanned whole))
      ?_ fun _ _ => trivial
    rintro result ctx₂ ⟨swept, drains⟩
    cases swept with
    | stopped _ _ reasons _ _ =>
        rcases reasons with unclean | unwilling | ⟨kdr, member, lost⟩
        · exact absurd (clean.suffix later) unclean
        · refine absurd (fun event member => ?_) unwilling
          exact willing event (later.subset member)
        · exact absurd (resolves kdr (List.mem_of_mem_take member)) lost
    | swept _ taken shown _ _ _ _ _ =>
        have drains := drains _ rfl
        rw [wp_ite]
        refine ⟨fun none => ?_, fun _ => ?_⟩
        · simp only [wp_bind, sys, wp_zoom, Env.setErrno, wp_modify,
            wp_pure]
          intro _
          by_cases room : 0 < maxnlocs
          · exact drains.short room (by omega)
          · have tableEq :=
              (drains.full (Nat.le_of_not_lt room)).2
            change Drained ctx₂.table.kb
            rw [tableEq]
            exact ⟨empty.before_eq, empty.after_eq⟩
        · rw [wp_pure]
          intro fails
          cases fails
  · intro event env' shape refusal
    simp only [Bool.false_eq_true, ↓reduceIte, wp_pure]
    intro _
    rcases refusal with ⟨_, beyond⟩ | ⟨error, rfl⟩
    · exact absurd beyond (Nat.not_lt_of_le (Nat.zero_le _))
    · have traceEq : ctx.env.trace = _ := shape
      have fine := clean (.seek (some error)) (by
        rw [traceEq]
        exact List.mem_cons_self)
      exact absurd (by simp [Event.Fails]) fine

/-- What the lock is after a search, and the buffer where it was in vain. -/
theorem wp_search_drains
    (locSize : ctx.loc.kb.size = kcndbFileBufsiz)
    (tableSize : ctx.table.kb.size = kcndbFileBufsiz)
    (writer : ctx.base.kdbLock.writer = none)
    (unhindered : Unhindered ke ctx) :
    wp (search ke maxnlocs)
      (fun ok ctx' =>
        ctx'.base.kdbLock.writer = none ∧
          (ok = true → ctx'.base.kdbLock.readers ≠ []) ∧
          (ok = false →
            ctx'.base.kdbLock = ctx.base.kdbLock ∧
              Drained ctx'.table.kb))
      (fun _ => True) ctx := by
  refine wp_search trivial (fun _ => trivial) ?_ ?_
  · intro error env' shape
    have fine := unhindered.clean (.lock (some error)) (by
      rw [shape]
      exact List.mem_cons_self)
    exact absurd (by simp [Event.Fails]) fine
  · intro env' shape _
    have later : env'.trace <:+ ctx.env.trace := ⟨[_], shape.symm⟩
    have unhindered' : Unhindered ke (ctx.readLocked env') := by
      obtain ⟨clean, willing, resolves, whole⟩ := unhindered
      exact ⟨clean.suffix later,
        fun event member => willing event (later.subset member),
        resolves, whole⟩
    have drains :
        wp (searchLocked ke maxnlocs)
          (fun ok ctx' => ok = false → Drained ctx'.table.kb)
          (fun _ => True) (ctx.readLocked env') :=
      wp_searchLocked_drains locSize tableSize unhindered'
    refine wp_mono
      (wp_and drains (keeps_held_searchLocked ke maxnlocs _)) ?_
      fun _ _ => trivial
    rintro ok ctx' ⟨drains, same⟩
    simp only [held, sizes, Prod.mk.injEq] at same
    obtain ⟨lockEq, tidEq, _⟩ := same
    cases ok with
    | true =>
        rw [if_pos rfl, lockEq]
        exact ⟨writer, fun _ => by simp [readLocked], by simp⟩
    | false =>
        have released :
            ctx'.unlocked.base.kdbLock = ctx.base.kdbLock := by
          simp only [unlocked, lockEq, tidEq]
          exact RwLock.release_reader writer ctx.tid
        rw [if_neg Bool.false_ne_true]
        refine ⟨?_, by simp, fun _ => ⟨released, drains rfl⟩⟩
        rw [released]
        exact writer

end KcndbDb

namespace KcndbDb

open TableCtx

variable {ctx : TableCtx}

theorem tableOpen_lock (writer : ctx.base.kdbLock.writer = none) :
    wp tableOpen
      (fun _ ctx' => ctx'.base.kdbLock = ctx.base.kdbLock)
      (fun _ => True) ctx := by
  refine wp_tableOpen trivial (fun _ => trivial)
    (fun _ _ _ _ => rfl) ?_
  intro _ env' _ _
  refine wp_imp (keeps_held_init _) ?_
  intro rc ctx' same
  simp only [held, sizes, Prod.mk.injEq] at same
  obtain ⟨lockEq, tidEq, _⟩ := same
  simp only [unlocked, lockEq, tidEq]
  exact RwLock.release_writer writer ctx.tid

/-- Without errors a call that adds a record waits until the lock is free. -/
theorem recordAdd_lock
    (writer : ctx.base.kdbLock.writer = none) (kdr : KcndbDbRecord) :
    wp (recordAdd kdr)
      (fun _ ctx' => ctx'.base.kdbLock = ctx.base.kdbLock ∧
        (ctx.env.trace.Clean → ctx.base.kdbLock.Free))
      (fun _ => True) ctx := by
  refine wp_recordAdd trivial (fun _ => trivial) ?_ ?_
  · intro error env' shape
    refine ⟨rfl, fun clean => ?_⟩
    have fine := clean (.lock (some error)) (by
      rw [shape]
      exact List.mem_cons_self)
    exact absurd (by simp [Event.Fails]) fine
  · intro env' _ free
    refine wp_imp (keeps_held_recordAddLocked kdr _) ?_
    intro result ctx' same
    simp only [held, sizes, Prod.mk.injEq] at same
    obtain ⟨lockEq, tidEq, _⟩ := same
    refine ⟨?_, fun _ => free⟩
    simp only [unlocked, lockEq, tidEq]
    exact RwLock.release_writer writer ctx.tid

end KcndbDb

/-! ### The simulation -/

namespace Table

variable {s s' : Table} {samples : List Sample} {done : Done}
  {act : Act}

/-- A call leaves the handles of the other threads alone. -/
theorem Step.others
    (step : s.Step done s') {tid : Nat} (other : tid ≠ done.tid) :
    s'.handles tid = s.handles tid := by
  have update :
      ∀ (ctx : TableCtx) kdt, ctx.tid = done.tid →
        (s.after ctx kdt).handles tid = s.handles tid := by
    intro ctx kdt tidEq
    simp only [after]
    rw [Function.update_of_ne (by rw [tidEq]; exact other)]
  cases call : done.call with
  | tableOpen loc table =>
      obtain ⟨ctx, ran, _, rfl⟩ := step.tableOpen call
      have sizes := KcndbDb.keeps_sizes_tableOpen.ok ran
      exact update ctx _ (congrArg Prod.fst sizes)
  | recordAdd kdr =>
      obtain ⟨kdt, kdr', ctx, _, ran, _, _, rfl⟩ := step.recordAdd call
      have sizes := (KcndbDb.keeps_sizes_recordAdd kdr).ok ran
      exact update ctx _ (congrArg Prod.fst sizes)
  | search ke maxnlocs =>
      obtain ⟨kdt, ctx, _, ran, _, _, rfl⟩ := step.search call
      have sizes := (KcndbDb.keeps_sizes_search ke maxnlocs).ok ran
      exact update ctx _ (congrArg Prod.fst sizes)

/--
A request around which nothing goes wrong: the answers are favourable, a
locator is one that a message can carry and its walk is not misled, and the
operator of a search is known.
-/
structure Favoured (s : Table) (request : Request) : Prop where
  favourable : request.trace.Favourable
  adds : ∀ kdr ∈ request.call.record?,
    kdr.kdrLoc.length ≤ kcnMsgMaxlocsiz ∧ Leads s.loc kdr.kdrLoc
  asks : ∀ ke maxnlocs, request.call = .search ke maxnlocs → ke.Known

/--
How a table is between acts: it stores the samples, and unless a search that
found something still has the lock, no buffer has anything left over.
-/
structure Answering (s : Table) (samples : List Sample) : Prop where
  cached : s.Cached
  stores : s.Stores samples
  writer : s.base.kdbLock.writer = none
  idle : s.base.kdbLock.readers = [] →
    ∀ tid kdt, s.handles tid = some kdt → Drained kdt.kdtTable.kb

namespace Answering

/-- The buffers after a call, from that of the calling thread. -/
theorem drained_after
    (answering : s.Answering samples) (step : s.Step done s')
    (idle : s.base.kdbLock.readers = [])
    (own : LeavesDrained done s') :
    ∀ tid kdt, s'.handles tid = some kdt → Drained kdt.kdtTable.kb := by
  intro tid kdt handle
  by_cases same : tid = done.tid
  · rw [same] at handle
    exact own kdt handle
  · rw [step.others same] at handle
    exact answering.idle idle tid kdt handle

/-- Opening a table. -/
theorem opens
    (answering : s.Answering samples) (step : s.Step done s')
    {loc table : Block} (call : done.call = .tableOpen loc table)
    (clean : done.trace.Clean) :
    s'.Answering samples := by
  obtain ⟨cached, tableEq, opened⟩ :=
    answering.cached.opens step call clean.not_torn
  have handles := (step.opened call).handles
  have lockEq : s'.base.kdbLock = s.base.kdbLock := by
    obtain ⟨ctx, ran, _, rfl⟩ := step.tableOpen call
    have same := wp_ok (KcndbDb.tableOpen_lock answering.writer) ran
    exact same
  refine ⟨cached,
    answering.stores.keep tableEq (Lasting.heapKept_open opened),
    ?_, ?_⟩
  · rw [lockEq]
    exact answering.writer
  · rw [lockEq]
    intro idle tid kdt handle
    rcases handles tid kdt handle with old | fresh
    · exact answering.idle idle tid kdt old
    · exact ⟨fresh.table.before_eq, fresh.table.after_eq⟩

/-- Adding a record gives the answer that the samples give. -/
theorem add
    (answering : s.Answering samples) (step : s.Step done s')
    {kdr : KcndbDbRecord} (call : done.call = .recordAdd kdr)
    (favoured : s.Favoured done.toRequest) :
    ∃ samples',
      Samples.respond samples done.call = (samples', done.answer) ∧
        s'.Answering samples' := by
  have clean : done.trace.Clean := favoured.favourable.clean
  obtain ⟨short, leads⟩ :=
    favoured.adds kdr (Call.record?_eq_some.mpr call)
  have locks : s'.base.kdbLock = s.base.kdbLock ∧
      s.base.kdbLock.Free := by
    obtain ⟨kdt, kdr', ctx, handle, ran, _, _, rfl⟩ :=
      step.recordAdd call
    have locked :=
      wp_ok (KcndbDb.recordAdd_lock answering.writer kdr) ran
    exact ⟨locked.1, locked.2 clean⟩
  obtain ⟨lockEq, free⟩ := locks
  have idle := free.2
  obtain ⟨cached, heap, outcome⟩ :=
    answering.cached.add answering.stores step call clean.not_torn
      short leads fun kdt => answering.idle idle done.tid kdt
  have writer : s'.base.kdbLock.writer = none := by
    rw [lockEq]
    exact answering.writer
  rw [call, Samples.respond]
  cases outcome with
  | late refused late errno tableEq locEq own =>
      refine ⟨samples, ?_, cached,
        answering.stores.keep tableEq heap, writer,
        fun _ => answering.drained_after step idle own⟩
      rw [if_pos late]
      simp [Done.answer, call, refused, errno]
  | failed _ unclean _ =>
      exact absurd clean unclean
  | stored stored ok accepted same inTime tableEq new own =>
      rw [same] at new
      refine ⟨samples ++ [kdr.sample], ?_, cached,
        answering.stores.snoc tableEq heap new, writer,
        fun _ => answering.drained_after step idle own⟩
      rw [if_neg inTime]
      simp [Done.answer, call, ok]

/-- A search gives the answer that the samples give. -/
theorem search
    (answering : s.Answering samples) (step : s.Step done s')
    {ke : KcnEq} {maxnlocs : Nat}
    (call : done.call = .search ke maxnlocs)
    (favoured : s.Favoured done.toRequest) :
    Samples.respond samples done.call = (samples, done.answer) ∧
      s'.Answering samples := by
  obtain ⟨favourable, _, asks⟩ := favoured
  obtain ⟨cached, tableEq, locEq⟩ :=
    answering.cached.search step call
  obtain ⟨kdt, ctx, handle, ran, deliveredEq, envEq, afterEq⟩ :=
    step.search call
  obtain ⟨locSize, tableSize⟩ := answering.cached.sized _ _ handle
  have wellFormed :=
    answering.stores.wellFormed answering.cached handle
      { errno := done.errno, trace := done.trace }
  have wantedEq :=
    answering.stores.wanted_eq done.tid kdt
      { errno := done.errno, trace := done.trace } ke maxnlocs
  have found :=
    wp_ok
      (KcndbDb.wp_search_wanted wellFormed (asks ke maxnlocs call)
        answering.writer locSize tableSize favourable)
      ran
  have unhindered :
      KcndbDb.Unhindered ke (s.seen done kdt) := by
    refine ⟨favourable.clean, favourable.willing, ?_,
      wellFormed.whole⟩
    intro kdr member
    obtain ⟨loc, entry⟩ :=
      wellFormed.entries kdr (List.mem_of_mem_filter member)
    exact KcndbDb.resolves_of_entry wellFormed entry
  have left :=
    wp_ok
      (KcndbDb.wp_search_drains locSize tableSize answering.writer
        unhindered)
      ran
  have tidEq : ctx.tid = done.tid :=
    congrArg Prod.fst
      ((KcndbDb.keeps_sizes_search ke maxnlocs).ok ran)
  obtain ⟨foundEq, okIff, errnoEq⟩ := found
  obtain ⟨writer, holds, drains⟩ := left
  rw [envEq] at errnoEq
  refine ⟨?_, cached,
    answering.stores.keep tableEq (.of_eq locEq), ?_, ?_⟩
  · have matchingEq :
        done.result.delivered.map KcndbDbRecord.sample =
          Samples.matching ke maxnlocs samples := by
      rw [deliveredEq, foundEq, ← wantedEq]
      rfl
    rw [call, Samples.respond]
    cases ok : done.result.ok with
    | true =>
        have some := okIff.mp ok
        have nonempty : Samples.matching ke maxnlocs samples ≠ [] := by
          rw [← wantedEq]
          simpa using some
        rw [if_neg nonempty]
        simp [Done.answer, call, ok, matchingEq]
    | false =>
        have none : Samples.matching ke maxnlocs samples = [] := by
          rw [← wantedEq]
          by_contra some
          have some' := okIff.mpr (by simpa using some)
          rw [ok] at some'
          cases some'
        rw [if_pos none]
        have errno : done.result.errno = Errno.esrch := errnoEq ok
        simp [Done.answer, call, ok, matchingEq, none, errno]
  · rw [afterEq]
    exact writer
  · intro idle
    cases ok : done.result.ok with
    | true =>
        rw [afterEq] at idle
        exact absurd idle (holds ok)
    | false =>
        obtain ⟨lockEq, before, after⟩ := drains ok
        have own : LeavesDrained done s' := by
          rw [afterEq]
          exact leavesDrained_after tidEq before after
        refine answering.drained_after step ?_ own
        rw [afterEq] at idle
        have idle : ctx.base.kdbLock.readers = [] := idle
        rw [lockEq] at idle
        exact idle

/-- A search returns if its answers are favourable ones. -/
theorem exec_search
    (answering : s.Answering samples) {tid : Nat}
    (opened : s.handles tid ≠ none) {ke : KcnEq} (known : ke.Known)
    (maxnlocs : Nat) (errno : Errno) :
    ∃ trace result error s',
      Trace.Favourable trace ∧
        s.exec tid (.search ke maxnlocs)
            { errno := errno, trace := trace } =
          .ok (result, { errno := error, trace := [] }, s') ∧
        s'.loc = s.loc ∧ s'.table = s.table := by
  obtain ⟨kdt, handle⟩ := Option.ne_none_iff_exists'.mp opened
  obtain ⟨locSize, tableSize⟩ := answering.cached.sized _ _ handle
  have wellFormed :=
    answering.stores.wellFormed answering.cached handle
      { errno := errno, trace := [] }
  obtain ⟨trace, favourable, ok, ctx, ran⟩ :=
    KcndbDb.search_returns wellFormed known answering.writer locSize
      tableSize maxnlocs
  have looked :=
    wp_ok (KcndbDb.wp_search_looks locSize tableSize ke maxnlocs) ran
  refine ⟨trace,
    { ok := ok, locidx := 0, delivered := ctx.delivered,
      errno := ctx.env.errno },
    ctx.env.errno,
    s.after (TableCtx.traceLens.set ctx [])
      (some (handleOf (TableCtx.traceLens.set ctx []))),
    favourable, ?_, looked.locContent_eq, looked.content_eq⟩
  unfold exec
  simp only [handle]
  split
  · rename_i ok' ctx' ran'
    cases ran.symm.trans ran'
    rfl
  · rename_i reason ran'
    cases ran.symm.trans ran'

/-- Every act around which nothing goes wrong is one of the samples. -/
theorem step
    (answering : s.Answering samples)
    (lives : Lives Favoured s act s') :
    ∃ samples', Samples.Takes samples act samples' ∧
      s'.Answering samples' := by
  cases lives with
  | restart =>
      exact ⟨samples, rfl, answering.cached.restarted,
        answering.stores, rfl, fun _ tid kdt handle => by cases handle⟩
  | call done _ step favoured =>
      have clean : done.trace.Clean := favoured.favourable.clean
      cases call : done.call with
      | tableOpen loc table =>
          refine ⟨samples, ?_, answering.opens step call clean⟩
          simp [Samples.Takes, Samples.respond, Done.answer, call]
      | recordAdd kdr =>
          exact answering.add step call favoured
      | search ke maxnlocs =>
          exact ⟨samples, answering.search step call favoured⟩

end Answering

/-- Before any thread opened the table there are no buffers. -/
theorem answering_onDisk
    {loc table : List UInt8} (disk : (onDisk loc table).OnDisk)
    (stores : (onDisk loc table).Stores samples) :
    (onDisk loc table).Answering samples := by
  refine ⟨cached_onDisk disk, stores, rfl, ?_⟩
  intro _ tid kdt handle
  cases handle

/--
The table is what its samples are: any run of favoured calls by any threads,
with restarts between them, gives the answers that the list of samples gives,
and leaves the samples that the list has.
-/
theorem answers_as_samples
    {loc table : List UInt8} {acts : List Act}
    (disk : (onDisk loc table).OnDisk)
    (stores : (onDisk loc table).Stores samples)
    (run : Run (Lives Favoured) (onDisk loc table) acts s) :
    ∃ samples', Run Samples.Takes samples acts samples' ∧
      s.Stores samples' := by
  have start := answering_onDisk disk stores
  have matched :
      ∀ (s : Table) samples act s',
        s.Answering samples → Lives Favoured s act s' →
        ∃ samples', Samples.Takes samples act samples' ∧
          s'.Answering samples' :=
    fun _ _ _ _ before act => before.step act
  obtain ⟨samples', run', answering⟩ := run.simulates start matched
  exact ⟨samples', run', answering.stores⟩

instance (ke : KcnEq) : Decidable ke.Known :=
  inferInstanceAs (Decidable (_ ∧ _))

/-- What tells that a request is favoured. -/
def checkFavoured (s : Table) (request : Request) : Bool :=
  decide request.trace.Favourable &&
    decide
      (∀ kdr ∈ request.call.record?,
        kdr.kdrLoc.length ≤ kcnMsgMaxlocsiz ∧
          LeadsAtOnce s.loc kdr.kdrLoc) &&
    match request.call with
    | .search ke _ => decide ke.Known
    | .tableOpen _ _ | .recordAdd _ => true

theorem favoured_of_check
    (s : Table) (request : Request)
    (passes : checkFavoured s request = true) :
    s.Favoured request := by
  simp only [checkFavoured, Bool.and_eq_true, decide_eq_true_eq]
    at passes
  obtain ⟨⟨favourable, adds⟩, asks⟩ := passes
  refine ⟨favourable, fun kdr asked => ?_, fun ke maxnlocs call => ?_⟩
  · exact (adds kdr asked).imp_right LeadsAtOnce.leads
  · rw [call] at asks
    exact of_decide_eq_true asks

/-- A search that finds the first record of the file. -/
def findsFirst (tid : Nat) : Request :=
  Request.ask tid 1 5 1
    [.read .full, .seek none, .read .full, .callback true]

/-- Adds and searches around a restart, of which two are refused. -/
def aroundRestart : List Ask :=
  [some (Request.create 0), some (Request.add 0 1 5 [1] Request.newLoc),
    some tooOld, some (Request.ask 0 1 9 1 [.read .full, .read .full]),
    some (Request.add 0 2 5 [1] known), some (findsFirst 0), none,
    some reopen, some (findsFirst 1)]

/-- What the acts answer. -/
def answersOf (acts : List Act) : List Answer :=
  acts.filterMap fun act =>
    match act with
    | .call done => done.answer
    | .restart => none

/-- The answers of these acts. -/
def expectedAnswers : List Answer :=
  [⟨none, []⟩, ⟨some Errno.erange, []⟩, ⟨some Errno.esrch, []⟩,
    ⟨none, []⟩, ⟨none, [⟨1, 5, [1]⟩]⟩, ⟨none, [⟨1, 5, [1]⟩]⟩]

/-- The acts gave these answers. -/
def showsAnswers (acts : List Act) (_ : Table) : Bool :=
  answersOf acts == expectedAnswers

/-- A run to which `answers_as_samples` applies. -/
theorem answers_as_samples_two :
    ∃ acts s samples,
      Run (Lives Favoured) (onDisk [] []) acts s ∧
      answersOf acts = expectedAnswers ∧
      Run Samples.Takes [] acts samples ∧ s.Stores samples := by
  obtain ⟨acts, s, run, shown⟩ :=
    Run.of_shown (lives_performAct favoured_of_check)
      (show
        (performAll (performAct checkFavoured) (onDisk [] [])
            aroundRestart).any
            (fun performed => showsAnswers performed.1 performed.2) =
          true
        by decide +kernel)
  have disk : (onDisk [] []).OnDisk :=
    ⟨Or.inl rfl, Nat.zero_le _, Nat.zero_le _⟩
  obtain ⟨samples, run', stores⟩ :=
    answers_as_samples disk (stores_nil []) run
  simp only [showsAnswers, beq_iff_eq] at shown
  exact ⟨acts, s, samples, run, shown, run', stores⟩

end Table

end Kcn
