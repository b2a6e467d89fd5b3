import Kcn.Capacity
import Kcn.Cached

namespace Kcn

open Program Bytes KcnBuf KcndbDb

/-!
# The index of locators that are told apart

Where the hashes of the locators that are added tell them apart, the bucket of
each is vacant or its own, and this stays so over every run with room.
-/

/-- The hashes of the locators tell them apart. -/
def Apart (locs : List (List UInt8)) : Prop :=
  ∀ first ∈ locs, ∀ second ∈ locs,
    locHash first = locHash second → first = second

/-- The entries of the map are for some of the locators. -/
def StoresSome (locs : List (List UInt8)) (buckets : Buckets) : Prop :=
  ∀ h idx stored, buckets h = some (idx, stored) →
    locHash stored = h ∧ stored ∈ locs

/-- The file is an index of some of the locators. -/
def Filed (locs : List (List UInt8)) (content : List UInt8) : Prop :=
  ∃ buckets, Indexed content buckets ∧ StoresSome locs buckets

variable {locs : List (List UInt8)} {loc : List UInt8}
  {buckets : Buckets}

theorem filed_initial (locs : List (List UInt8)) :
    Filed locs (List.replicate locIndextablesiz 0) :=
  ⟨_, Indexed.initial, by simp [StoresSome]⟩

theorem StoresSome.fits
    (stores : StoresSome locs buckets) (apart : Apart locs)
    (member : loc ∈ locs) :
    TableCtx.LocFits buckets loc := by
  intro idx stored bucket
  obtain ⟨hashEq, known⟩ := stores _ idx stored bucket
  rw [apart stored known loc member hashEq]
  exact sameLoc_self loc

/-- A new entry is for one of the locators. -/
theorem StoresSome.insert
    (stores : StoresSome locs buckets) (member : loc ∈ locs)
    (idx : UInt64) :
    StoresSome locs
      (Function.update buckets (locHash loc) (some (idx, loc))) := by
  intro h idx' stored bucket
  by_cases same : h = locHash loc
  · rw [same, Function.update_self] at bucket
    obtain ⟨_, rfl⟩ := Prod.mk.inj (Option.some.inj bucket)
    exact ⟨same.symm, member⟩
  · rw [Function.update_of_ne same] at bucket
    exact stores h idx' stored bucket

namespace TableCtx

variable {ctx ctx' : TableCtx}

/-- Adding one of the locators leaves an index of them. -/
theorem LocAdded.filed
    {result : Option UInt64}
    (added : LocAdded ctx buckets loc result ctx')
    (sound : ctx.LocSound buckets)
    (stores : StoresSome locs buckets) (member : loc ∈ locs)
    (short : loc.length ≤ kcnMsgMaxlocsiz)
    (clean : ctx.env.trace.Clean) :
    Filed locs ctx'.loc.content ∧
      ctx'.base.kdbLocsize = ctx'.loc.content.length := by
  have indexed := sound.indexed
  have locsize := sound.locsize
  cases added with
  | torn _ torn =>
      exact absurd torn clean.not_torn
  | unchanged _ contentEq locsizeEq =>
      rw [contentEq, locsizeEq]
      exact ⟨⟨buckets, indexed, stores⟩, locsize⟩
  | unpatched _ contentEq locsizeEq =>
      rw [contentEq, locsizeEq, List.length_append, locsize]
      exact ⟨⟨buckets, indexed.append _, stores⟩, rfl⟩
  | found _ idx stored _ _ contentEq locsizeEq =>
      rw [contentEq, locsizeEq]
      exact ⟨⟨buckets, indexed, stores⟩, locsize⟩
  | linked _ idx _ idxEq contentEq locsizeEq =>
      have slots := indexed.slots
      have inside := slotOff_inside (locHash_lt loc)
      rw [contentEq, locsizeEq, locsize]
      refine ⟨⟨_, indexed.insert short idxEq, stores.insert member idx⟩, ?_⟩
      rw [length_overwrite _ _ _
          (by rw [List.length_append]; omega),
        List.length_append, length_bytes64]
      omega

/-- The file of the locators and its size, as adding a record leaves them. -/
structure Ample (locs : List (List UInt8)) (ctx : TableCtx) : Prop where
  sizes : ctx.base.kdbTablesize ≤ ctx.table.content.length
  filed : Filed locs ctx.loc.content
  locsize : ctx.base.kdbLocsize = ctx.loc.content.length

theorem Visits.ample
    (visits : ctx.Visits ctx') (ample : ctx.Ample locs) :
    ctx'.Ample locs := by
  obtain ⟨sizes, filed, locsize⟩ := ample
  rw [← visits.base_eq] at sizes locsize
  rw [← visits.content_eq] at sizes
  rw [← visits.locContent_eq] at filed locsize
  exact ⟨sizes, filed, locsize⟩

theorem Looked.ample
    (looked : ctx.Looked ctx') (ample : ctx.Ample locs) :
    ctx'.Ample locs := by
  obtain ⟨sizes, filed, locsize⟩ := ample
  rw [← looked.tablesize_eq, ← looked.content_eq] at sizes
  rw [← looked.locContent_eq] at filed locsize
  rw [← looked.locsize_eq] at locsize
  exact ⟨sizes, filed, locsize⟩

end TableCtx

namespace KcndbDb

open TableCtx KcndbFile

variable {ctx : TableCtx} {kdr : KcndbDbRecord}

/-- Storing a record makes the file longer by at least the record. -/
theorem wp_recordAppend_ample
    (locs : List (List UInt8)) (atStart : ctx.AtStart) :
    wp (recordAppend kdr)
      (fun _ ctx' => ctx.env.trace.Clean → ctx.Ample locs →
        ctx'.Ample locs)
      (fun _ => True) ctx := by
  refine wp_recordAppend trivial atStart.before_eq (fun _ => trivial) ?_
  intro ok ctx' appended clean ample
  have frame := appended.frame
  have recorded := appended.recorded atStart.size_eq atStart.bounded
  have locEq : ctx'.loc = ctx.loc := by
    rw [frame]
  obtain ⟨sizes, filed, locsize⟩ := ample
  rw [← locEq] at filed locsize
  cases recorded with
  | stored _ baseEq contentEq _ =>
      rw [← length_encodeRecord kdr] at baseEq
      refine ⟨?_, filed, ?_⟩
      · rw [baseEq, contentEq, List.length_append, List.length_append]
        simp only
        omega
      · rw [baseEq]
        exact locsize
  | kept _ unclean _ _ _ =>
      exact absurd clean unclean
  | torn _ torn =>
      exact absurd torn clean.not_torn

/-- Adding a record with the lock. -/
theorem wp_recordAddLocked_ample
    (apart : Apart locs) (atStart : ctx.AtStart)
    (ample : ctx.Ample locs)
    (locSize : ctx.loc.kb.size = kcndbFileBufsiz)
    (locBounded : ctx.loc.content.length ≤ offMax)
    (member : kdr.kdrLoc ∈ locs)
    (short : kdr.kdrLoc.length ≤ kcnMsgMaxlocsiz) :
    wp (recordAddLocked kdr)
      (fun _ ctx' => ctx.env.trace.Clean → ctx'.Ample locs)
      (fun _ => True) ctx := by
  refine wp_recordAddLocked ?_
  refine wp_recordReadLast trivial atStart.before_eq
    (by rw [atStart.size_eq]; decide) ?_
  intro result ctx₁ last
  have visits := last.visits
  obtain ⟨atStart₁, answers₁⟩ := last.moved atStart
  have ample₁ := visits.ample ample
  cases result with
  | none =>
      exact fun _ => ample₁
  | some kdr0 =>
      refine ⟨fun _ _ => ⟨ample₁.sizes, ample₁.filed, ample₁.locsize⟩,
        fun _ => ?_⟩
      obtain ⟨buckets, indexed, stores⟩ := ample₁.filed
      have sound : ctx₁.LocSound buckets := ⟨indexed, ample₁.locsize⟩
      have adds :=
        wp_locAdd (visits.locSize_eq.trans locSize) sound
          (by rw [visits.locContent_eq]; exact locBounded)
          (stores.fits apart member)
      have consumes : Consumes answers (fun _ => True) (locAdd kdr.kdrLoc) :=
        consumes_locAdd trivial trivial kdr.kdrLoc
      have keeps :=
        consumes.wp (keeps_tablePart_locAdd kdr.kdrLoc ctx₁)
      refine wp_mono (wp_and adds keeps) ?_ (fun _ _ => trivial)
      rintro found ctx₂ ⟨added, same, answers₂⟩
      simp only [tablePart, Prod.mk.injEq] at same
      obtain ⟨_, tablesizeEq, tableEq⟩ := same
      have atStart₂ : ctx₂.AtStart := by
        obtain ⟨size, before, bounded⟩ := atStart₁
        rw [← tableEq] at size before bounded
        exact ⟨size, before, bounded⟩
      have ample₂ (clean : ctx.env.trace.Clean) : ctx₂.Ample locs := by
        obtain ⟨filed, locsize⟩ :=
          added.filed sound stores member short (clean.suffix answers₁)
        refine ⟨?_, filed, locsize⟩
        rw [tablesizeEq, tableEq]
        exact ample₁.sizes
      cases found with
      | none =>
          exact ample₂
      | some idx =>
          refine wp_imp (wp_recordAppend_ample locs atStart₂) ?_
          intro ok ctx₃ keeps clean
          exact keeps (clean.suffix (answers₂.trans answers₁))
            (ample₂ clean)

/-- `kcndb_db_record_add` -/
theorem wp_recordAdd_ample
    (apart : Apart locs) (atStart : ctx.AtStart)
    (ample : ctx.Ample locs)
    (locSize : ctx.loc.kb.size = kcndbFileBufsiz)
    (locBounded : ctx.loc.content.length ≤ offMax)
    (member : kdr.kdrLoc ∈ locs)
    (short : kdr.kdrLoc.length ≤ kcnMsgMaxlocsiz) :
    wp (recordAdd kdr)
      (fun _ ctx' => ctx.env.trace.Clean → ctx'.Ample locs)
      (fun _ => True) ctx := by
  refine wp_recordAdd trivial (fun _ => trivial)
    (fun _ _ _ _ => ⟨ample.sizes, ample.filed, ample.locsize⟩) ?_
  intro env' shape _
  have locked : (ctx.writeLocked env').AtStart :=
    ⟨atStart.size_eq, atStart.before_eq, atStart.bounded⟩
  refine wp_imp
    (wp_recordAddLocked_ample apart locked
      ⟨ample.sizes, ample.filed, ample.locsize⟩ locSize locBounded
      member short) ?_
  intro result ctx' keeps clean
  obtain ⟨sizes, filed, locsize⟩ := keeps (clean.suffix ⟨[_], shape.symm⟩)
  exact ⟨sizes, filed, locsize⟩

end KcndbDb

/-! ### Runs with room -/

namespace Table

open TableCtx KcndbDb

variable {s s' : Table} {done : Done}

/-- What a run with room on locators that are told apart keeps. -/
structure Spread (locs : List (List UInt8)) (s : Table) : Prop where
  atStart : s.AtStart
  locFits : s.loc.length ≤ offMax
  file : s.loc = [] ∨ Filed locs s.loc
  locKnown : s.LocKnown
  sizes : s.base.kdbTablesize ≤ s.table.length

/-- The locator is one of those, and a message can carry it. -/
def Among (locs : List (List UInt8)) (kdr : KcndbDbRecord) : Prop :=
  kdr.kdrLoc ∈ locs ∧ kdr.kdrLoc.length ≤ kcnMsgMaxlocsiz

namespace Spread

/-- A thread sees an index of some of the locators. -/
theorem ample
    (spread : s.Spread locs) {tid : Nat} {kdt : KcndbDbTable}
    (handle : s.handles tid = some kdt) (env : Env) :
    (s.view tid kdt env).Ample locs := by
  obtain ⟨locsize, some⟩ := spread.locKnown.opened tid kdt handle
  refine ⟨spread.sizes, spread.file.resolve_left ?_, locsize⟩
  intro none
  rw [none] at some
  exact absurd some (Nat.lt_irrefl 0)

/-- The files after a call of a thread that has opened the table. -/
theorem after
    (step : s.Step done s') (atStart : s'.AtStart) (filed : Filed locs s'.loc)
    (locsize : s'.base.kdbLocsize = s'.loc.length)
    (sizes : s'.base.kdbTablesize ≤ s'.table.length) :
    s'.Spread locs := by
  have some : 0 < s'.loc.length := by
    obtain ⟨buckets, indexed, _⟩ := filed
    exact Nat.lt_of_lt_of_le (by decide) indexed.slots
  exact ⟨atStart, step.locFits, Or.inr filed,
    ⟨Or.inr locsize, fun _ _ _ => ⟨locsize, some⟩⟩, sizes⟩

/-- Every call for which there is room keeps the files so. -/
theorem step
    (spread : s.Spread locs) (apart : Apart locs)
    (step : s.Step done s') (roomy : s.Roomy done.toRequest)
    (among : ∀ kdr ∈ done.call.record?, Among locs kdr) :
    s'.Spread locs := by
  have atStart := spread.atStart.step step roomy
  cases call : done.call with
  | tableOpen loc table =>
      have opened := step.opened call
      have tableEq := opened.table_eq
      obtain ⟨locKnown, locOpened⟩ :=
        spread.locKnown.opens step call roomy.1.not_torn
      refine ⟨atStart, step.locFits, ?_, locKnown, ?_⟩
      · rcases locOpened with same | ⟨_, created⟩
        · rw [same]
          exact spread.file
        · rw [created]
          exact Or.inr (filed_initial locs)
      · rw [tableEq]
        rcases opened.tablesize with same | ⟨_, length⟩
        · rw [same]
          exact spread.sizes
        · exact Nat.le_of_eq length
  | recordAdd kdr =>
      obtain ⟨kdt, kdr', ctx, handle, ran, _, _, rfl⟩ :=
        step.recordAdd call
      obtain ⟨member, short⟩ :=
        among kdr (Call.record?_eq_some.mpr call)
      obtain ⟨locSize, _⟩ := spread.atStart.sized _ _ handle
      obtain ⟨sizes, filed, locsize⟩ :=
        wp_ok
          (KcndbDb.wp_recordAdd_ample apart
            (spread.atStart.view handle _) (spread.ample handle _)
            locSize spread.locFits member short)
          ran roomy.1
      exact after step atStart filed locsize sizes
  | search ke maxnlocs =>
      obtain ⟨kdt, ctx, handle, looked, _, rfl⟩ :=
        step.looked call spread.atStart.sized
      have ample :=
        spread.ample handle
          { errno := done.errno, trace := done.trace }
      obtain ⟨sizes, filed, locsize⟩ := looked.ample ample
      exact after step atStart filed locsize sizes

end Spread

theorem spread_onDisk
    {loc table : List UInt8} (tableFits : table.length ≤ offMax)
    (locFits : loc.length ≤ offMax) (file : loc = [] ∨ Filed locs loc) :
    (onDisk loc table).Spread locs :=
  ⟨atStart_onDisk tableFits, locFits, file,
    ⟨Or.inl rfl, fun _ _ handle => by cases handle⟩, Nat.zero_le _⟩

/-- A call for which there is room, on one of the locators. -/
def RoomyAmong
    (locs : List (List UInt8)) (s : Table) (request : Request) : Prop :=
  s.Roomy request ∧ ∀ kdr ∈ request.call.record?, Among locs kdr

/-- A run with room keeps an index of the locators. -/
theorem spread_run
    {loc table : List UInt8} {dones : List Done}
    (tableFits : table.length ≤ offMax) (locFits : loc.length ≤ offMax)
    (file : loc = [] ∨ Filed locs loc) (apart : Apart locs)
    (run :
      Run (Guarded Step fun s done => s.RoomyAmong locs done.toRequest)
        (onDisk loc table) dones s) :
    s.Spread locs := by
  induction run with
  | nil =>
      exact spread_onDisk tableFits locFits file
  | snoc _ last inductionHypothesis =>
      obtain ⟨step, roomy, among⟩ := last
      exact inductionHypothesis.step apart step roomy among

end Table

end Kcn
