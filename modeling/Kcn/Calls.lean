import Kcn.Frame
import Kcn.Table

namespace Kcn

open Program

/-!
# The calls on a table

How the three calls are put together from the lock and the operations below
it.  The rules leave the work on the files to the caller, so that each result
about runs only supplies what it needs of that.
-/

namespace TableCtx

/-- The state once the calling thread took the lock for writing. -/
def writeLocked (ctx : TableCtx) (env : Env) : TableCtx := {
  ctx with
  base := {
    ctx.base with
    kdbLock := { ctx.base.kdbLock with writer := some ctx.tid }
  }
  env := env
}

/-- The state once the calling thread took the lock for reading. -/
def readLocked (ctx : TableCtx) (env : Env) : TableCtx := {
  ctx with
  base := {
    ctx.base with
    kdbLock := {
      ctx.base.kdbLock with
      readers := ctx.tid :: ctx.base.kdbLock.readers
    }
  }
  env := env
}

/-- The state once the calling thread released the lock. -/
def unlocked (ctx : TableCtx) : TableCtx := {
  ctx with
  base := {
    ctx.base with kdbLock := ctx.base.kdbLock.release ctx.tid
  }
}

end TableCtx

namespace KcndbDb

open TableCtx KcndbFile

variable {halt : Stop → Prop} {ctx : TableCtx}

/-- `kcndb_db_wrlock` -/
theorem wp_wrlock
    {post : Bool → TableCtx → Prop}
    (starved : halt .starved)
    (blocked : ¬ ctx.base.kdbLock.Free → halt .blocked)
    (locked : ∀ env',
      ctx.env.trace = .lock none :: env'.trace →
      ctx.base.kdbLock.Free →
      post true (ctx.writeLocked env'))
    (refused : ∀ error env',
      ctx.env.trace = .lock (some error) :: env'.trace →
      post false { ctx with env := env' }) :
    wp wrlock post halt ctx := by
  unfold wrlock
  rw [wp_bind, sys, wp_zoom]
  refine Env.wp_next starved ?_
  intro event rest shape
  match event with
  | .lock none =>
      rw [wp_bind, wp_gets, wp_ite]
      exact ⟨fun free => locked _ shape free, blocked⟩
  | .lock (some error) =>
      simp only [wp_bind, sys, wp_zoom, Env.setErrno, wp_modify,
        wp_pure]
      exact refused error _ shape
  | .openFile _ | .stat _ | .seek _ | .read _ | .write _
  | .callback _ =>
      exact starved

/-- `kcndb_db_rdlock` -/
theorem wp_rdlock
    {post : Bool → TableCtx → Prop}
    (starved : halt .starved)
    (blocked : ctx.base.kdbLock.writer ≠ none → halt .blocked)
    (locked : ∀ env',
      ctx.env.trace = .lock none :: env'.trace →
      ctx.base.kdbLock.writer = none →
      post true (ctx.readLocked env'))
    (refused : ∀ error env',
      ctx.env.trace = .lock (some error) :: env'.trace →
      post false { ctx with env := env' }) :
    wp rdlock post halt ctx := by
  unfold rdlock
  rw [wp_bind, sys, wp_zoom]
  refine Env.wp_next starved ?_
  intro event rest shape
  match event with
  | .lock none =>
      rw [wp_bind, wp_gets, wp_ite]
      exact ⟨fun free => locked _ shape free, blocked⟩
  | .lock (some error) =>
      simp only [wp_bind, sys, wp_zoom, Env.setErrno, wp_modify,
        wp_pure]
      exact refused error _ shape
  | .openFile _ | .stat _ | .seek _ | .read _ | .write _
  | .callback _ =>
      exact starved

/-- `kcndb_db_unlock` -/
@[simp] theorem wp_unlock {post : Unit → TableCtx → Prop} :
    wp unlock post halt ctx ↔ post () ctx.unlocked :=
  Iff.rfl

/-- `kcndb_file_open` -/
theorem wp_fileOpen
    {post : Bool → TableCtx → Prop}
    (starved : halt .starved)
    (opened : ∀ env',
      ctx.env.trace = .openFile none :: env'.trace →
      post true { ctx with env := env' })
    (refused : ∀ error env',
      ctx.env.trace = .openFile (some error) :: env'.trace →
      post false { ctx with env := env' }) :
    wp fileOpen post halt ctx := by
  unfold fileOpen
  rw [wp_bind, sys, wp_zoom]
  refine Env.wp_next starved ?_
  intro event rest shape
  match event with
  | .openFile none =>
      exact opened _ shape
  | .openFile (some error) =>
      simp only [wp_bind, sys, wp_zoom, Env.setErrno, wp_modify,
        wp_pure]
      exact refused error _ shape
  | .lock _ | .stat _ | .seek _ | .read _ | .write _
  | .callback _ =>
      exact starved

/--
`kcndb_db_table_open`: either it returns false before it took the lock, having
changed nothing but the environment, or it runs `kcndb_db_init` with the lock.
-/
theorem wp_tableOpen
    {post : Bool → TableCtx → Prop}
    (starved : halt .starved)
    (blocked : ¬ ctx.base.kdbLock.Free → halt .blocked)
    (refused : ∀ taken env',
      ctx.env.trace = taken ++ env'.trace →
      ¬ Trace.Clean taken →
      post false { ctx with env := env' })
    (locked : ∀ taken env',
      ctx.env.trace = taken ++ env'.trace →
      ctx.base.kdbLock.Free →
      wp init (fun rc ctx' => post rc ctx'.unlocked) halt
        (ctx.writeLocked env')) :
    wp tableOpen post halt ctx := by
  unfold tableOpen
  rw [wp_bind]
  refine wp_fileOpen starved ?_ ?_
  · intro env₁ shape₁
    rw [if_pos rfl, wp_bind]
    refine wp_fileOpen starved ?_ ?_
    · intro env₂ shape₂
      rw [if_pos rfl, wp_bind]
      refine wp_wrlock starved blocked ?_ ?_
      · intro env₃ shape₃ free
        simp only [↓reduceIte, wp_bind, wp_unlock, wp_pure]
        refine locked
          [.openFile none, .openFile none, .lock none] env₃ ?_ free
        simp [shape₁, ← shape₃, ← shape₂]
      · intro error env₃ shape₃
        refine refused
          [.openFile none, .openFile none, .lock (some error)]
          env₃ ?_ ?_
        · simp [shape₁, ← shape₃, ← shape₂]
        · simp [Trace.Clean, Event.Fails]
    · intro error env₂ shape₂
      refine refused [.openFile none, .openFile (some error)]
        env₂ ?_ ?_
      · simp [shape₁, ← shape₂]
      · simp [Trace.Clean, Event.Fails]
  · intro error env₁ shape₁
    refine refused [.openFile (some error)] env₁ shape₁ ?_
    simp [Trace.Clean, Event.Fails]

/--
`kcndb_db_record_add` between taking and releasing the lock; the chain of the
locator is walked and extended after the last record was accepted.
-/
theorem wp_recordAddLocked
    {post : Bool × KcndbDbRecord → TableCtx → Prop}
    {kdr : KcndbDbRecord}
    (last :
      wp recordReadLast
        (fun result ctx₁ =>
          match result with
          | none => post (false, kdr) ctx₁
          | some kdr0 =>
              (kdr0.kdrTime > kdr.kdrTime →
                post (false, kdr)
                  { ctx₁ with
                    env := {
                      errno := Errno.erange, trace := ctx₁.env.trace
                    } }) ∧
              (¬ kdr0.kdrTime > kdr.kdrTime →
                wp (locAdd kdr.kdrLoc)
                  (fun found ctx₂ =>
                    match found with
                    | none => post (false, kdr) ctx₂
                    | some idx =>
                        wp
                          (recordAppend
                            { kdr with kdrLocidx := idx })
                          (fun ok ctx₃ =>
                            post
                              (ok, { kdr with kdrLocidx := idx })
                              ctx₃)
                          halt ctx₂)
                  halt ctx₁))
        halt ctx) :
    wp (recordAddLocked kdr) post halt ctx := by
  unfold recordAddLocked
  refine wp_seq last ?_
  intro result ctx₁ outcome
  cases result with
  | none =>
      exact outcome
  | some kdr0 =>
      rw [wp_ite]
      refine ⟨outcome.1, fun accepted => ?_⟩
      refine wp_seq (outcome.2 accepted) ?_
      intro found ctx₂ linked
      cases found with
      | none =>
          exact linked
      | some idx =>
          simp only [wp_bind, wp_pure]
          exact linked

/-- `kcndb_db_record_add` -/
theorem wp_recordAdd
    {post : Bool × KcndbDbRecord → TableCtx → Prop}
    {kdr : KcndbDbRecord}
    (starved : halt .starved)
    (blocked : ¬ ctx.base.kdbLock.Free → halt .blocked)
    (refused : ∀ error env',
      ctx.env.trace = .lock (some error) :: env'.trace →
      post (false, kdr) { ctx with env := env' })
    (locked : ∀ env',
      ctx.env.trace = .lock none :: env'.trace →
      ctx.base.kdbLock.Free →
      wp (recordAddLocked kdr)
        (fun result ctx' => post result ctx'.unlocked) halt
        (ctx.writeLocked env')) :
    wp (recordAdd kdr) post halt ctx := by
  unfold recordAdd
  rw [wp_bind]
  refine wp_wrlock starved blocked ?_ refused
  intro env' shape free
  simp only [↓reduceIte, wp_bind, wp_unlock, wp_pure]
  exact locked env' shape free

/--
`kcndb_db_search`: the lock is released only where the search fails after
taking it.
-/
theorem wp_search
    {post : Bool → TableCtx → Prop} {ke : KcnEq} {maxnlocs : Nat}
    (starved : halt .starved)
    (blocked : ctx.base.kdbLock.writer ≠ none → halt .blocked)
    (refused : ∀ error env',
      ctx.env.trace = .lock (some error) :: env'.trace →
      post false { ctx with env := env' })
    (locked : ∀ env',
      ctx.env.trace = .lock none :: env'.trace →
      ctx.base.kdbLock.writer = none →
      wp (searchLocked ke maxnlocs)
        (fun ok ctx' =>
          if ok then post true ctx' else post false ctx'.unlocked)
        halt (ctx.readLocked env')) :
    wp (search ke maxnlocs) post halt ctx := by
  unfold search
  rw [wp_bind]
  refine wp_rdlock starved blocked ?_ refused
  intro env' shape free
  rw [if_pos rfl]
  refine wp_seq (locked env' shape free) ?_
  intro ok ctx' outcome
  cases ok <;> simpa using outcome

end KcndbDb

namespace TableCtx

/-- The calling thread and the sizes of its buffers. -/
def sizes (ctx : TableCtx) : Nat × Nat × Nat :=
  (ctx.tid, ctx.locBufSize, ctx.tableBufSize)

/-- What a call keeps while it has the lock. -/
def held (ctx : TableCtx) : RwLock × Nat × Nat × Nat :=
  (ctx.base.kdbLock, ctx.sizes)

theorem keeps_held_onLoc
    {α : Type} {op : FileCtx.FileOp α}
    (keeps : Keeps KcndbFile.bufSize op) :
    Keeps held (onLoc op) := by
  intro ctx
  rw [onLoc, wp_zoom]
  refine wp_imp (keeps (locLens.get ctx)) ?_
  intro _ part same
  exact congrArg
    (fun size => (ctx.base.kdbLock, ctx.tid, size, ctx.tableBufSize))
    same

theorem keeps_held_onTable
    {α : Type} {op : FileCtx.FileOp α}
    (keeps : Keeps KcndbFile.bufSize op) :
    Keeps held (onTable op) := by
  intro ctx
  rw [onTable, wp_zoom, wp_mapStop]
  refine wp_mono (keeps (tableLens.get ctx)) ?_ fun _ => id
  intro _ part same
  exact congrArg
    (fun size => (ctx.base.kdbLock, ctx.tid, ctx.locBufSize, size))
    same

theorem keeps_held_sys
    {α : Type} (op : Program Stop Env α) : Keeps held (sys op) :=
  .zoom fun _ _ => rfl

end TableCtx

namespace KcndbDb

open TableCtx

theorem keeps_held_init : Keeps held init :=
  keeps_init (fun _ keeps => keeps_held_onLoc keeps)
    (fun _ keeps => keeps_held_onTable keeps) fun _ _ _ => rfl

theorem keeps_held_recordAddLocked (kdr : KcndbDbRecord) :
    Keeps held (recordAddLocked kdr) :=
  keeps_recordAddLocked (fun _ keeps => keeps_held_onLoc keeps)
    (fun _ keeps => keeps_held_onTable keeps) keeps_held_sys
    (fun _ _ _ => rfl) kdr

theorem keeps_held_searchLocked (ke : KcnEq) (maxnlocs : Nat) :
    Keeps held (searchLocked ke maxnlocs) :=
  keeps_searchLocked (fun _ keeps => keeps_held_onLoc keeps)
    (fun _ keeps => keeps_held_onTable keeps) keeps_held_sys
    (fun _ _ => rfl) ke maxnlocs

variable {ctx : TableCtx}

theorem keeps_sizes_tableOpen : Keeps sizes tableOpen := by
  intro ctx
  refine wp_tableOpen trivial (fun _ => trivial)
    (fun _ _ _ _ => rfl) ?_
  intro taken env' _ _
  refine wp_imp (keeps_held_init _) ?_
  intro rc ctx' same
  exact congrArg Prod.snd same

theorem keeps_sizes_recordAdd (kdr : KcndbDbRecord) :
    Keeps sizes (recordAdd kdr) := by
  intro ctx
  refine wp_recordAdd trivial (fun _ => trivial)
    (fun _ _ _ => rfl) ?_
  intro env' _ _
  refine wp_imp (keeps_held_recordAddLocked kdr _) ?_
  intro result ctx' same
  exact congrArg Prod.snd same

theorem keeps_sizes_search (ke : KcnEq) (maxnlocs : Nat) :
    Keeps sizes (search ke maxnlocs) := by
  intro ctx
  refine wp_search trivial (fun _ => trivial) (fun _ _ _ => rfl) ?_
  intro env' _ _
  refine wp_imp (keeps_held_searchLocked ke maxnlocs _) ?_
  intro ok ctx' same
  have sizesEq := congrArg Prod.snd same
  cases ok
  · exact sizesEq
  · exact sizesEq

end KcndbDb

namespace Table

variable {s s' : Table} {done : Done}

namespace Step

/-- A call to open a table ran `kcndb_db_table_open` on new buffers. -/
theorem tableOpen
    (step : s.Step done s') {loc table : Block}
    (call : done.call = .tableOpen loc table) :
    ∃ ctx,
      KcndbDb.tableOpen
          (s.view done.tid
            { kdtLoc := FileHandle.new loc
              kdtTable := FileHandle.new table }
            { errno := done.errno, trace := done.trace }) =
        .ok (done.result.ok, ctx) ∧
      ctx.env = { errno := done.result.errno, trace := [] } ∧
      s' = s.after ctx
        (if done.result.ok then some (handleOf ctx) else none) := by
  have returns := step.returns
  unfold exec at returns
  rw [call] at returns
  simp only at returns
  split at returns
  · rename_i ok ctx ran
    simp only [Except.ok.injEq, Prod.mk.injEq] at returns
    obtain ⟨resultEq, envEq, tableEq⟩ := returns
    rw [← resultEq]
    refine ⟨ctx, ran, ?_, tableEq.symm⟩
    rw [envEq, ← resultEq]
  · cases returns

/-- A call to add a record ran `kcndb_db_record_add`. -/
theorem recordAdd
    (step : s.Step done s') {kdr : KcndbDbRecord}
    (call : done.call = .recordAdd kdr) :
    ∃ kdt kdr' ctx,
      s.handles done.tid = some kdt ∧
      KcndbDb.recordAdd kdr
          (s.view done.tid kdt
            { errno := done.errno, trace := done.trace }) =
        .ok ((done.result.ok, kdr'), ctx) ∧
      done.result.locidx = kdr'.kdrLocidx ∧
      ctx.env = { errno := done.result.errno, trace := [] } ∧
      s' = s.after ctx (some (handleOf ctx)) := by
  have returns := step.returns
  unfold exec at returns
  rw [call] at returns
  simp only at returns
  split at returns
  · rename_i kdt handle
    split at returns
    · rename_i ok kdr' ctx ran
      simp only [Except.ok.injEq, Prod.mk.injEq] at returns
      obtain ⟨resultEq, envEq, tableEq⟩ := returns
      rw [← resultEq]
      refine ⟨kdt, kdr', ctx, handle, ran, rfl, ?_, tableEq.symm⟩
      rw [envEq, ← resultEq]
    · cases returns
  · cases returns

/-- A call to search ran `kcndb_db_search`. -/
theorem search
    (step : s.Step done s') {ke : KcnEq} {maxnlocs : Nat}
    (call : done.call = .search ke maxnlocs) :
    ∃ kdt ctx,
      s.handles done.tid = some kdt ∧
      KcndbDb.search ke maxnlocs
          (s.view done.tid kdt
            { errno := done.errno, trace := done.trace }) =
        .ok (done.result.ok, ctx) ∧
      done.result.delivered = ctx.delivered ∧
      ctx.env = { errno := done.result.errno, trace := [] } ∧
      s' = s.after ctx (some (handleOf ctx)) := by
  have returns := step.returns
  unfold exec at returns
  rw [call] at returns
  simp only at returns
  split at returns
  · rename_i kdt handle
    split at returns
    · rename_i ok ctx ran
      simp only [Except.ok.injEq, Prod.mk.injEq] at returns
      obtain ⟨resultEq, envEq, tableEq⟩ := returns
      rw [← resultEq]
      refine ⟨kdt, ctx, handle, ran, rfl, ?_, tableEq.symm⟩
      rw [envEq, ← resultEq]
    · cases returns
  · cases returns

end Step

/-- The buffers of all threads have the size that `kcndb_file_new` gives them. -/
def Sized (s : Table) : Prop :=
  ∀ tid kdt, s.handles tid = some kdt →
    kdt.kdtLoc.kb.size = kcndbFileBufsiz ∧
      kdt.kdtTable.kb.size = kcndbFileBufsiz

theorem sized_blank : blank.Sized := by
  intro tid kdt handle
  cases handle

/-- A call whose buffers keep their sizes keeps the table sized. -/
theorem Sized.after
    (sized : s.Sized) {tid : Nat} {kdt : KcndbDbTable} {env : Env}
    {ctx : TableCtx}
    (same : ctx.sizes = (s.view tid kdt env).sizes)
    (locSize : kdt.kdtLoc.kb.size = kcndbFileBufsiz)
    (tableSize : kdt.kdtTable.kb.size = kcndbFileBufsiz)
    (ok : Bool) :
    (s.after ctx (if ok then some (handleOf ctx) else none)).Sized := by
  simp only [TableCtx.sizes, Prod.mk.injEq] at same
  obtain ⟨_, locEq, tableEq⟩ := same
  intro other kdt' handle
  simp only [Table.after] at handle
  by_cases own : other = ctx.tid
  · rw [own, Function.update_self] at handle
    cases ok with
    | true =>
        obtain rfl := Option.some.inj handle
        exact ⟨locEq.trans locSize, tableEq.trans tableSize⟩
    | false =>
        cases handle
  · rw [Function.update_of_ne own] at handle
    exact sized other kdt' handle

/-- Every call keeps the table sized. -/
theorem Step.sized (step : s.Step done s') (sized : s.Sized) :
    s'.Sized := by
  cases call : done.call with
  | tableOpen loc table =>
      obtain ⟨ctx, ran, _, rfl⟩ := step.tableOpen call
      exact sized.after (KcndbDb.keeps_sizes_tableOpen.ok ran)
        loc.property table.property done.result.ok
  | recordAdd kdr =>
      obtain ⟨kdt, kdr', ctx, handle, ran, _, _, rfl⟩ :=
        step.recordAdd call
      obtain ⟨locSize, tableSize⟩ := sized _ _ handle
      exact sized.after ((KcndbDb.keeps_sizes_recordAdd kdr).ok ran)
        locSize tableSize true
  | search ke maxnlocs =>
      obtain ⟨kdt, ctx, handle, ran, _, _, rfl⟩ := step.search call
      obtain ⟨locSize, tableSize⟩ := sized _ _ handle
      exact sized.after ((KcndbDb.keeps_sizes_search ke maxnlocs).ok ran)
        locSize tableSize true

end Table

end Kcn
