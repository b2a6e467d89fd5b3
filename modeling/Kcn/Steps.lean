import Kcn.Opening
import Kcn.TableFile

namespace Kcn

open Program KcnBuf

/-!
# The effect of each call on a table

One lemma for each call that a thread can make: what the call leaves of the
shared files and sizes, and of the buffers of the threads.
-/

namespace TableCtx

/-- `kcndb_db_table_open` with new buffers. -/
inductive Opened (ctx : TableCtx) : Bool → TableCtx → Prop where
  | refused (env' : Env) :
      ¬ Trace.Clean ctx.env.trace →
      Opened ctx false { ctx with env := env' }
  | inited (env' : Env) (ok : Bool) (ctx' : TableCtx) :
      env'.trace <:+ ctx.env.trace →
      (ctx.writeLocked env').Inited ok ctx' →
      Opened ctx ok ctx'.unlocked

end TableCtx

namespace KcndbDb

open TableCtx

theorem wp_tableOpen_inits
    {ctx : TableCtx}
    (fresh : ctx.loc.kb.Holds kcndbFileBufsiz 0 [] []) :
    wp tableOpen (Opened ctx) (fun _ => True) ctx := by
  refine wp_tableOpen trivial (fun _ => trivial) ?_ ?_
  · intro taken env' shape unclean
    refine .refused env' ?_
    rw [shape, Trace.clean_append]
    exact fun both => unclean both.1
  · intro taken env' shape _
    have locked :
        (ctx.writeLocked env').loc.kb.Holds kcndbFileBufsiz 0 [] [] :=
      fresh
    refine wp_imp (wp_init locked) ?_
    intro rc ctx' inited
    exact .inited env' rc ctx' ⟨taken, shape.symm⟩ inited

end KcndbDb

namespace Table

/-- The buffers of a newly opened table are empty. -/
structure Fresh (kdt : KcndbDbTable) : Prop where
  loc : kdt.kdtLoc.kb.size = kcndbFileBufsiz
  table : kdt.kdtTable.kb.Holds kcndbFileBufsiz 0 [] []

/-- The handles after a call: those of before, or a new one of the caller. -/
theorem handles_after
    {s : Table} {ctx : TableCtx} {new : Option KcndbDbTable}
    {tid : Nat} {kdt : KcndbDbTable}
    (handle : (s.after ctx new).handles tid = some kdt) :
    tid ≠ ctx.tid ∧ s.handles tid = some kdt ∨
      tid = ctx.tid ∧ new = some kdt := by
  simp only [after] at handle
  by_cases own : tid = ctx.tid
  · rw [own, Function.update_self] at handle
    exact Or.inr ⟨own, handle⟩
  · rw [Function.update_of_ne own] at handle
    exact Or.inl ⟨own, handle⟩

variable {s s' : Table} {done : Done}

/-- What opening a table does to the locator file. -/
inductive LocOpened (s : Table) (ok : Bool) (s' : Table) : Prop where
  | kept :
      s'.loc = s.loc →
      TableCtx.Sizes s.base.kdbLocsize s.loc.length
        s'.base.kdbLocsize →
      (ok = true → 0 < s'.base.kdbLocsize) →
      LocOpened s ok s'
  | created :
      s.base.kdbLocsize = 0 →
      s.loc = [] →
      s'.loc = List.replicate KcndbDb.locIndextablesiz 0 →
      s'.base.kdbLocsize = KcndbDb.locIndextablesiz →
      LocOpened s ok s'

/-- What opening a table does. -/
structure Opened (s : Table) (done : Done) (s' : Table) : Prop where
  table_eq : s'.table = s.table
  tablesize :
    TableCtx.Sizes s.base.kdbTablesize s.table.length
      s'.base.kdbTablesize
  loc : done.trace.Torn ∨ LocOpened s done.result.ok s'
  handles : ∀ tid kdt, s'.handles tid = some kdt →
    s.handles tid = some kdt ∨ Fresh kdt

theorem Step.opened
    (step : s.Step done s') {loc table : Block}
    (call : done.call = .tableOpen loc table) :
    s.Opened done s' := by
  obtain ⟨ctx, ran, envEq, rfl⟩ := step.tableOpen call
  have outcome :=
    wp_ok
      (KcndbDb.wp_tableOpen_inits
        (by
          have holds := holds_new loc.val
          rw [loc.property] at holds
          exact holds))
      ran
  have sizes := KcndbDb.keeps_sizes_tableOpen.ok ran
  simp only [TableCtx.sizes, Prod.mk.injEq] at sizes
  obtain ⟨_, locSize, _⟩ := sizes
  have newLoc : ctx.loc.kb.size = kcndbFileBufsiz :=
    locSize.trans loc.property
  have handles :
      ctx.table.kb = KcnBuf.new table.val →
      ∀ tid kdt,
        (s.after ctx
            (if done.result.ok = true then some (handleOf ctx)
              else none)).handles tid = some kdt →
          s.handles tid = some kdt ∨ Fresh kdt := by
    intro kbEq tid kdt handle
    rcases handles_after handle with ⟨_, old⟩ | ⟨_, new⟩
    · exact Or.inl old
    · refine Or.inr ?_
      split at new
      · obtain rfl := Option.some.inj new
        have holds := holds_new table.val
        rw [table.property, ← kbEq] at holds
        exact ⟨newLoc, holds⟩
      · cases new
  generalize okEq : done.result.ok = ok at outcome
  rw [okEq] at handles
  cases outcome with
  | refused env' _ =>
      refine ⟨rfl, Or.inl rfl, Or.inr ?_, handles rfl⟩
      rw [okEq]
      exact .kept rfl (Or.inl rfl) (by simp)
  | inited env' _ ctx₁ suffix inited =>
      obtain ⟨_, tableEq, tablesize, locInited⟩ := inited
      refine ⟨?_, tablesize, ?_, ?_⟩
      · exact congrArg KcndbFile.content tableEq
      · rw [okEq]
        cases locInited with
        | kept _ _ contentEq locsize known =>
            exact Or.inr (.kept contentEq locsize known)
        | created _ unknown nothing contentEq locsize =>
            exact Or.inr (.created unknown nothing contentEq locsize)
        | torn _ torn =>
            exact Or.inl (torn.of_suffix suffix)
      · exact handles (congrArg KcndbFile.kb tableEq)

/-- The table as a call of the thread sees it. -/
def seen (s : Table) (done : Done) (kdt : KcndbDbTable) : TableCtx :=
  s.view done.tid kdt { errno := done.errno, trace := done.trace }

/-- Adding a record to a sound table. -/
theorem Step.added
    (step : s.Step done s') {kdr : KcndbDbRecord}
    (call : done.call = .recordAdd kdr)
    (sound : ∀ kdt, s.handles done.tid = some kdt →
      (s.seen done kdt).TableSound) :
    ∃ kdt kdr' ctx,
      s.handles done.tid = some kdt ∧
      (s.seen done kdt).RecordAdded kdr (done.result.ok, kdr') ctx ∧
      done.result.locidx = kdr'.kdrLocidx ∧
      ctx.tid = done.tid ∧
      ctx.env.errno = done.result.errno ∧
      s' = s.after ctx (some (handleOf ctx)) := by
  obtain ⟨kdt, kdr', ctx, handle, ran, locidxEq, envEq, rfl⟩ :=
    step.recordAdd call
  have sizes := (KcndbDb.keeps_sizes_recordAdd kdr).ok ran
  refine ⟨kdt, kdr', ctx, handle, ?_, locidxEq,
    congrArg Prod.fst sizes, by rw [envEq], rfl⟩
  exact wp_ok (KcndbDb.wp_recordAdd_sound (sound kdt handle) kdr) ran

/-- Searching a table whose buffers have their sizes. -/
theorem Step.looked
    (step : s.Step done s') {ke : KcnEq} {maxnlocs : Nat}
    (call : done.call = .search ke maxnlocs)
    (sized : s.Sized) :
    ∃ kdt ctx,
      s.handles done.tid = some kdt ∧
      (s.seen done kdt).Looked ctx ∧
      ctx.tid = done.tid ∧
      s' = s.after ctx (some (handleOf ctx)) := by
  obtain ⟨kdt, ctx, handle, ran, _, _, rfl⟩ := step.search call
  obtain ⟨locSize, tableSize⟩ := sized _ _ handle
  have sizes := (KcndbDb.keeps_sizes_search ke maxnlocs).ok ran
  have looked :=
    wp_ok (KcndbDb.wp_search_looks locSize tableSize ke maxnlocs) ran
  exact ⟨kdt, ctx, handle, looked, congrArg Prod.fst sizes, rfl⟩

end Table

end Kcn
