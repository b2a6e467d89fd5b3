import Kcn.RecordLog
import Kcn.Storing

namespace Kcn

open Program Bytes KcnBuf KcndbDb

/-!
# A table that lives on disk

The daemon opens the files of a table, works on them, and may be started again
and find them as it left them.  The cached sizes are fetched by an open and
follow the files from then on.
-/

/-- The daemon completes a call, or it is started again. -/
inductive Act where
  | call (done : Done)
  | restart

/-- The record that an act stored. -/
def Act.accepted : Act → Option KcndbDbRecord
  | .call done => done.accepted
  | .restart => none

namespace Table

/-- Calls under a condition, and restarts that leave only the files. -/
inductive Lives (condition : Table → Request → Prop) (s : Table) :
    Act → Table → Prop where
  | call (done : Done) (s' : Table) :
      s.Step done s' →
      condition s done.toRequest →
      Lives condition s (.call done) s'
  | restart :
      Lives condition s .restart (onDisk s.loc s.table)

/-- The locator file is empty or has its index, and both files fit. -/
structure OnDisk (s : Table) : Prop where
  index : s.loc = [] ∨ locIndextablesiz ≤ s.loc.length
  locFits : s.loc.length ≤ offMax
  tableFits : s.table.length ≤ offMax

/-- The sizes that a thread with a handle relies on. -/
structure Known (s : Table) : Prop where
  slots : locIndextablesiz ≤ s.loc.length
  locsize : s.base.kdbLocsize = s.loc.length
  tablesize : s.base.kdbTablesize = s.table.length

/-- What holds of the sizes of a table between calls. -/
structure Cached (s : Table) : Prop where
  disk : s.OnDisk
  sized : s.Sized
  locsize : s.base.kdbLocsize = 0 ∨ s.base.kdbLocsize = s.loc.length
  tablesize :
    s.base.kdbTablesize = 0 ∨ s.base.kdbTablesize = s.table.length
  opened : ∀ tid kdt, s.handles tid = some kdt → s.Known

theorem cached_onDisk
    {loc table : List UInt8} (disk : (onDisk loc table).OnDisk) :
    (onDisk loc table).Cached where
  disk := disk
  sized := sized_blank
  locsize := Or.inl rfl
  tablesize := Or.inl rfl
  opened := by
    intro tid kdt handle
    cases handle

variable {s s' : Table} {done : Done}

theorem Cached.restarted (cached : s.Cached) :
    (onDisk s.loc s.table).Cached := by
  obtain ⟨index, locFits, tableFits⟩ := cached.disk
  exact cached_onDisk ⟨index, locFits, tableFits⟩

/-- A thread sees the files as a call to add a record needs them. -/
theorem Cached.addReady
    (cached : s.Cached) {kdt : KcndbDbTable}
    (handle : s.handles done.tid = some kdt)
    (before : kdt.kdtTable.kb.before = [])
    (brief : Brief s.table kdt.kdtTable.kb) :
    (s.seen done kdt).AddReady := by
  obtain ⟨slots, locsize, tablesize⟩ := cached.opened _ _ handle
  obtain ⟨locSize, tableSize⟩ := cached.sized _ _ handle
  exact ⟨⟨locSize, slots, locsize, cached.disk.locFits⟩,
    ⟨⟨tableSize, before, brief.held⟩, tablesize, cached.disk.tableFits⟩,
    brief.few⟩

/-- A call of a thread with a handle, in terms of what it leaves. -/
theorem Cached.after
    (cached : s.Cached) (step : s.Step done s') {tid : Nat}
    {kdt : KcndbDbTable} (handle : s.handles tid = some kdt)
    (heap : HeapKept s.loc s'.loc)
    (locsize : s'.base.kdbLocsize = s'.loc.length)
    (tablesize : s'.base.kdbTablesize = s'.table.length) :
    s'.Cached := by
  have slots := (cached.opened _ _ handle).slots
  have known : s'.Known :=
    ⟨Nat.le_trans slots heap.length_le, locsize, tablesize⟩
  exact ⟨⟨Or.inr known.slots, step.locFits, step.tableFits⟩,
    step.sized cached.sized, Or.inr locsize, Or.inr tablesize,
    fun _ _ _ => known⟩

end Table

namespace KcndbDb

open TableCtx

/-- An open that succeeds has fetched the size of the table file. -/
theorem wp_tableOpen_fetches
    {ctx : TableCtx}
    (fresh : ctx.loc.kb.Holds kcndbFileBufsiz 0 [] []) :
    wp tableOpen
      (fun ok ctx' => ok = true → ctx.base.kdbTablesize = 0 →
        ctx'.base.kdbTablesize = ctx.table.content.length)
      (fun _ => True) ctx := by
  refine wp_tableOpen trivial (fun _ => trivial) ?_ ?_
  · intro _ _ _ _ ok
    cases ok
  · intro _ env' _ _
    have inits :
        ∀ ctx₁ : TableCtx,
          ctx₁.loc.kb.Holds kcndbFileBufsiz 0 [] [] →
          ctx₁.base.kdbTablesize = ctx.table.content.length →
          wp locInit
            (fun ok ctx' => ok = true → ctx.base.kdbTablesize = 0 →
              ctx'.unlocked.base.kdbTablesize =
                ctx.table.content.length)
            (fun _ => True) ctx₁ := by
      intro ctx₁ fresh₁ fetched
      refine wp_locInit fresh₁ (fun _ _ _ => fetched) ?_ ?_
      · intro _ ctx₂ _ _ same _ _ _ _
        exact same.trans fetched
      · intro ctx₂ _ _ _ _ ok
        cases ok
    have sizes :
        ∀ ctx₁ : TableCtx,
          ctx₁.loc.kb.Holds kcndbFileBufsiz 0 [] [] →
          ctx₁.table = ctx.table →
          ctx₁.base.kdbTablesize = ctx.base.kdbTablesize →
          wp initTablesize
            (fun ok ctx₂ =>
              wp (if ok = true then locInit else pure false)
                (fun ok ctx' => ok = true →
                  ctx.base.kdbTablesize = 0 →
                  ctx'.unlocked.base.kdbTablesize =
                    ctx.table.content.length)
                (fun _ => True) ctx₂)
            (fun _ => True) ctx₁ := by
      intro ctx₁ fresh₁ tableEq sizeEq
      refine wp_initTablesize trivial ?_ ?_ ?_
      · intro known
        rw [if_pos rfl]
        have whatever :
            wp locInit (fun _ _ => True) (fun _ => True) ctx₁ :=
          wp_locInit fresh₁ (fun _ => trivial)
            (fun _ _ _ _ _ _ _ => trivial) fun _ _ _ _ _ => trivial
        refine wp_imp whatever ?_
        intro _ _ _ _ zero
        exact absurd (sizeEq.trans zero) known
      · intro _ env₂ _
        rw [if_pos rfl]
        refine inits _ fresh₁ ?_
        simp only [tableEq]
      · intro env₂
        rw [if_neg Bool.false_ne_true, wp_pure]
        intro ok
        cases ok
    unfold init
    rw [wp_bind]
    refine wp_initLocsize trivial ?_ ?_ ?_
    · intro _
      rw [if_pos rfl, wp_bind]
      exact sizes _ fresh rfl rfl
    · intro _ env₁ _
      rw [if_pos rfl, wp_bind]
      exact sizes _ fresh rfl rfl
    · intro env₁
      rw [if_neg Bool.false_ne_true, wp_pure]
      intro ok
      cases ok

end KcndbDb

namespace Table

variable {s s' : Table} {done : Done}

/--
A call to add a record that tears no transfer: what it did to both files, and
that the sizes are in step with them.
-/
theorem Cached.stores_add
    (cached : s.Cached) (step : s.Step done s') {kdr : KcndbDbRecord}
    (call : done.call = .recordAdd kdr)
    (untorn : ¬ done.trace.Torn)
    (short : kdr.kdrLoc.length ≤ kcnMsgMaxlocsiz)
    (leads : Leads s.loc kdr.kdrLoc)
    (brief : ∀ kdt ∈ s.handles done.tid,
      kdt.kdtTable.kb.before = [] ∧ Brief s.table kdt.kdtTable.kb) :
    ∃ kdt kdr' ctx,
      s.handles done.tid = some kdt ∧
        TableCtx.RecordStored (s.seen done kdt) kdr
          (done.result.ok, kdr') ctx ∧
        done.result.locidx = kdr'.kdrLocidx ∧
        ctx.env.errno = done.result.errno ∧ ctx.tid = done.tid ∧
        s' = s.after ctx (some (handleOf ctx)) ∧
        s'.Cached ∧ HeapKept s.loc s'.loc := by
  obtain ⟨kdt, kdr', ctx, handle, ran, locidxEq, envEq, afterEq⟩ :=
    step.recordAdd call
  obtain ⟨before, held⟩ := brief kdt handle
  have known := cached.opened _ _ handle
  have ready := cached.addReady handle before held
  have outcome :=
    wp_ok (KcndbDb.wp_recordAdd_stores ready leads short) ran
  have sizes := (KcndbDb.keeps_sizes_recordAdd kdr).ok ran
  have tidEq : ctx.tid = done.tid := congrArg Prod.fst sizes
  have kept :
      HeapKept s.loc ctx.loc.content ∧
        ctx.base.kdbLocsize = ctx.loc.content.length ∧
        ctx.base.kdbTablesize = ctx.table.content.length := by
    have same (tableKept : (s.seen done kdt).TableKept ctx) :
        ctx.base.kdbTablesize = ctx.table.content.length :=
      (tableKept.tablesize_eq.trans known.tablesize).trans
        (congrArg List.length tableKept.content_eq.symm)
    generalize done.result.ok = ok at outcome
    cases outcome with
    | torn _ _ torn =>
        exact absurd torn untorn
    | late _ _ _ locSame tableKept _ _ _ =>
        refine ⟨.of_eq locSame.content_eq, ?_, same tableKept⟩
        exact (locSame.locsize_eq.trans known.locsize).trans
          (congrArg List.length locSame.content_eq.symm)
    | failed _ _ _ kept tableKept _ =>
        exact ⟨kept.heap, kept.locsize, same tableKept⟩
    | stored _ idx _ kept _ _ sizeEq contentEq _ =>
        have size : ctx.base.kdbTablesize =
            s.base.kdbTablesize + recordsiz := sizeEq
        have length := congrArg List.length contentEq
        rw [List.length_append, length_encodeRecord] at length
        rw [known.tablesize] at size
        exact ⟨kept.heap, kept.locsize, size.trans length.symm⟩
  obtain ⟨heap, locsize, tablesize⟩ := kept
  refine ⟨kdt, kdr', ctx, handle, outcome, locidxEq, by rw [envEq],
    tidEq, afterEq, ?_, by rw [afterEq]; exact heap⟩
  rw [afterEq] at step ⊢
  exact cached.after step handle heap locsize tablesize

/-- After an open that succeeds the thread has a handle with known sizes. -/
theorem Step.fetched
    (step : s.Step done s') {loc table : Block}
    (call : done.call = .tableOpen loc table) :
    (∀ tid kdt, s'.handles tid = some kdt →
      (∃ kdt', s.handles tid = some kdt') ∨ done.result.ok = true) ∧
      (done.result.ok = true → s.base.kdbTablesize = 0 →
        s'.base.kdbTablesize = s.table.length) := by
  obtain ⟨ctx, ran, _, rfl⟩ := step.tableOpen call
  refine ⟨?_, ?_⟩
  · intro tid kdt handle
    rcases handles_after handle with ⟨_, old⟩ | ⟨_, new⟩
    · exact Or.inl ⟨kdt, old⟩
    · refine Or.inr ?_
      split at new
      · assumption
      · cases new
  · have holds := holds_new loc.val
    rw [loc.property] at holds
    exact wp_ok (KcndbDb.wp_tableOpen_fetches holds) ran

/-- The size of the locator file is known to all threads with a handle. -/
structure LocKnown (s : Table) : Prop where
  locsize : s.base.kdbLocsize = 0 ∨ s.base.kdbLocsize = s.loc.length
  opened : ∀ tid kdt, s.handles tid = some kdt →
    s.base.kdbLocsize = s.loc.length ∧ 0 < s.loc.length

/-- What an open without a torn transfer does to the locator file. -/
theorem LocKnown.opens
    (known : s.LocKnown) (step : s.Step done s') {loc table : Block}
    (call : done.call = .tableOpen loc table)
    (untorn : ¬ done.trace.Torn) :
    s'.LocKnown ∧
      (s'.loc = s.loc ∨
        s.loc = [] ∧ s'.loc = List.replicate locIndextablesiz 0) := by
  obtain ⟨locsize, opened⟩ := known
  obtain ⟨own, _⟩ := step.fetched call
  have outcome := (step.opened call).loc.resolve_left untorn
  cases outcome with
  | kept locEq sizes some =>
      have locsize' :
          s'.base.kdbLocsize = 0 ∨
            s'.base.kdbLocsize = s'.loc.length := by
        rw [locEq]
        rcases sizes with same | ⟨_, length⟩
        · rw [same]
          exact locsize
        · exact Or.inr length
      refine ⟨⟨locsize', ?_⟩, Or.inl locEq⟩
      intro tid kdt handle
      -- A handle of before knows the size, and a new one has fetched it.
      have positive : 0 < s'.base.kdbLocsize := by
        rcases own tid kdt handle with ⟨kdt', old⟩ | ok
        · obtain ⟨length, more⟩ := opened _ _ old
          rcases sizes with same | ⟨zero, _⟩
          · omega
          · omega
        · exact some ok
      have length := locsize'.resolve_left (by omega)
      exact ⟨length, by omega⟩
  | created _ nothing locEq sizeEq =>
      have length : s'.loc.length = locIndextablesiz := by
        rw [locEq, List.length_replicate]
      have block : 0 < locIndextablesiz := by decide
      have same := sizeEq.trans length.symm
      exact ⟨⟨Or.inr same, fun _ _ _ => ⟨same, by omega⟩⟩,
        Or.inr ⟨nothing, locEq⟩⟩

theorem Cached.locKnown (cached : s.Cached) : s.LocKnown := by
  refine ⟨cached.locsize, fun tid kdt handle => ?_⟩
  obtain ⟨slots, length, _⟩ := cached.opened tid kdt handle
  exact ⟨length, Nat.lt_of_lt_of_le (by decide) slots⟩

/-- An open keeps the sizes in step, and what the files hold. -/
theorem Cached.opens
    (cached : s.Cached) (step : s.Step done s') {loc table : Block}
    (call : done.call = .tableOpen loc table)
    (untorn : ¬ done.trace.Torn) :
    s'.Cached ∧ s'.table = s.table ∧
      (s'.loc = s.loc ∨
        s.loc = [] ∧ s'.loc = List.replicate locIndextablesiz 0) := by
  have opened := step.opened call
  obtain ⟨own, fetched⟩ := step.fetched call
  have tableEq := opened.table_eq
  have tablesize :
      s'.base.kdbTablesize = 0 ∨
        s'.base.kdbTablesize = s'.table.length := by
    rw [tableEq]
    rcases opened.tablesize with same | ⟨_, length⟩
    · rw [same]
      exact cached.tablesize
    · exact Or.inr length
  have tableKnown :
      ∀ tid kdt, s'.handles tid = some kdt →
        s'.base.kdbTablesize = s'.table.length := by
    intro tid kdt handle
    rcases own tid kdt handle with ⟨kdt', old⟩ | ok
    · have known := (cached.opened _ _ old).tablesize
      rw [tableEq]
      rcases opened.tablesize with same | ⟨_, length⟩
      · exact same.trans known
      · exact length
    · rw [tableEq]
      by_cases zero : s.base.kdbTablesize = 0
      · exact fetched ok zero
      · have length := cached.tablesize.resolve_left zero
        rcases opened.tablesize with same | ⟨none, _⟩
        · exact same.trans length
        · exact absurd none zero
  obtain ⟨⟨locsize, known⟩, locOpened⟩ :=
    cached.locKnown.opens step call untorn
  have index : s'.loc = [] ∨ locIndextablesiz ≤ s'.loc.length := by
    rcases locOpened with same | ⟨_, created⟩
    · rw [same]
      exact cached.disk.index
    · rw [created, List.length_replicate]
      exact Or.inr (Nat.le_refl _)
  refine ⟨⟨⟨index, step.locFits, step.tableFits⟩,
    step.sized cached.sized, locsize, tablesize, ?_⟩, tableEq, locOpened⟩
  intro tid kdt handle
  obtain ⟨length, more⟩ := known tid kdt handle
  refine ⟨index.resolve_left fun none => ?_, length,
    tableKnown tid kdt handle⟩
  rw [none] at more
  exact absurd more (Nat.lt_irrefl 0)

end Table

end Kcn
