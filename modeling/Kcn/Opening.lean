import Kcn.Calls
import Kcn.Index
import Kcn.Stops

namespace Kcn

open Program Bytes KcnBuf

/-!
# Opening a table

What `kcndb_db_init` does under the lock: it fetches the sizes of the files
where they are not known yet, and it creates the index of a locator file that
is empty.
-/

namespace TableCtx

/-- The cached size of a file after an open that may fetch it. -/
def Sizes (before length after : Nat) : Prop :=
  after = before ∨ before = 0 ∧ after = length

/-- What an open does to the locator file. -/
inductive LocInited (ctx : TableCtx) : Bool → TableCtx → Prop where
  | kept (ok : Bool) (ctx' : TableCtx) :
      ctx'.loc.content = ctx.loc.content →
      Sizes ctx.base.kdbLocsize ctx.loc.content.length
        ctx'.base.kdbLocsize →
      (ok = true → 0 < ctx'.base.kdbLocsize) →
      LocInited ctx ok ctx'
  | created (ctx' : TableCtx) :
      ctx.base.kdbLocsize = 0 →
      ctx.loc.content = [] →
      ctx'.loc.content =
        List.replicate KcndbDb.locIndextablesiz 0 →
      ctx'.base.kdbLocsize = KcndbDb.locIndextablesiz →
      LocInited ctx true ctx'
  | torn (ctx' : TableCtx) :
      ctx.env.trace.Torn →
      LocInited ctx false ctx'

/-- What an open does to the table. -/
structure Inited (ctx : TableCtx) (ok : Bool) (ctx' : TableCtx) :
    Prop where
  tid_eq : ctx'.tid = ctx.tid
  table_eq : ctx'.table = ctx.table
  tablesize :
    Sizes ctx.base.kdbTablesize ctx.table.content.length
      ctx'.base.kdbTablesize
  loc : LocInited ctx ok ctx'

end TableCtx

namespace KcndbDb

open TableCtx KcndbFile

variable {ctx : TableCtx} {halt : Stop → Prop}

theorem wp_initLocsize
    {post : Bool → TableCtx → Prop}
    (starved : halt .starved)
    (known : ctx.base.kdbLocsize ≠ 0 → post true ctx)
    (fetched : ctx.base.kdbLocsize = 0 → ∀ env',
      ctx.env.trace = .stat none :: env'.trace →
      post true
        { ctx with
          base := {
            ctx.base with kdbLocsize := ctx.loc.content.length
          }
          env := env' })
    (failed : ∀ env', post false { ctx with env := env' }) :
    wp initLocsize post halt ctx := by
  unfold initLocsize
  rw [wp_bind, wp_gets, wp_ite]
  refine ⟨?_, known⟩
  intro unknown
  rw [wp_bind, onLoc, wp_zoom]
  refine wp_sizeGet starved ?_ ?_
  · intro env' shape
    exact fetched unknown env' shape
  · intro error env' _
    exact failed env'

theorem wp_initTablesize
    {post : Bool → TableCtx → Prop}
    (starved : halt .starved)
    (known : ctx.base.kdbTablesize ≠ 0 → post true ctx)
    (fetched : ctx.base.kdbTablesize = 0 → ∀ env',
      ctx.env.trace = .stat none :: env'.trace →
      post true
        { ctx with
          base := {
            ctx.base with kdbTablesize := ctx.table.content.length
          }
          env := env' })
    (failed : ∀ env', post false { ctx with env := env' }) :
    wp initTablesize post halt ctx := by
  unfold initTablesize
  rw [wp_bind, wp_gets, wp_ite]
  refine ⟨?_, known⟩
  intro unknown
  rw [wp_bind, onTable, wp_zoom, wp_mapStop]
  refine wp_sizeGet starved ?_ ?_
  · intro env' shape
    exact fetched unknown env' shape
  · intro error env' _
    exact failed env'

/-- `kcndb_db_loc_init` with a new buffer. -/
theorem wp_locInit
    {post : Bool → TableCtx → Prop}
    (fresh : ctx.loc.kb.Holds kcndbFileBufsiz 0 [] [])
    (known : 0 < ctx.base.kdbLocsize → post true ctx)
    (created : ctx.base.kdbLocsize = 0 → ∀ ctx',
      ctx'.tid = ctx.tid →
      ctx'.table = ctx.table →
      ctx'.base.kdbTablesize = ctx.base.kdbTablesize →
      ctx'.loc.content =
        ctx.loc.content ++ List.replicate locIndextablesiz 0 →
      ctx'.base.kdbLocsize = locIndextablesiz →
      post true ctx')
    (failed : ∀ ctx',
      ctx'.tid = ctx.tid →
      ctx'.table = ctx.table →
      ctx'.base = ctx.base →
      (ctx'.loc.content = ctx.loc.content ∨ ctx.env.trace.Torn) →
      post false ctx') :
    wp locInit post (fun _ => True) ctx := by
  unfold locInit
  rw [wp_bind, wp_gets, wp_ite]
  refine ⟨known, ?_⟩
  intro unknown
  have zero : ctx.base.kdbLocsize = 0 :=
    Nat.eq_zero_of_not_pos unknown
  simp only [wp_bind, onLoc, wp_zoom, FileCtx.buf, putnull]
  refine wp_store fresh ?_ (fun _ => trivial)
  intro _ kb holds
  simp only [List.nil_append, List.drop_nil] at holds
  refine wp_append trivial ?_
  intro ok part appended
  cases appended with
  | refused event _ _ fileEq =>
      simp only [Bool.false_eq_true, ↓reduceIte, wp_pure]
      have contentEq := congrArg KcndbFile.content fileEq
      exact failed _ rfl rfl rfl (Or.inl contentEq)
  | written _ env' taken count _ shape written =>
      cases ok with
      | true =>
          simp only [↓reduceIte, wp_bind, setBase, wp_modify, wp_pure]
          have contentEq := written.content_eq
          rw [(written.done rfl).2.1] at contentEq
          simp only [locLens, FileCtx.kbLens] at contentEq
          rw [← length_data, List.take_length, holds.data_eq,
            List.append_nil, writeAt_length] at contentEq
          refine created zero _ rfl rfl rfl contentEq ?_
          simp only [locLens, zero, Nat.zero_add]
      | false =>
          simp only [Bool.false_eq_true, ↓reduceIte, wp_pure]
          refine failed _ rfl rfl rfl ?_
          refine written.unchanged_or_torn.imp ?_ ?_
          · intro fileEq
            have contentEq := congrArg KcndbFile.content fileEq
            exact contentEq
          · intro torn
            have later : ctx.env.trace = [.seek none] ++ env'.trace :=
              shape
            rw [later]
            exact torn.append_left _

end KcndbDb

namespace TableCtx

/-- The state once some sizes were fetched. -/
structure Fetched (ctx ctx' : TableCtx) : Prop where
  tid_eq : ctx'.tid = ctx.tid
  table_eq : ctx'.table = ctx.table
  loc_eq : ctx'.loc = ctx.loc
  tablesize :
    Sizes ctx.base.kdbTablesize ctx.table.content.length
      ctx'.base.kdbTablesize
  locsize :
    Sizes ctx.base.kdbLocsize ctx.loc.content.length
      ctx'.base.kdbLocsize
  answers : ctx'.answers <:+ ctx.answers

variable {ctx ctx' : TableCtx}

theorem Fetched.refl (ctx : TableCtx) : ctx.Fetched ctx :=
  ⟨rfl, rfl, rfl, Or.inl rfl, Or.inl rfl, List.suffix_refl _⟩

/-- A failed open after some sizes were fetched. -/
theorem Fetched.failed (fetched : ctx.Fetched ctx') (env' : Env) :
    ctx.Inited false { ctx' with env := env' } := by
  refine ⟨fetched.tid_eq, fetched.table_eq, fetched.tablesize, ?_⟩
  refine .kept false _ ?_ fetched.locsize (by simp)
  simp only [fetched.loc_eq]

end TableCtx

namespace KcndbDb

open TableCtx

variable {ctx ctx' : TableCtx}

/-- `kcndb_db_loc_init` once both sizes were fetched. -/
theorem wp_locInit_fetched
    (fresh : ctx.loc.kb.Holds kcndbFileBufsiz 0 [] [])
    (fetched : ctx.Fetched ctx')
    (empty : ctx'.base.kdbLocsize = 0 →
      ctx.base.kdbLocsize = 0 ∧ ctx.loc.content = []) :
    wp locInit (Inited ctx) (fun _ => True) ctx' := by
  have locEq := fetched.loc_eq
  refine wp_locInit (by rw [locEq]; exact fresh) ?_ ?_ ?_
  · intro known
    refine ⟨fetched.tid_eq, fetched.table_eq, fetched.tablesize, ?_⟩
    exact .kept true ctx' (by rw [locEq]) fetched.locsize
      fun _ => known
  · intro zero ctx₃ tidEq tableEq tablesizeEq contentEq locsizeEq
    obtain ⟨unknown, nothing⟩ := empty zero
    refine ⟨tidEq.trans fetched.tid_eq,
      tableEq.trans fetched.table_eq, ?_, ?_⟩
    · rw [tablesizeEq]
      exact fetched.tablesize
    · rw [locEq, nothing, List.nil_append] at contentEq
      exact .created ctx₃ unknown nothing contentEq locsizeEq
  · intro ctx₃ tidEq tableEq baseEq outcome
    refine ⟨tidEq.trans fetched.tid_eq,
      tableEq.trans fetched.table_eq, ?_, ?_⟩
    · rw [baseEq]
      exact fetched.tablesize
    · rcases outcome with contentEq | torn
      · refine .kept false ctx₃ ?_ ?_ (by simp)
        · rw [contentEq, locEq]
        · rw [baseEq]
          exact fetched.locsize
      · exact .torn ctx₃ (torn.of_suffix fetched.answers)

/-- `kcndb_db_init` once the size of the locator file was fetched. -/
theorem wp_init_fetched
    (fresh : ctx.loc.kb.Holds kcndbFileBufsiz 0 [] [])
    (fetched : ctx.Fetched ctx')
    (tablesizeEq : ctx'.base.kdbTablesize = ctx.base.kdbTablesize)
    (empty : ctx'.base.kdbLocsize = 0 →
      ctx.base.kdbLocsize = 0 ∧ ctx.loc.content = []) :
    wp initTablesize
      (fun ok ctx₂ =>
        wp (if ok = true then locInit else pure false) (Inited ctx)
          (fun _ => True) ctx₂)
      (fun _ => True) ctx' := by
  refine wp_initTablesize trivial ?_ ?_ ?_
  · intro _
    rw [if_pos rfl]
    exact wp_locInit_fetched fresh fetched empty
  · intro unknown env' shape
    rw [if_pos rfl]
    refine wp_locInit_fetched fresh
      ⟨fetched.tid_eq, fetched.table_eq, fetched.loc_eq, ?_,
        fetched.locsize, ?_⟩ empty
    · refine Or.inr ⟨tablesizeEq ▸ unknown, ?_⟩
      simp only [fetched.table_eq]
    · exact List.IsSuffix.trans ⟨[_], shape.symm⟩ fetched.answers
  · intro env'
    rw [if_neg Bool.false_ne_true, wp_pure]
    exact fetched.failed env'

/-- `kcndb_db_init` with a new buffer. -/
theorem wp_init
    (fresh : ctx.loc.kb.Holds kcndbFileBufsiz 0 [] []) :
    wp init (Inited ctx) (fun _ => True) ctx := by
  unfold init
  rw [wp_bind]
  refine wp_initLocsize trivial ?_ ?_ ?_
  · intro known
    rw [if_pos rfl, wp_bind]
    exact wp_init_fetched fresh (.refl ctx) rfl
      fun zero => absurd zero known
  · intro unknown env' shape
    rw [if_pos rfl, wp_bind]
    refine wp_init_fetched fresh
      ⟨rfl, rfl, rfl, Or.inl rfl, Or.inr ⟨unknown, rfl⟩,
        ⟨[_], shape.symm⟩⟩ rfl ?_
    intro zero
    exact ⟨unknown, List.length_eq_zero_iff.mp zero⟩
  · intro env'
    rw [if_neg Bool.false_ne_true, wp_pure]
    exact (Fetched.refl ctx).failed env'

end KcndbDb

end Kcn
