import Kcn.Frame
import Kcn.Locator
import Kcn.Record
import Mathlib.Data.List.Forall2

namespace Kcn

open Program Bytes KcnBuf

/-!
# The scan of a search

`kcndb_db_search` reads the records of the table file in order and hands those
that fit the equation to the callback, with the locators it looks up.  The
buffer and the offset of the table file together stand for the rest of the file
that is still to be scanned.
-/

/-- The first records of a byte string. -/
def recordsIn : Nat → List UInt8 → List KcndbDbRecord
  | 0, _ => []
  | count + 1, bytes =>
      decodeRecord bytes ::
        recordsIn count (bytes.drop KcndbDb.recordsiz)

/-- All complete records of a byte string. -/
def records (bytes : List UInt8) : List KcndbDbRecord :=
  recordsIn (bytes.length / KcndbDb.recordsiz) bytes

theorem records_cons
    {bytes : List UInt8} (enough : KcndbDb.recordsiz ≤ bytes.length) :
    records bytes =
      decodeRecord bytes :: records (bytes.drop KcndbDb.recordsiz) := by
  have positive : 0 < KcndbDb.recordsiz := by decide
  have count :
      bytes.length / KcndbDb.recordsiz =
        (bytes.length - KcndbDb.recordsiz) / KcndbDb.recordsiz + 1 :=
    Nat.div_eq_sub_div positive enough
  rw [records, count, recordsIn, records, List.length_drop]

theorem records_short
    {bytes : List UInt8} (short : bytes.length < KcndbDb.recordsiz) :
    records bytes = [] := by
  rw [records, Nat.div_eq_of_lt short, recordsIn]

/-- The operator lets a value through; an unknown operator lets none. -/
def operatorTakes (ke : KcnEq) (val : UInt64) : Bool :=
  match KcnEqOperator.ofCode? ke.keOp with
  | some .lt => decide (val < ke.keVal)
  | some .le => decide (val ≤ ke.keVal)
  | some .eq => decide (val = ke.keVal)
  | some .gt => decide (ke.keVal < val)
  | some .ge => decide (ke.keVal ≤ val)
  | some .none | none => false

/-- The operator is one that the switch of `kcndb_db_search` knows. -/
def KcnEq.Known (ke : KcnEq) : Prop :=
  1 ≤ ke.keOp ∧ ke.keOp ≤ 5

/-- The record has the time and the value that the equation asks for. -/
def recordFits (ke : KcnEq) (kdr : KcndbDbRecord) : Bool :=
  kcnEqTimeMatch kdr.kdrTime ke && operatorTakes ke kdr.kdrVal

/-- The records that a search of these bytes comes to, in order. -/
def hits (ke : KcnEq) (bytes : List UInt8) : List KcndbDbRecord :=
  (records bytes).filter (recordFits ke)

theorem hits_short
    {ke : KcnEq} {bytes : List UInt8}
    (short : bytes.length < KcndbDb.recordsiz) :
    hits ke bytes = [] := by
  rw [hits, records_short short, List.filter_nil]

theorem hits_cons
    {ke : KcnEq} {bytes : List UInt8}
    (enough : KcndbDb.recordsiz ≤ bytes.length) :
    hits ke bytes =
      if recordFits ke (decodeRecord bytes) then
        decodeRecord bytes :: hits ke (bytes.drop KcndbDb.recordsiz)
      else
        hits ke (bytes.drop KcndbDb.recordsiz) := by
  rw [hits, records_cons enough, List.filter_cons]
  rfl

/-- No callback refused its record. -/
def Trace.Willing (trace : Trace) : Prop :=
  ∀ event ∈ trace, event ≠ .callback false

theorem Trace.willing_append {first second : Trace} :
    Trace.Willing (first ++ second) ↔
      Trace.Willing first ∧ Trace.Willing second := by
  simp [Trace.Willing, or_imp, forall_and]

/-- The entry can be looked up as far as the sizes tell. -/
def Resolves
    (locsize : Nat) (content : List UInt8) (idx : UInt64) : Prop :=
  idx.toNat ≤ locsize ∧ idx.toNat ≤ offMax ∧
    idx.toNat + max 2 (lenAt content idx.toNat) ≤ content.length

instance (locsize : Nat) (content : List UInt8) (idx : UInt64) :
    Decidable (Resolves locsize content idx) :=
  inferInstanceAs (Decidable (_ ∧ _ ∧ _))

namespace TableCtx

/--
The rest of the table file: first the bytes in the buffer, then those behind
the offset.
-/
structure Scanned (ctx : TableCtx) (rest : List UInt8) : Prop where
  size_eq : ctx.table.kb.size = kcndbFileBufsiz
  atStart : ctx.table.kb.before = []
  data :
    ctx.table.kb.after ++ ctx.table.content.drop ctx.table.off = rest
  suffix : rest <:+ ctx.table.content
  start : ctx.table.kb.sp + rest.length ≤ ctx.table.content.length

/-- What a search does not change. -/
structure Visits (ctx ctx' : TableCtx) : Prop where
  tid_eq : ctx'.tid = ctx.tid
  base_eq : ctx'.base = ctx.base
  content_eq : ctx'.table.content = ctx.table.content
  locContent_eq : ctx'.loc.content = ctx.loc.content
  locSize_eq : ctx'.loc.kb.size = ctx.loc.kb.size

theorem Visits.refl (ctx : TableCtx) : ctx.Visits ctx :=
  ⟨rfl, rfl, rfl, rfl, rfl⟩

theorem Visits.trans
    {ctx ctx' ctx'' : TableCtx}
    (first : ctx.Visits ctx') (second : ctx'.Visits ctx'') :
    ctx.Visits ctx'' where
  tid_eq := second.tid_eq.trans first.tid_eq
  base_eq := second.base_eq.trans first.base_eq
  content_eq := second.content_eq.trans first.content_eq
  locContent_eq := second.locContent_eq.trans first.locContent_eq
  locSize_eq := second.locSize_eq.trans first.locSize_eq

/-- A part of a search that met no error and no refusal. -/
structure Passes (ctx : TableCtx) (taken : Trace) (ctx' : TableCtx) :
    Prop where
  trace_eq : ctx.env.trace = taken ++ ctx'.env.trace
  clean : Trace.Clean taken
  willing : Trace.Willing taken
  visits : ctx.Visits ctx'

theorem Passes.trans
    {ctx ctx' ctx'' : TableCtx} {taken later : Trace}
    (first : ctx.Passes taken ctx')
    (second : ctx'.Passes later ctx'') :
    ctx.Passes (taken ++ later) ctx'' where
  trace_eq := by
    rw [first.trace_eq, second.trace_eq, List.append_assoc]
  clean := Trace.clean_append.mpr ⟨first.clean, second.clean⟩
  willing := Trace.willing_append.mpr ⟨first.willing, second.willing⟩
  visits := first.visits.trans second.visits

/-- A record of the file as it was handed to the callback. -/
structure Shown
    (ctx : TableCtx) (taken : Trace) (kdr shown : KcndbDbRecord) :
    Prop where
  same : { shown with kdrLoc := kdr.kdrLoc } = kdr
  resolves :
    Resolves ctx.base.kdbLocsize ctx.loc.content kdr.kdrLocidx
  exact :
    (∀ event ∈ taken, event.ReadsFull) →
    2 + lenAt ctx.loc.content kdr.kdrLocidx.toNat ≤
      min kcndbFileBufsiz
        (ctx.loc.content.length - kdr.kdrLocidx.toNat) →
    shown.kdrLoc = locAt ctx.loc.content kdr.kdrLocidx.toNat

variable {ctx ctx' : TableCtx} {rest : List UInt8}

/-- The same record as seen from an earlier state of the search. -/
theorem Shown.earlier
    {taken taken' : Trace} {kdr shown : KcndbDbRecord}
    (later : ctx'.Shown taken' kdr shown) (visits : ctx.Visits ctx')
    (within : ∀ event ∈ taken', event ∈ taken) :
    ctx.Shown taken kdr shown := by
  obtain ⟨same, resolves, exact⟩ := later
  rw [visits.base_eq, visits.locContent_eq] at resolves
  rw [visits.locContent_eq] at exact
  exact ⟨same, resolves, fun full =>
    exact fun event member => full event (within event member)⟩

/-- Reading moves bytes from the file to the buffer. -/
theorem ReadsTable.data_eq
    {taken : Trace} {new : List UInt8}
    (reads : ctx.ReadsTable taken new ctx') :
    new ++ ctx'.table.content.drop ctx'.table.off =
      ctx.table.content.drop ctx.table.off := by
  have newEq := reads.new_eq
  rw [slice] at newEq
  rw [reads.content_eq, reads.off_eq, ← List.drop_drop]
  calc
    new ++ (ctx.table.content.drop ctx.table.off).drop new.length
        = (ctx.table.content.drop ctx.table.off).take new.length ++
            (ctx.table.content.drop ctx.table.off).drop
              new.length := by
          rw [← newEq]
    _ = ctx.table.content.drop ctx.table.off :=
          List.take_append_drop _ _

theorem ReadsTable.visits
    {taken : Trace} {new : List UInt8}
    (reads : ctx.ReadsTable taken new ctx') :
    ctx.Visits ctx' := by
  have frame := reads.frame
  have contentEq := reads.content_eq
  exact ⟨by rw [frame], by rw [frame], contentEq, by rw [frame],
    by rw [frame]⟩

theorem ReadsTable.passes
    {taken : Trace} {new : List UInt8}
    (reads : ctx.ReadsTable taken new ctx')
    (clean : Trace.Clean taken) :
    ctx.Passes taken ctx' := by
  refine ⟨reads.took.trace_eq, clean, ?_, reads.visits⟩
  rintro event member rfl
  exact reads.took.kinds _ member

theorem ReadsTable.delivered_eq
    {taken : Trace} {new : List UInt8}
    (reads : ctx.ReadsTable taken new ctx') :
    ctx'.delivered = ctx.delivered := by
  rw [reads.frame]

namespace Scanned

/-- A record that was read is the first one of the rest. -/
theorem read
    (scanned : ctx.Scanned rest) {kdr : KcndbDbRecord}
    (outcome : RecordRead ctx ctx' (some kdr)) :
    KcndbDb.recordsiz ≤ rest.length ∧ kdr = decodeRecord rest ∧
      ctx'.Scanned (rest.drop KcndbDb.recordsiz) ∧
      ctx'.delivered = ctx.delivered ∧
      ∃ taken, ctx.Passes taken ctx' := by
  cases outcome with
  | read taken new sp reads clean enough _ holds start =>
      have moved := reads.data_eq
      have restEq :
          (ctx.table.kb.after ++ new) ++
              ctx'.table.content.drop ctx'.table.off =
            rest := by
        rw [List.append_assoc, moved]
        exact scanned.data
      have size := congrArg List.length restEq
      rw [List.length_append] at size
      have bound := scanned.start
      refine ⟨by omega, ?_, ?_, reads.delivered_eq, taken,
        reads.passes clean⟩
      · rw [← restEq, decodeRecord_append enough]
      · refine ⟨holds.size_eq.trans scanned.size_eq,
          holds.before_eq, ?_, ?_, ?_⟩
        · rw [holds.after_eq, ← restEq,
            List.drop_append_of_le_length enough]
        · rw [reads.content_eq]
          exact (List.drop_suffix _ _).trans scanned.suffix
        · rw [reads.content_eq, holds.sp_eq, List.length_drop]
          omega

/-- Where no record was read, the rest is what it was. -/
theorem unread
    (scanned : ctx.Scanned rest)
    (outcome : RecordRead ctx ctx' none) :
    ctx'.Scanned rest ∧ ctx.Visits ctx' ∧
      ((rest.length < KcndbDb.recordsiz ∧
          ctx'.env.errno = Errno.eshutdown ∧
          ctx'.delivered = ctx.delivered ∧
          ∃ taken, ctx.Passes taken ctx') ∨
        (¬ Trace.Clean ctx.env.trace ∧
          ctx'.env.errno ≠ Errno.eshutdown)) := by
  have stays :
      ∀ taken new sp, ctx.ReadsTable taken new ctx' →
        ctx'.table.kb.Holds ctx.table.kb.size sp []
          (ctx.table.kb.after ++ new) →
        sp = ctx.table.kb.sp ∨ sp = 0 →
        ctx'.Scanned rest := by
    intro taken new sp reads holds start
    have bound := scanned.start
    refine ⟨holds.size_eq.trans scanned.size_eq, holds.before_eq,
      ?_, ?_, ?_⟩
    · rw [holds.after_eq, List.append_assoc, reads.data_eq]
      exact scanned.data
    · rw [reads.content_eq]
      exact scanned.suffix
    · rw [reads.content_eq, holds.sp_eq]
      omega
  cases outcome with
  | ended taken new sp reads clean errnoEq atEnd below holds start =>
      have scanned' := stays taken new sp reads holds start
      refine ⟨scanned', reads.visits, Or.inl ⟨?_, errnoEq,
        reads.delivered_eq, taken, reads.passes clean⟩⟩
      have size := congrArg List.length scanned'.data
      rw [holds.after_eq, List.drop_eq_nil_of_le atEnd,
        List.append_nil] at size
      omega
  | failed taken new sp reads unclean errnoNe _ holds start =>
      refine ⟨stays taken new sp reads holds start, reads.visits,
        Or.inr ⟨?_, errnoNe⟩⟩
      rw [reads.took.trace_eq, Trace.clean_append]
      exact fun both => unclean both.1

/-- A call on other files leaves the scan alone. -/
theorem of_table_eq
    (scanned : ctx.Scanned rest) (same : ctx'.table = ctx.table) :
    ctx'.Scanned rest := by
  obtain ⟨size, atStart, data, suffix, start⟩ := scanned
  rw [← same] at size atStart data suffix start
  exact ⟨size, atStart, data, suffix, start⟩

end Scanned

end TableCtx

namespace KcndbDb

open TableCtx

variable {halt : Stop → Prop} {ctx : TableCtx} {ke : KcnEq}

/-- A known operator is decided without stopping. -/
theorem operatorSkips_known
    (known : ke.Known) (val : UInt64) :
    operatorSkips ke val = pure (!operatorTakes ke val) := by
  obtain ⟨lower, upper⟩ := known
  have operators :
      ke.keOp = 1 ∨ ke.keOp = 2 ∨ ke.keOp = 3 ∨ ke.keOp = 4 ∨
        ke.keOp = 5 := by
    omega
  unfold operatorSkips operatorTakes
  rcases operators with op | op | op | op | op
  all_goals
    simp only [op, KcnEqOperator.ofCode?, ← decide_not,
      UInt64.not_lt, UInt64.not_le, ge_iff_le, gt_iff_lt]

/-- The switch of `kcndb_db_search`. -/
theorem wp_operatorSkips
    {post : Bool → TableCtx → Prop} {val : UInt64}
    (unknown : ¬ ke.Known → halt .operator)
    (next : post (!operatorTakes ke val) ctx) :
    wp (operatorSkips ke val) post halt ctx := by
  by_cases known : ke.Known
  · rw [operatorSkips_known known, wp_pure]
    exact next
  · have reason := unknown known
    unfold operatorSkips
    have others :
        KcnEqOperator.ofCode? ke.keOp = some .none ∨
          KcnEqOperator.ofCode? ke.keOp = none := by
      unfold KcnEq.Known at known
      unfold KcnEqOperator.ofCode?
      split <;> simp_all
    rcases others with op | op
    · rw [op]
      exact reason
    · rw [op]
      exact reason

/-- The callback takes the record or refuses it. -/
theorem wp_deliver
    {post : Bool → TableCtx → Prop} {kdr : KcndbDbRecord}
    (starved : halt .starved)
    (next : ∀ accepted env',
      ctx.env.trace = .callback accepted :: env'.trace →
      post accepted
        { ctx with
          env := env', delivered := ctx.delivered ++ [kdr] }) :
    wp (deliver kdr) post halt ctx := by
  unfold deliver
  rw [wp_bind, wp_modify, wp_bind, sys, wp_zoom]
  refine Env.wp_next starved ?_
  intro event rest shape
  cases event with
  | callback accepted =>
      exact next accepted _ shape
  | openFile _ | lock _ | stat _ | seek _ | read _ | write _ =>
      exact starved

/-- What a lookup leaves alone. -/
theorem keeps_lookup (idx : UInt64) :
    Keeps (fun ctx => (locFixed ctx, ctx.delivered))
      (locLookup idx) := by
  refine keeps_locLookup ?_ ?_ idx
  · intro α op keeps
    exact (keeps_locFixed keeps).pair (.zoom fun _ _ => rfl)
  · intro α op
    exact .zoom fun _ _ => rfl

/-- A lookup finds nothing only for these reasons. -/
theorem lookedUp_none
    {ctx' : TableCtx} {idx : UInt64}
    (outcome : ctx.LookedUp idx none ctx') :
    ¬ Trace.Clean ctx.env.trace ∨
      ¬ Resolves ctx.base.kdbLocsize ctx.loc.content idx := by
  cases outcome with
  | absent _ beyond =>
      refine Or.inr ?_
      rintro ⟨within, _⟩
      omega
  | refused _ event shape refusal =>
      rcases refusal with ⟨_, beyond⟩ | ⟨error, rfl⟩
      · refine Or.inr ?_
        rintro ⟨_, within, _⟩
        omega
      · refine Or.inl ?_
        rw [shape]
        simp [Trace.Clean, Event.Fails]
  | failed _ taken shape unclean =>
      refine Or.inl fun clean => unclean ?_
      rw [shape, ← List.cons_append] at clean
      exact fun event member =>
        (Trace.clean_append.mp clean).1 event
          (List.mem_cons_of_mem _ member)
  | ended _ taken _ _ short =>
      refine Or.inr ?_
      rintro ⟨_, _, inside⟩
      omega

/-- A full read that moves something moves as much as there is room for. -/
theorem moved_covers
    {taken : Trace} {limit count : Nat}
    (clean : Trace.Clean taken)
    (full : ∀ event ∈ taken, event.ReadsFull)
    (moved : 0 < Trace.moved limit taken)
    (room : count ≤ limit) :
    count ≤ Trace.moved limit taken := by
  rcases Trace.moved_of_full clean full limit with none | all
  · omega
  · rw [all]
    exact room

/-- Why a record of the file is not handed over, or is refused. -/
def Hindered (ctx : TableCtx) (kdr : KcndbDbRecord) : Prop :=
  ¬ Trace.Clean ctx.env.trace ∨ ¬ Trace.Willing ctx.env.trace ∨
    ¬ Resolves ctx.base.kdbLocsize ctx.loc.content kdr.kdrLocidx

/-- The lookup of a record's locator, as a search uses it. -/
theorem wp_lookup
    {post : Option (List UInt8) → TableCtx → Prop}
    {kdr : KcndbDbRecord}
    (starved : halt .starved)
    (overflow :
      kcndbFileBufsiz < lenAt ctx.loc.content kdr.kdrLocidx.toNat →
        halt .assertion)
    (sizeEq : ctx.loc.kb.size = kcndbFileBufsiz)
    (found : ∀ ctx' taken loc,
      ctx.Passes taken ctx' →
      ctx.Shown taken kdr { kdr with kdrLoc := loc } →
      ctx'.table = ctx.table →
      ctx'.delivered = ctx.delivered →
      post (some loc) ctx')
    (failed : ∀ ctx',
      Hindered ctx kdr →
      ctx.Visits ctx' →
      ctx'.table = ctx.table →
      post none ctx') :
    wp (locLookup kdr.kdrLocidx) post halt ctx := by
  have lookedUp :
      wp (locLookup kdr.kdrLocidx)
        (fun result ctx' => ctx.LookedUp kdr.kdrLocidx result ctx')
        halt ctx :=
    wp_locLookup starved overflow sizeEq
      fun _ _ outcome => outcome
  refine wp_imp ((keeps_lookup kdr.kdrLocidx).wp lookedUp) ?_
  rintro result ctx' ⟨outcome, kept⟩
  simp only [locFixed, KcndbFile.fixed, locLens, Prod.mk.injEq]
    at kept
  obtain ⟨⟨tidEq, baseEq, tableEq, contentEq, locSizeEq⟩,
    deliveredEq⟩ := kept
  have visits : ctx.Visits ctx' :=
    ⟨tidEq, baseEq, by rw [tableEq], contentEq, locSizeEq⟩
  cases result with
  | none =>
      refine failed ctx' ?_ visits tableEq
      rcases lookedUp_none outcome with unclean | unresolved
      · exact Or.inl unclean
      · exact Or.inr (Or.inr unresolved)
  | some loc =>
      cases outcome with
      | found _ taken _ known fits shape kinds clean inside moved exact =>
          refine found ctx' (.seek none :: taken) loc
            ⟨shape, ?_, ?_, visits⟩ ?_ tableEq deliveredEq
          · intro event member
            rcases List.mem_cons.mp member with rfl | later
            · simp [Event.Fails]
            · exact clean event later
          · intro event member refused
            subst refused
            rcases List.mem_cons.mp member with seek | later
            · cases seek
            · exact kinds _ later
          · refine ⟨rfl, ⟨known, fits, inside⟩, ?_⟩
            intro full room
            refine exact (moved_covers clean ?_ (by omega) room)
            exact fun event member => full event (by simp [member])

/-- The body of the loop after a record was read. -/
theorem wp_visit
    {post : Visit → TableCtx → Prop} {kdr : KcndbDbRecord}
    (starved : halt .starved)
    (overflow : recordFits ke kdr = true →
      kcndbFileBufsiz < lenAt ctx.loc.content kdr.kdrLocidx.toNat →
        halt .assertion)
    (unknown : ¬ ke.Known → halt .operator)
    (sizeEq : ctx.loc.kb.size = kcndbFileBufsiz)
    (skipped : recordFits ke kdr = false → post .skipped ctx)
    (delivered : recordFits ke kdr = true → ∀ ctx' taken shown,
      ctx.Passes taken ctx' →
      ctx.Shown taken kdr shown →
      ctx'.table = ctx.table →
      ctx'.delivered = ctx.delivered ++ [shown] →
      post .delivered ctx')
    (failed : recordFits ke kdr = true → ∀ ctx',
      Hindered ctx kdr →
      ctx.Visits ctx' →
      ctx'.table = ctx.table →
      post .failed ctx') :
    wp (visit ke kdr) post halt ctx := by
  unfold visit
  rw [wp_ite]
  refine ⟨?_, ?_⟩
  · intro timely
    rw [wp_bind]
    refine wp_operatorSkips unknown ?_
    rw [wp_ite]
    refine ⟨?_, ?_⟩
    · intro other
      rw [wp_pure]
      refine skipped ?_
      rw [recordFits, timely, Bool.true_and]
      simpa using other
    · intro taken
      have fits : recordFits ke kdr = true := by
        rw [recordFits, timely, Bool.true_and]
        simpa using taken
      rw [wp_bind]
      refine wp_lookup starved (overflow fits) sizeEq ?_ ?_
      · intro ctx₁ before loc passes shown tableEq deliveredEq
        simp only [wp_bind]
        refine wp_deliver starved ?_
        intro accepted env' shape
        cases accepted with
        | true =>
            have handed :
                ctx₁.Passes [.callback true]
                  { ctx₁ with
                    env := env'
                    delivered :=
                      ctx₁.delivered ++
                        [{ kdr with kdrLoc := loc }] } := by
              refine ⟨shape, ?_, ?_, ⟨rfl, rfl, rfl, rfl, rfl⟩⟩
              · simp [Trace.Clean, Event.Fails]
              · simp [Trace.Willing]
            refine delivered fits _ _ { kdr with kdrLoc := loc }
              (passes.trans handed) ?_ tableEq ?_
            · exact shown.earlier (Visits.refl ctx)
                (fun event member => by simp [member])
            · simp only [deliveredEq]
        | false =>
            refine failed fits _ (Or.inr (Or.inl ?_))
              (passes.visits.trans ⟨rfl, rfl, rfl, rfl, rfl⟩) tableEq
            intro willing
            rw [passes.trace_eq, shape] at willing
            exact willing (.callback false) (by simp) rfl
      · intro ctx₁ hindered visits tableEq
        exact failed fits ctx₁ hindered visits tableEq
  · intro untimely
    rw [wp_pure]
    refine skipped ?_
    rw [recordFits]
    simp [untimely]

end KcndbDb

namespace TableCtx

/--
What the loop of `kcndb_db_search` does with the rest of the file once `n`
records were delivered: it hands over the next hits in order, up to
`maxnlocs` in all; or something hinders it.
-/
inductive Swept
    (ke : KcnEq) (maxnlocs n : Nat) (ctx : TableCtx)
    (rest : List UInt8) : Option Nat → TableCtx → Prop where
  | swept (ctx' : TableCtx) (taken : Trace)
      (shown : List KcndbDbRecord) (rest' : List UInt8) :
      ctx.Passes taken ctx' →
      List.Forall₂ (ctx.Shown taken)
        ((hits ke rest).take (maxnlocs - n)) shown →
      ctx'.delivered = ctx.delivered ++ shown →
      ctx'.Scanned rest' →
      Swept ke maxnlocs n ctx rest (some (n + shown.length)) ctx'
  | stopped (ctx' : TableCtx) (rest' : List UInt8) :
      (¬ Trace.Clean ctx.env.trace ∨
        ¬ Trace.Willing ctx.env.trace ∨
        ∃ kdr ∈ (hits ke rest).take (maxnlocs - n),
          ¬ Resolves ctx.base.kdbLocsize ctx.loc.content
            kdr.kdrLocidx) →
      ctx.Visits ctx' →
      ctx'.Scanned rest' →
      Swept ke maxnlocs n ctx rest none ctx'

variable {ctx ctx' ctx'' : TableCtx} {ke : KcnEq} {maxnlocs n : Nat}
  {rest rest' : List UInt8} {result : Option Nat}

/-- A sweep that starts after a part without deliveries. -/
theorem Swept.after
    {taken : Trace} (passes : ctx.Passes taken ctx')
    (deliveredEq : ctx'.delivered = ctx.delivered)
    (same : hits ke rest' = hits ke rest)
    (later : ctx'.Swept ke maxnlocs n rest' result ctx'') :
    ctx.Swept ke maxnlocs n rest result ctx'' := by
  have visits := passes.visits
  cases later with
  | swept _ taken' shown rest'' passes' pairs deliveredEq' scanned =>
      rw [same] at pairs
      refine .swept ctx'' (taken ++ taken') shown rest''
        (passes.trans passes') ?_ ?_ scanned
      · refine pairs.imp fun _ _ one => ?_
        exact one.earlier visits fun event member => by simp [member]
      · rw [deliveredEq', deliveredEq]
  | stopped _ rest'' reasons visits' scanned =>
      refine .stopped ctx'' rest'' ?_ (visits.trans visits') scanned
      rw [visits.base_eq, visits.locContent_eq, same] at reasons
      rw [passes.trace_eq, Trace.clean_append,
        Trace.willing_append]
      exact reasons.imp (fun unclean both => unclean both.2)
        (Or.imp_left fun unwilling both => unwilling both.2)

/-- A sweep that starts by handing over a record. -/
theorem Swept.handed
    {taken : Trace} {kdr shown : KcndbDbRecord}
    (passes : ctx.Passes taken ctx')
    (one : ctx.Shown taken kdr shown)
    (deliveredEq : ctx'.delivered = ctx.delivered ++ [shown])
    (first : hits ke rest = kdr :: hits ke rest')
    (room : n < maxnlocs)
    (later : ctx'.Swept ke maxnlocs (n + 1) rest' result ctx'') :
    ctx.Swept ke maxnlocs n rest result ctx'' := by
  have visits := passes.visits
  have split :
      (hits ke rest).take (maxnlocs - n) =
        kdr :: (hits ke rest').take (maxnlocs - (n + 1)) := by
    have more : maxnlocs - n = (maxnlocs - (n + 1)) + 1 := by omega
    rw [first, more, List.take_succ_cons]
  cases later with
  | swept _ taken' others rest'' passes' pairs deliveredEq' scanned =>
      have size : n + 1 + others.length = n + (shown :: others).length := by
        rw [List.length_cons]
        omega
      rw [size]
      refine .swept ctx'' (taken ++ taken') (shown :: others) rest''
        (passes.trans passes') ?_ ?_ scanned
      · rw [split]
        refine .cons ?_ (pairs.imp fun _ _ other => ?_)
        · exact one.earlier (Visits.refl ctx)
            fun event member => by simp [member]
        · exact other.earlier visits
            fun event member => by simp [member]
      · rw [deliveredEq', deliveredEq, List.append_assoc]
        rfl
  | stopped _ rest'' reasons visits' scanned =>
      refine .stopped ctx'' rest'' ?_ (visits.trans visits') scanned
      rw [visits.base_eq, visits.locContent_eq] at reasons
      rw [passes.trace_eq, Trace.clean_append,
        Trace.willing_append, split]
      refine reasons.imp (fun unclean both => unclean both.2)
        (Or.imp (fun unwilling both => unwilling both.2) ?_)
      rintro ⟨other, member, unresolved⟩
      exact ⟨other, List.mem_cons_of_mem _ member, unresolved⟩

end TableCtx

namespace KcndbDb

open TableCtx

variable {halt : Stop → Prop} {ctx : TableCtx} {ke : KcnEq}
  {rest : List UInt8} {maxnlocs n : Nat}

/-- The loop of `kcndb_db_search`. -/
theorem wp_searchLoop
    {rounds : Nat}
    (starved : halt .starved)
    (overflow : ∀ kdr ∈ hits ke rest,
      kcndbFileBufsiz < lenAt ctx.loc.content kdr.kdrLocidx.toNat →
        halt .assertion)
    (unknown : ¬ ke.Known → halt .operator)
    (sizeEq : ctx.loc.kb.size = kcndbFileBufsiz)
    (scanned : ctx.Scanned rest) :
    wp (searchLoop ke maxnlocs rounds n)
      (fun result ctx' => ctx.Swept ke maxnlocs n rest result ctx')
      halt ctx := by
  induction rounds generalizing ctx rest n with
  | zero =>
      exact starved
  | succ rounds inductionHypothesis =>
      unfold searchLoop
      rw [wp_ite]
      refine ⟨?_, ?_⟩
      · intro room
        rw [wp_bind]
        have block : recordsiz ≤ kcndbFileBufsiz := by decide
        refine wp_recordRead starved scanned.atStart
          (by rw [scanned.size_eq]; exact block) ?_
        intro result ctx₁ outcome
        cases result with
        | none =>
            obtain ⟨scanned₁, visits, ended | failed⟩ :=
              scanned.unread outcome
            · obtain ⟨short, errnoEq, deliveredEq, taken, passes⟩ :=
                ended
              rw [wp_bind, wp_gets, if_pos errnoEq, wp_pure]
              refine .swept ctx₁ taken [] rest passes ?_ ?_ scanned₁
              · rw [hits_short short, List.take_nil]
                exact .nil
              · rw [deliveredEq, List.append_nil]
            · obtain ⟨unclean, errnoNe⟩ := failed
              rw [wp_bind, wp_gets, if_neg errnoNe, wp_pure]
              exact .stopped ctx₁ rest (Or.inl unclean) visits
                scanned₁
        | some kdr =>
            obtain ⟨enough, kdrEq, scanned₁, deliveredEq, taken,
              passes⟩ := scanned.read outcome
            have sizeEq₁ : ctx₁.loc.kb.size = kcndbFileBufsiz :=
              passes.visits.locSize_eq.trans sizeEq
            have contentEq₁ := passes.visits.locContent_eq
            simp only [wp_bind]
            refine wp_visit starved ?_ unknown sizeEq₁ ?_ ?_ ?_
            · intro fits
              rw [contentEq₁]
              refine overflow kdr ?_
              rw [hits_cons enough, ← kdrEq, if_pos fits]
              exact List.mem_cons_self
            · intro unfit
              have same :
                  hits ke (rest.drop recordsiz) = hits ke rest := by
                rw [hits_cons enough, ← kdrEq, unfit]
                rfl
              refine wp_imp
                (inductionHypothesis ?_ sizeEq₁ scanned₁) ?_
              · rw [same, contentEq₁]
                exact overflow
              intro result ctx₂ later
              exact later.after passes deliveredEq same
            · intro fits ctx₂ taken₂ shown passes₂ one tableEq
                deliveredEq₂
              have first :
                  hits ke rest =
                    kdr :: hits ke (rest.drop recordsiz) := by
                rw [hits_cons enough, ← kdrEq, if_pos fits]
              have sizeEq₂ : ctx₂.loc.kb.size = kcndbFileBufsiz :=
                passes₂.visits.locSize_eq.trans sizeEq₁
              refine wp_imp
                (inductionHypothesis ?_ sizeEq₂
                  (scanned₁.of_table_eq tableEq)) ?_
              · intro later member
                rw [passes₂.visits.locContent_eq, contentEq₁]
                refine overflow later ?_
                rw [first]
                exact List.mem_cons_of_mem _ member
              intro result ctx₃ later
              have seen : ctx.Shown (taken ++ taken₂) kdr shown :=
                one.earlier passes.visits
                  fun event member => by simp [member]
              refine later.handed (passes.trans passes₂) seen ?_ first
                room
              rw [deliveredEq₂, deliveredEq]
            · intro fits ctx₂ hindered visits₂ tableEq
              have member :
                  kdr ∈ (hits ke rest).take (maxnlocs - n) := by
                have more :
                    maxnlocs - n = (maxnlocs - (n + 1)) + 1 := by
                  omega
                rw [hits_cons enough, ← kdrEq, if_pos fits, more,
                  List.take_succ_cons]
                exact List.mem_cons_self
              have visits := passes.visits
              refine .stopped ctx₂ _ ?_ (visits.trans visits₂)
                (scanned₁.of_table_eq tableEq)
              unfold Hindered at hindered
              rw [visits.base_eq, visits.locContent_eq] at hindered
              rw [passes.trace_eq, Trace.clean_append,
                Trace.willing_append]
              refine hindered.imp (fun unclean both => unclean both.2)
                (Or.imp (fun unwilling both => unwilling both.2) ?_)
              exact fun unresolved => ⟨kdr, member, unresolved⟩
      · intro full
        rw [wp_pure]
        refine .swept ctx [] [] rest
          ⟨rfl, Trace.clean_nil, by simp [Trace.Willing],
            Visits.refl ctx⟩ ?_ ?_ scanned
        · rw [Nat.sub_eq_zero_of_le (Nat.le_of_not_lt full),
            List.take_zero]
          exact .nil
        · rw [List.append_nil]

end KcndbDb

namespace TableCtx

/-- What `kcndb_db_search` does between taking and releasing the lock. -/
inductive Searched
    (ke : KcnEq) (maxnlocs : Nat) (ctx : TableCtx) :
    Bool → TableCtx → Prop where
  | refused (env' : Env) :
      ¬ Trace.Clean ctx.env.trace →
      Searched ke maxnlocs ctx false { ctx with env := env' }
  | stopped (ctx' : TableCtx) (rest : List UInt8) :
      (¬ Trace.Clean ctx.env.trace ∨
        ¬ Trace.Willing ctx.env.trace ∨
        ∃ kdr ∈ (hits ke ctx.table.content).take maxnlocs,
          ¬ Resolves ctx.base.kdbLocsize ctx.loc.content
            kdr.kdrLocidx) →
      ctx.Visits ctx' →
      ctx'.Scanned rest →
      Searched ke maxnlocs ctx false ctx'
  | nothing (ctx' : TableCtx) (taken : Trace) (rest : List UInt8) :
      ctx.Passes taken ctx' →
      (hits ke ctx.table.content).take maxnlocs = [] →
      ctx'.delivered = ctx.delivered →
      ctx'.env.errno = Errno.esrch →
      ctx'.Scanned rest →
      Searched ke maxnlocs ctx false ctx'
  | delivered (ctx' : TableCtx) (taken : Trace)
      (shown : List KcndbDbRecord) (rest : List UInt8) :
      ctx.Passes taken ctx' →
      List.Forall₂ (ctx.Shown taken)
        ((hits ke ctx.table.content).take maxnlocs) shown →
      (hits ke ctx.table.content).take maxnlocs ≠ [] →
      ctx'.delivered = ctx.delivered ++ shown →
      ctx'.Scanned rest →
      Searched ke maxnlocs ctx true ctx'

end TableCtx

namespace KcndbDb

open TableCtx KcndbFile

variable {halt : Stop → Prop} {ctx : TableCtx} {ke : KcnEq}
  {maxnlocs : Nat}

/-- The part of `kcndb_db_search` after the lock was taken. -/
theorem wp_searchLocked
    {post : Bool → TableCtx → Prop}
    (starved : halt .starved)
    (overflow : ∀ kdr ∈ hits ke ctx.table.content,
      kcndbFileBufsiz < lenAt ctx.loc.content kdr.kdrLocidx.toNat →
        halt .assertion)
    (unknown : ¬ ke.Known → halt .operator)
    (locSize : ctx.loc.kb.size = kcndbFileBufsiz)
    (tableSize : ctx.table.kb.size = kcndbFileBufsiz)
    (next : ∀ ok ctx',
      Searched ke maxnlocs ctx ok ctx' → post ok ctx') :
    wp (searchLocked ke maxnlocs) post halt ctx := by
  unfold searchLocked
  simp only [wp_bind, onTable, wp_zoom, wp_mapStop, FileCtx.buf]
  refine wp_sysSeek starved ?_ ?_
  · intro env₁ _ shape
    simp only [↓reduceIte, wp_bind, wp_zoom, wp_mapStop, wp_gets]
    refine wp_reset (holds_self _) (Nat.zero_le _) ?_
    intro kb empty
    simp only [tableLens, FileCtx.kbLens] at empty shape ⊢
    rw [tableSize] at empty
    have sought :
        ctx.Passes [.seek none]
          { ctx with
            table := { content := ctx.table.content, off := 0, kb := kb }
            env := env₁ } := by
      refine ⟨shape, ?_, ?_, ⟨rfl, rfl, rfl, rfl, rfl⟩⟩
      · simp [Trace.Clean, Event.Fails]
      · simp [Trace.Willing]
    have scanned :
        TableCtx.Scanned
          { ctx with
            table := { content := ctx.table.content, off := 0, kb := kb }
            env := env₁ }
          ctx.table.content := by
      refine ⟨empty.size_eq, empty.before_eq, ?_, List.suffix_refl _,
        ?_⟩
      · rw [empty.after_eq]
        rfl
      · rw [empty.sp_eq, Nat.zero_add]
    refine wp_imp
      (wp_searchLoop starved overflow unknown locSize scanned) ?_
    intro result ctx₂ later
    have swept := later.after sought rfl rfl
    cases swept with
    | swept _ taken shown rest passes pairs deliveredEq scanned₂ =>
        rw [Nat.sub_zero] at pairs
        have size := pairs.length_eq
        rw [wp_ite]
        refine ⟨?_, ?_⟩
        · intro none
          have empty : shown = [] :=
            List.length_eq_zero_iff.mp (by omega)
          subst empty
          simp only [wp_bind, sys, wp_zoom, Env.setErrno, wp_modify,
            wp_pure]
          rw [List.append_nil] at deliveredEq
          refine next false _
            (.nothing _ taken rest ⟨passes.trace_eq, passes.clean,
              passes.willing, ?_⟩ ?_ deliveredEq rfl
              (scanned₂.of_table_eq rfl))
          · exact passes.visits.trans ⟨rfl, rfl, rfl, rfl, rfl⟩
          · exact List.length_eq_zero_iff.mp size
        · intro some
          rw [wp_pure]
          refine next true ctx₂
            (.delivered ctx₂ taken shown rest passes pairs ?_
              deliveredEq scanned₂)
          intro none
          rw [none, List.length_nil] at size
          omega
    | stopped _ rest reasons visits scanned₂ =>
        rw [Nat.sub_zero] at reasons
        exact next false ctx₂
          (.stopped ctx₂ rest reasons visits scanned₂)
  · intro event env' shape refusal
    simp only [Bool.false_eq_true, ↓reduceIte, wp_pure]
    refine next false _ (.refused env' ?_)
    rcases refusal with ⟨_, beyond⟩ | ⟨error, rfl⟩
    · exact absurd beyond (Nat.not_lt_of_le (Nat.zero_le _))
    · have traceEq : ctx.env.trace = _ := shape
      rw [traceEq]
      simp [Trace.Clean, Event.Fails]

end KcndbDb

end Kcn
