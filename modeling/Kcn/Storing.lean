import Kcn.Heap
import Kcn.Steps

namespace Kcn

open Program Bytes KcnBuf KcndbDb

/-!
# Storing a record and its locator

What `kcndb_db_record_add` does to both files of a table whose cached sizes
are right, where the buffer of the calling thread has little left over.
-/

/-- The buffer holds at most two records, which were read from the file. -/
structure Brief (content : List UInt8) (kb : KcnBuf) : Prop where
  held : kb.after.length ≤ content.length
  few : kb.after.length ≤ 2 * recordsiz

namespace TableCtx

/-- Both files and sizes are as an add needs them. -/
structure AddReady (ctx : TableCtx) : Prop where
  loc : ctx.LocReady
  table : ctx.TableSound
  few : ctx.table.kb.after.length ≤ 2 * recordsiz

/-- The table file and its cached size are as before. -/
structure TableKept (ctx ctx' : TableCtx) : Prop where
  content_eq : ctx'.table.content = ctx.table.content
  tablesize_eq : ctx'.base.kdbTablesize = ctx.base.kdbTablesize

/-- The locator file and its cached size are as before. -/
structure LocSame (ctx ctx' : TableCtx) : Prop where
  content_eq : ctx'.loc.content = ctx.loc.content
  locsize_eq : ctx'.base.kdbLocsize = ctx.base.kdbLocsize

/-- What `kcndb_db_record_add` does to both files. -/
inductive RecordStored (ctx : TableCtx) (kdr : KcndbDbRecord) :
    Bool × KcndbDbRecord → TableCtx → Prop where
  | torn (result : Bool × KcndbDbRecord) (ctx' : TableCtx) :
      ctx.env.trace.Torn →
      RecordStored ctx kdr result ctx'
  | late (ctx' : TableCtx) :
      ctx.lastTime > kdr.kdrTime →
      ctx'.env.errno = Errno.erange →
      ctx.LocSame ctx' →
      ctx.TableKept ctx' →
      ctx'.table.kb.before = [] →
      Brief ctx'.table.content ctx'.table.kb →
      (ctx.table.kb.after = [] → ctx'.table.kb.after = []) →
      RecordStored ctx kdr (false, kdr) ctx'
  | failed (ctx' : TableCtx) (kdr' : KcndbDbRecord) :
      ¬ ctx.env.trace.Clean →
      ctx.LocKept ctx' →
      ctx.TableKept ctx' →
      Brief ctx'.table.content ctx'.table.kb →
      RecordStored ctx kdr (false, kdr') ctx'
  | stored (ctx' : TableCtx) (idx : UInt64) :
      ¬ ctx.lastTime > kdr.kdrTime →
      ctx.LocKept ctx' →
      locIndextablesiz ≤ idx.toNat →
      Entry ctx'.loc.content idx.toNat kdr.kdrLoc →
      ctx'.base.kdbTablesize = ctx.base.kdbTablesize + recordsiz →
      ctx'.table.content =
        ctx.table.content ++
          encodeRecord { kdr with kdrLocidx := idx } →
      ctx'.table.kb.Holds kcndbFileBufsiz 0 [] [] →
      RecordStored ctx kdr (true, { kdr with kdrLocidx := idx }) ctx'

variable {ctx ctx' : TableCtx}

/-- An empty buffer is empty again once the last record was read. -/
theorem LastRead.after_eq
    {kdr0 : KcndbDbRecord}
    (outcome : ctx.LastRead ctx' (some kdr0))
    (tablesize : ctx.base.kdbTablesize = ctx.table.content.length)
    (empty : ctx.table.kb.after = []) :
    ctx'.table.kb.after = [] := by
  cases outcome with
  | empty _ same =>
      rw [same]
      exact empty
  | read env' _ large shape outcome =>
      cases outcome with
      | read taken new sp reads _ _ _ holds _ =>
          have few := reads.few tablesize
          rw [holds.after_eq]
          simp only [empty, List.nil_append]
          exact List.drop_eq_nil_of_le few

end TableCtx

namespace KcndbDb

open TableCtx

variable {ctx : TableCtx} {kdr : KcndbDbRecord}

/-- `kcndb_db_record_read_last` with at most two records in the buffer. -/
theorem wp_recordReadLast_ready
    (ready : ctx.AddReady) :
    wp recordReadLast
      (fun result ctx' =>
        ctx.TableReads ctx' ∧
          match result with
          | none =>
              ¬ ctx.env.trace.Clean ∧
                ctx'.table.kb.after.length ≤ 2 * recordsiz
          | some kdr0 =>
              kdr0.kdrTime = ctx.lastTime ∧
                ctx'.table.kb.after.length ≤ recordsiz ∧
                (ctx.table.kb.after = [] → ctx'.table.kb.after = []))
      (fun _ => True) ctx := by
  have rested := ready.table.rested
  have emptied :
      wp recordReadLast
        (fun result ctx' =>
          ∀ kdr0, result = some kdr0 → ctx.table.kb.after = [] →
            ctx'.table.kb.after = [])
        (fun _ => True) ctx := by
    refine wp_recordReadLast trivial rested.atStart
      (by rw [rested.size_eq]; decide) ?_
    rintro result ctx' outcome kdr0 rfl
    exact outcome.after_eq ready.table.tablesize
  have sound :
      wp recordReadLast
        (fun result ctx' =>
          ctx.TableReads ctx' ∧
            match result with
            | none =>
                ¬ ctx.env.trace.Clean ∧
                  ctx'.table.kb.after.length ≤ 2 * recordsiz
            | some kdr0 =>
                kdr0.kdrTime = ctx.lastTime ∧
                  ctx'.table.kb.after.length ≤ recordsiz)
        (fun _ => True) ctx := by
    refine wp_recordReadLast_sound ready.table trivial ?_ ?_
    · exact fun ctx' reads unclean few =>
        ⟨reads, unclean, few ready.few⟩
    · exact fun kdr0 ctx' reads timeEq few =>
        ⟨reads, timeEq, few ready.few⟩
  refine wp_mono (wp_and sound emptied) ?_ fun _ _ => trivial
  rintro result ctx' ⟨⟨reads, outcome⟩, empty⟩
  refine ⟨reads, ?_⟩
  cases result with
  | none =>
      exact outcome
  | some kdr0 =>
      exact ⟨outcome.1, outcome.2, empty kdr0 rfl⟩

/-- The end of `kcndb_db_record_add`, with the locator at hand. -/
theorem wp_recordAppend_stores
    {ctx₂ : TableCtx} {idx : UInt64}
    (inTime : ¬ ctx.lastTime > kdr.kdrTime)
    (suffix : ctx₂.env.trace <:+ ctx.env.trace)
    (kept : ctx.LocKept ctx₂)
    (tableKept : ctx.TableKept ctx₂)
    (ready : ctx.AddReady)
    (size : ctx₂.table.kb.size = kcndbFileBufsiz)
    (before : ctx₂.table.kb.before = [])
    (after : ctx₂.table.kb.after.length ≤ recordsiz)
    (behind : locIndextablesiz ≤ idx.toNat)
    (entry : Entry ctx₂.loc.content idx.toNat kdr.kdrLoc) :
    wp (recordAppend { kdr with kdrLocidx := idx })
      (fun ok ctx₃ =>
        RecordStored ctx kdr (ok, { kdr with kdrLocidx := idx }) ctx₃)
      (fun _ => True) ctx₂ := by
  refine wp_recordAppend trivial before (fun _ => trivial) ?_
  intro ok ctx₃ appended
  have contentEq₂ := tableKept.content_eq
  have sizeEq₂ := tableKept.tablesize_eq
  have locEq : ctx₃.loc = ctx₂.loc := by
    rw [appended.frame]
  have locsizeEq : ctx₃.base.kdbLocsize = ctx₂.base.kdbLocsize := by
    rw [appended.base_eq]
    split <;> rfl
  have kept₃ : ctx.LocKept ctx₃ := by
    refine ⟨?_, ?_⟩
    · rw [locEq]
      exact kept.heap
    · rw [locEq, locsizeEq]
      exact kept.locsize
  have recorded :=
    appended.recorded size (by
      rw [contentEq₂]
      exact ready.table.bounded)
  have none : ctx₂.table.kb.after.drop recordsiz = [] :=
    List.drop_eq_nil_of_le after
  cases recorded with
  | stored _ baseEq contentEq holds =>
      refine .stored ctx₃ idx inTime kept₃ behind ?_ ?_ ?_ holds
      · rw [locEq]
        exact entry
      · rw [baseEq]
        simp only
        rw [sizeEq₂]
      · rw [contentEq, contentEq₂, none, List.append_nil]
  | kept _ unclean baseEq contentEq holds =>
      rw [none] at holds
      refine .failed ctx₃ _ (fun clean => unclean (clean.suffix suffix))
        kept₃ ⟨contentEq.trans contentEq₂, by rw [baseEq, sizeEq₂]⟩ ?_
      refine ⟨?_, ?_⟩ <;> rw [holds.after_eq] <;> exact Nat.zero_le _
  | torn _ torn =>
      exact .torn _ ctx₃ (torn.of_suffix suffix)

/-- `kcndb_db_record_add` while it has the lock. -/
theorem wp_recordAddLocked_stores
    (ready : ctx.AddReady)
    (leads : Leads ctx.loc.content kdr.kdrLoc)
    (short : kdr.kdrLoc.length ≤ kcnMsgMaxlocsiz) :
    wp (recordAddLocked kdr) (RecordStored ctx kdr) (fun _ => True)
      ctx := by
  refine wp_recordAddLocked ?_
  refine wp_imp (wp_recordReadLast_ready ready) ?_
  rintro result ctx₁ ⟨reads, outcome⟩
  have locEq : ctx₁.loc = ctx.loc := by
    rw [reads.frame]
  have baseEq : ctx₁.base = ctx.base := by
    rw [reads.frame]
  have tableKept : ctx.TableKept ctx₁ :=
    ⟨reads.content_eq, by rw [baseEq]⟩
  have kept : ctx.LocKept ctx₁ := by
    refine ⟨.of_eq (by rw [locEq]), ?_⟩
    rw [baseEq, locEq]
    exact ready.loc.locsize
  cases result with
  | none =>
      exact .failed ctx₁ kdr outcome.1 kept tableKept
        ⟨reads.rested.held, outcome.2⟩
  | some kdr0 =>
      obtain ⟨timeEq, few, emptied⟩ := outcome
      have brief : Brief ctx₁.table.content ctx₁.table.kb :=
        ⟨reads.rested.held, by omega⟩
      simp only [timeEq]
      refine ⟨fun late => ?_, fun inTime => ?_⟩
      · exact .late _ late rfl ⟨by rw [locEq], by rw [baseEq]⟩
          ⟨tableKept.content_eq, tableKept.tablesize_eq⟩
          reads.rested.atStart brief emptied
      · have locReady : ctx₁.LocReady := by
          obtain ⟨size, slots, locsize, bounded⟩ := ready.loc
          rw [← locEq] at size slots locsize bounded
          rw [← baseEq] at locsize
          exact ⟨size, slots, locsize, bounded⟩
        have consumes :
            Consumes answers (fun _ => True) (locAdd kdr.kdrLoc) :=
          consumes_locAdd trivial trivial kdr.kdrLoc
        have both :=
          wp_and
            (wp_locAdd_stores locReady (by rw [locEq]; exact leads)
              short)
            (consumes.wp (keeps_tablePart_locAdd kdr.kdrLoc ctx₁))
        refine wp_mono both ?_ fun _ _ => trivial
        rintro found ctx₂ ⟨stored, same, taken⟩
        simp only [tablePart, Prod.mk.injEq] at same
        obtain ⟨_, sizeEq₂, tableEq⟩ := same
        have suffix₁ : ctx₁.env.trace <:+ ctx.env.trace :=
          reads.answers
        have suffix₂ : ctx₂.env.trace <:+ ctx.env.trace :=
          List.IsSuffix.trans taken suffix₁
        have tableKept₂ : ctx.TableKept ctx₂ := by
          refine ⟨?_, ?_⟩
          · rw [tableEq]
            exact tableKept.content_eq
          · exact sizeEq₂.trans tableKept.tablesize_eq
        have keptBoth : ctx₁.LocKept ctx₂ → ctx.LocKept ctx₂ :=
          fun later => ⟨kept.heap.trans later.heap, later.locsize⟩
        cases stored with
        | torn _ torn =>
            exact .torn _ ctx₂ (torn.of_suffix suffix₁)
        | failed _ unclean kept₂ =>
            exact .failed ctx₂ kdr
              (fun clean => unclean (clean.suffix suffix₁))
              (keptBoth kept₂) tableKept₂ (tableEq.symm ▸ brief)
        | stored _ idx kept₂ behind entry =>
            refine wp_recordAppend_stores inTime suffix₂
              (keptBoth kept₂) tableKept₂ ready ?_ ?_ ?_ behind entry
            · rw [tableEq]
              exact reads.rested.size_eq
            · rw [tableEq]
              exact reads.rested.atStart
            · rw [tableEq]
              exact few

/-- `kcndb_db_record_add` -/
theorem wp_recordAdd_stores
    (ready : ctx.AddReady)
    (leads : Leads ctx.loc.content kdr.kdrLoc)
    (short : kdr.kdrLoc.length ≤ kcnMsgMaxlocsiz) :
    wp (recordAdd kdr) (RecordStored ctx kdr) (fun _ => True) ctx := by
  refine wp_recordAdd trivial (fun _ => trivial) ?_ ?_
  · intro error env' shape
    refine .failed _ kdr ?_ ⟨.refl _, ready.loc.locsize⟩ ⟨rfl, rfl⟩
      ⟨ready.table.rested.held, ready.few⟩
    rw [shape]
    simp [Trace.Clean, Event.Fails]
  · intro env' shape _
    have suffix : env'.trace <:+ ctx.env.trace := ⟨[_], shape.symm⟩
    have locked : (ctx.writeLocked env').AddReady := by
      obtain ⟨⟨locSize, slots, locsize, locBounded⟩,
        ⟨rested, tablesize, bounded⟩, few⟩ := ready
      exact ⟨⟨locSize, slots, locsize, locBounded⟩,
        ⟨rested, tablesize, bounded⟩, few⟩
    refine wp_imp (wp_recordAddLocked_stores locked leads short) ?_
    intro result ctx₁ outcome
    cases outcome with
    | torn _ _ torn =>
        exact .torn _ _ (torn.of_suffix suffix)
    | late _ late errno same kept before brief emptied =>
        exact .late _ late errno ⟨same.content_eq, same.locsize_eq⟩
          ⟨kept.content_eq, kept.tablesize_eq⟩ before brief emptied
    | failed _ kdr' unclean kept tableKept brief =>
        exact .failed _ kdr'
          (fun clean => unclean (clean.suffix suffix))
          ⟨kept.heap, kept.locsize⟩
          ⟨tableKept.content_eq, tableKept.tablesize_eq⟩ brief
    | stored _ idx inTime kept behind entry sizeEq contentEq holds =>
        exact .stored _ idx inTime ⟨kept.heap, kept.locsize⟩ behind
          entry sizeEq contentEq holds

end KcndbDb

end Kcn
