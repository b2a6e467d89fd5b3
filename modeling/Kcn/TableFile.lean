import Kcn.Calls
import Kcn.Scan
import Kcn.Stops

namespace Kcn

open Program Bytes KcnBuf

/-!
# Adding a record to a table file

What `kcndb_db_record_add` does to the table file, in terms of the bytes that
the buffer of the calling thread still has from earlier calls.
-/

/--
The bytes that `kcndb_db_record_read_last` takes a record from: first what is
left in the buffer, then the end of the file.
-/
def lastBytes
    (tablesize : Nat) (content : List UInt8) (kb : KcnBuf) :
    List UInt8 :=
  kb.after ++ content.drop (tablesize - KcndbDb.recordsiz)

/-- The time that a new record is compared with. -/
def comparedTime
    (tablesize : Nat) (content : List UInt8) (kb : KcnBuf) : Int64 :=
  if tablesize < KcndbDb.recordsiz then
    0
  else
    (decodeRecord (lastBytes tablesize content kb)).kdrTime

/-- The buffer has read a part of the file, and its cursor is at its start. -/
structure Rested (content : List UInt8) (kb : KcnBuf) : Prop where
  size_eq : kb.size = kcndbFileBufsiz
  atStart : kb.before = []
  held : kb.after.length ≤ content.length

theorem Rested.empty
    {content : List UInt8} {kb : KcnBuf} {sp : Nat}
    (holds : kb.Holds kcndbFileBufsiz sp [] []) :
    Rested content kb := by
  refine ⟨holds.size_eq, holds.before_eq, ?_⟩
  rw [holds.after_eq]
  exact Nat.zero_le _

/-- A file that grows keeps the buffers rested. -/
theorem Rested.grow
    {content content' : List UInt8} {kb : KcnBuf}
    (rested : Rested content kb)
    (grown : content.length ≤ content'.length) :
    Rested content' kb :=
  ⟨rested.size_eq, rested.atStart, Nat.le_trans rested.held grown⟩

namespace TableCtx

/-- The cached size of the table file is right, and its buffer is rested. -/
structure TableSound (ctx : TableCtx) : Prop where
  rested : Rested ctx.table.content ctx.table.kb
  tablesize : ctx.base.kdbTablesize = ctx.table.content.length
  bounded : ctx.table.content.length ≤ offMax

/-- The time that a new record is compared with in this state. -/
def lastTime (ctx : TableCtx) : Int64 :=
  comparedTime ctx.base.kdbTablesize ctx.table.content ctx.table.kb

/-- An operation that changed nothing of the table but buffer and offset. -/
structure TableReads (ctx ctx' : TableCtx) : Prop where
  frame : ctx' = { ctx with table := ctx'.table, env := ctx'.env }
  content_eq : ctx'.table.content = ctx.table.content
  rested : Rested ctx'.table.content ctx'.table.kb
  answers : ctx'.answers <:+ ctx.answers

variable {ctx ctx' : TableCtx}

/-- The state with the offset at the last record. -/
def atLast (ctx : TableCtx) (env' : Env) : TableCtx := {
  ctx with
  table := {
    ctx.table with off := ctx.base.kdbTablesize - KcndbDb.recordsiz
  }
  env := env'
}

/-- Reading at the last record moves at most that record. -/
theorem ReadsTable.few
    {env' : Env} {taken : Trace} {new : List UInt8}
    (reads : (ctx.atLast env').ReadsTable taken new ctx')
    (tablesize : ctx.base.kdbTablesize = ctx.table.content.length) :
    new.length ≤ KcndbDb.recordsiz := by
  have amount := congrArg List.length reads.new_eq
  rw [length_slice] at amount
  simp only [atLast] at amount
  omega

/-- Reading at the last record, after the offset was set. -/
theorem ReadsTable.tableReads
    {env' : Env} {taken : Trace} {new : List UInt8}
    (reads : (ctx.atLast env').ReadsTable taken new ctx')
    (shape : ctx.env.trace = .seek none :: env'.trace)
    (rested : Rested ctx.table.content ctx'.table.kb) :
    ctx.TableReads ctx' := by
  have contentEq : ctx'.table.content = ctx.table.content :=
    reads.content_eq
  have later : env'.trace = taken ++ ctx'.env.trace :=
    reads.took.trace_eq
  refine ⟨reads.frame, contentEq, ?_, ?_⟩
  · rw [contentEq]
    exact rested
  · refine ⟨.seek none :: taken, ?_⟩
    simp only [answers, shape, later, List.cons_append]

/-- The time that is read at the last record is the one compared with. -/
theorem ReadsTable.lastTime_eq
    {env' : Env} {taken : Trace} {new : List UInt8}
    (reads : (ctx.atLast env').ReadsTable taken new ctx')
    (large : KcndbDb.recordsiz ≤ ctx.base.kdbTablesize)
    (enough :
      KcndbDb.recordsiz ≤ (ctx.table.kb.after ++ new).length) :
    (decodeRecord (ctx.table.kb.after ++ new)).kdrTime =
      ctx.lastTime := by
  have split := reads.data_eq
  have small : ¬ ctx.base.kdbTablesize < KcndbDb.recordsiz :=
    Nat.not_lt.mpr large
  simp only [atLast] at split
  rw [lastTime, comparedTime, if_neg small, lastBytes, ← split,
    ← List.append_assoc, decodeRecord_append enough]

/-- What reading the last record leaves where a record was read. -/
theorem TableSound.lastRead_read
    (sound : ctx.TableSound) {env' : Env} {kdr0 : KcndbDbRecord}
    (large : KcndbDb.recordsiz ≤ ctx.base.kdbTablesize)
    (shape : ctx.env.trace = .seek none :: env'.trace)
    (outcome : RecordRead (ctx.atLast env') ctx' (some kdr0)) :
    ctx.TableReads ctx' ∧ kdr0.kdrTime = ctx.lastTime ∧
      (ctx.table.kb.after.length ≤ 2 * KcndbDb.recordsiz →
        ctx'.table.kb.after.length ≤ KcndbDb.recordsiz) := by
  have held := sound.rested.held
  have tablesize := sound.tablesize
  cases outcome with
  | read taken new sp reads _ enough stays holds _ =>
      have few := reads.few tablesize
      have afterEq := congrArg List.length holds.after_eq
      simp only [atLast, List.length_drop, List.length_append]
        at afterEq
      have none :
          KcndbDb.recordsiz ≤ ctx.table.kb.after.length →
            new.length = 0 :=
        fun already => congrArg List.length (stays already)
      refine ⟨reads.tableReads shape ⟨?_, holds.before_eq, ?_⟩,
        ?_, ?_⟩
      · exact holds.size_eq.trans sound.rested.size_eq
      · omega
      · exact reads.lastTime_eq large enough
      · intro _
        omega

/-- What reading the last record leaves where none was read. -/
theorem TableSound.lastRead_none
    (sound : ctx.TableSound) {env' : Env}
    (large : KcndbDb.recordsiz ≤ ctx.base.kdbTablesize)
    (shape : ctx.env.trace = .seek none :: env'.trace)
    (outcome : RecordRead (ctx.atLast env') ctx' none) :
    ctx.TableReads ctx' ∧ ¬ Trace.Clean ctx.env.trace ∧
      ctx'.table.kb.after.length ≤ KcndbDb.recordsiz := by
  have tablesize := sound.tablesize
  cases outcome with
  | ended taken new sp reads _ _ atEnd below _ _ =>
      have offEq := reads.off_eq
      rw [reads.content_eq, offEq] at atEnd
      simp only [atLast, List.length_append] at atEnd below
      omega
  | failed taken new sp reads unclean _ below holds _ =>
      have afterEq := congrArg List.length holds.after_eq
      simp only [atLast] at afterEq below
      refine ⟨reads.tableReads shape ⟨?_, holds.before_eq, ?_⟩, ?_, ?_⟩
      · exact holds.size_eq.trans sound.rested.size_eq
      · omega
      · have later : env'.trace = taken ++ ctx'.env.trace :=
          reads.took.trace_eq
        rw [shape, later]
        intro clean
        exact unclean fun event member =>
          clean event (by simp [member])
      · omega

end TableCtx

namespace KcndbDb

open TableCtx

variable {ctx : TableCtx} {halt : Stop → Prop}

/-- `kcndb_db_record_read_last` on a sound table. -/
theorem wp_recordReadLast_sound
    {post : Option KcndbDbRecord → TableCtx → Prop}
    (sound : ctx.TableSound)
    (starved : halt .starved)
    (failed : ∀ ctx',
      ctx.TableReads ctx' → ¬ Trace.Clean ctx.env.trace →
      (ctx.table.kb.after.length ≤ 2 * recordsiz →
        ctx'.table.kb.after.length ≤ 2 * recordsiz) →
      post none ctx')
    (read : ∀ kdr0 ctx',
      ctx.TableReads ctx' →
      kdr0.kdrTime = ctx.lastTime →
      (ctx.table.kb.after.length ≤ 2 * recordsiz →
        ctx'.table.kb.after.length ≤ recordsiz) →
      post (some kdr0) ctx') :
    wp recordReadLast post halt ctx := by
  have room : recordsiz ≤ kcndbFileBufsiz := by decide
  have held := sound.rested.held
  have tablesize := sound.tablesize
  have bounded := sound.bounded
  refine wp_recordReadLast starved sound.rested.atStart
    (by rw [sound.rested.size_eq]; exact room) ?_
  intro result ctx' outcome
  cases outcome with
  | empty small same =>
      rw [same]
      refine read _ ctx ⟨rfl, rfl, sound.rested, List.suffix_refl _⟩
        ?_ ?_
      · rw [lastTime, comparedTime, if_pos small]
      · intro _
        omega
  | refused event _ shape refusal same =>
      refine failed ctx' ⟨?_, ?_, ?_, ⟨[event], shape.symm⟩⟩ ?_ ?_
      · rw [same]
      · rw [same]
      · rw [same]
        exact sound.rested
      · rcases refusal with ⟨_, beyond⟩ | ⟨error, rfl⟩
        · omega
        · rw [shape]
          simp [Trace.Clean, Event.Fails]
      · rw [same]
        exact id
  | read env' _ large shape outcome =>
      cases result with
      | none =>
          obtain ⟨reads, unclean, few⟩ :=
            sound.lastRead_none large shape outcome
          exact failed ctx' reads unclean fun _ => by omega
      | some kdr0 =>
          obtain ⟨reads, timeEq, few⟩ :=
            sound.lastRead_read large shape outcome
          exact read kdr0 ctx' reads timeEq few

end KcndbDb

namespace TableCtx

variable {ctx ctx' : TableCtx}

/--
What the end of `kcndb_db_record_add` does: the record is stored, followed by
what the buffer had beyond it, or an error keeps it in the buffer.
-/
inductive Recorded (ctx : TableCtx) (kdr : KcndbDbRecord) :
    Bool → TableCtx → Prop where
  | stored (ctx' : TableCtx) :
      ctx'.base =
        { ctx.base with
          kdbTablesize :=
            ctx.base.kdbTablesize + KcndbDb.recordsiz } →
      ctx'.table.content =
        ctx.table.content ++ encodeRecord kdr ++
          ctx.table.kb.after.drop KcndbDb.recordsiz →
      ctx'.table.kb.Holds kcndbFileBufsiz 0 [] [] →
      Recorded ctx kdr true ctx'
  | kept (ctx' : TableCtx) :
      ¬ Trace.Clean ctx.env.trace →
      ctx'.base = ctx.base →
      ctx'.table.content = ctx.table.content →
      ctx'.table.kb.Holds kcndbFileBufsiz ctx.table.kb.sp
        (encodeRecord kdr)
        (ctx.table.kb.after.drop KcndbDb.recordsiz) →
      Recorded ctx kdr false ctx'
  | torn (ctx' : TableCtx) :
      ctx.env.trace.Torn →
      Recorded ctx kdr false ctx'

/-- What was written is what the buffer held. -/
theorem RecordAppended.recorded
    {kdr : KcndbDbRecord} {ok : Bool}
    (outcome : RecordAppended ctx kdr ctx' ok)
    (sizeEq : ctx.table.kb.size = kcndbFileBufsiz)
    (bounded : ctx.table.content.length ≤ offMax) :
    Recorded ctx kdr ok ctx' := by
  obtain ⟨_, baseEq, kb, holds, appended⟩ := outcome
  rw [sizeEq] at holds
  cases appended with
  | refused event shape refusal fileEq =>
      have unclean : ¬ Trace.Clean ctx.env.trace := by
        simp only at shape
        rcases refusal with ⟨_, beyond⟩ | ⟨error, rfl⟩
        · exact absurd bounded (Nat.not_le_of_lt beyond)
        · rw [shape]
          simp [Trace.Clean, Event.Fails]
      simp only at fileEq
      refine .kept ctx' unclean baseEq ?_ ?_
      · rw [fileEq]
      · rw [fileEq]
        exact holds
  | written _ env' taken count _ shape written =>
      simp only at shape
      have later : env'.trace = taken ++ ctx'.env.trace :=
        written.took.trace_eq
      cases ok with
      | true =>
          obtain ⟨_, countEq, drained⟩ := written.done rfl
          have contentEq := written.content_eq
          rw [countEq] at contentEq
          simp only at contentEq drained
          rw [← KcndbFile.length_data, List.take_length,
            holds.data_eq, writeAt_length] at contentEq
          refine .stored ctx' baseEq ?_ ?_
          · rw [contentEq, List.append_assoc]
          · rw [← holds.size_eq]
            exact drained
      | false =>
          obtain ⟨unclean, outcome⟩ := written.failed rfl
          rcases outcome with ⟨_, fileEq⟩ | moved
          · simp only at fileEq
            refine .kept ctx' ?_ baseEq ?_ ?_
            · rw [shape, later]
              intro clean
              exact unclean fun event member =>
                clean event (by simp [member])
            · rw [fileEq]
            · rw [fileEq]
              exact holds
          · refine .torn ctx'
              ⟨[.seek none], taken, ctx'.env.trace, ?_,
                written.took.kinds, moved, ?_⟩
            · rw [shape, later]
              rfl
            · simpa [Trace.Clean] using unclean

/-- What of the table `kcndb_db_loc_add` leaves alone. -/
def tablePart (ctx : TableCtx) : Nat × Nat × KcndbFile :=
  (ctx.tid, ctx.base.kdbTablesize, ctx.table)

end TableCtx

namespace KcndbDb

open TableCtx

theorem keeps_tablePart_locAdd (loc : List UInt8) :
    Keeps tablePart (locAdd loc) :=
  keeps_locAdd (fun _ _ => .zoom fun _ _ => rfl) (fun _ _ => rfl) loc

end KcndbDb

namespace TableCtx

/-- What `kcndb_db_record_add` does to the table while it has the lock. -/
inductive RecordAdded (ctx : TableCtx) (kdr : KcndbDbRecord) :
    Bool × KcndbDbRecord → TableCtx → Prop where
  | rejected (ctx' : TableCtx) :
      ctx.lastTime > kdr.kdrTime →
      ctx'.env.errno = Errno.erange →
      ctx'.base.kdbTablesize = ctx.base.kdbTablesize →
      ctx'.table.content = ctx.table.content →
      Rested ctx'.table.content ctx'.table.kb →
      RecordAdded ctx kdr (false, kdr) ctx'
  | failed (ctx' : TableCtx) :
      ¬ Trace.Clean ctx.env.trace ∨ ¬ ctx.lastTime > kdr.kdrTime →
      ctx'.base.kdbTablesize = ctx.base.kdbTablesize →
      ctx'.table.content = ctx.table.content →
      Rested ctx'.table.content ctx'.table.kb →
      RecordAdded ctx kdr (false, kdr) ctx'
  | kept (ctx' : TableCtx) (idx : UInt64) :
      ¬ Trace.Clean ctx.env.trace →
      ctx'.base.kdbTablesize = ctx.base.kdbTablesize →
      ctx'.table.content = ctx.table.content →
      ctx'.table.kb.size = kcndbFileBufsiz →
      ctx'.table.kb.before =
        encodeRecord { kdr with kdrLocidx := idx } →
      (ctx.table.kb.after.length ≤ 2 * KcndbDb.recordsiz →
        ctx'.table.kb.after = []) →
      RecordAdded ctx kdr (false, { kdr with kdrLocidx := idx }) ctx'
  | torn (ctx' : TableCtx) (idx : UInt64) :
      ctx.env.trace.Torn →
      RecordAdded ctx kdr (false, { kdr with kdrLocidx := idx }) ctx'
  | stored (ctx' : TableCtx) (idx : UInt64) (rest : List UInt8) :
      ¬ ctx.lastTime > kdr.kdrTime →
      (ctx.table.kb.after.length ≤ 2 * KcndbDb.recordsiz →
        rest = []) →
      ctx'.base.kdbTablesize =
        ctx.base.kdbTablesize + KcndbDb.recordsiz →
      ctx'.table.content =
        ctx.table.content ++
          encodeRecord { kdr with kdrLocidx := idx } ++ rest →
      ctx'.table.kb.Holds kcndbFileBufsiz 0 [] [] →
      RecordAdded ctx kdr (true, { kdr with kdrLocidx := idx }) ctx'

end TableCtx

namespace KcndbDb

open TableCtx

variable {ctx : TableCtx}

/-- `kcndb_db_record_add` on a sound table, while it has the lock. -/
theorem wp_recordAddLocked_sound
    (sound : ctx.TableSound) (kdr : KcndbDbRecord) :
    wp (recordAddLocked kdr) (RecordAdded ctx kdr) (fun _ => True)
      ctx := by
  refine wp_recordAddLocked ?_
  refine wp_recordReadLast_sound sound trivial ?_ ?_
  · intro ctx₁ reads unclean _
    have sizeEq :=
      congrArg (fun c => c.base.kdbTablesize) reads.frame
    exact .failed ctx₁ (Or.inl unclean) sizeEq reads.content_eq
      reads.rested
  · intro kdr0 ctx₁ reads timeEq few
    have sizeEq :=
      congrArg (fun c => c.base.kdbTablesize) reads.frame
    simp only [timeEq]
    refine ⟨?_, ?_⟩
    · intro late
      exact .rejected _ late rfl sizeEq reads.content_eq reads.rested
    · intro inTime
      have consumes :
          Consumes answers (fun _ => True) (locAdd kdr.kdrLoc) :=
        consumes_locAdd trivial trivial kdr.kdrLoc
      refine wp_imp
        (consumes.wp (keeps_tablePart_locAdd kdr.kdrLoc ctx₁)) ?_
      rintro found ctx₂ ⟨same, taken₂⟩
      simp only [tablePart, Prod.mk.injEq] at same
      obtain ⟨_, sizeEq₂, tableEq⟩ := same
      have rested₂ : Rested ctx₂.table.content ctx₂.table.kb := by
        rw [tableEq]
        exact reads.rested
      have contentEq₂ : ctx₂.table.content = ctx.table.content := by
        rw [tableEq]
        exact reads.content_eq
      cases found with
      | none =>
          exact .failed ctx₂ (Or.inr inTime) (sizeEq₂.trans sizeEq)
            contentEq₂ rested₂
      | some idx =>
          have suffix : ctx₂.env.trace <:+ ctx.env.trace :=
            taken₂.trans reads.answers
          have none :
              ctx.table.kb.after.length ≤ 2 * recordsiz →
                ctx₂.table.kb.after.drop recordsiz = [] := by
            intro atMost
            rw [tableEq]
            exact List.drop_eq_nil_of_le (few atMost)
          refine wp_recordAppend trivial rested₂.atStart
            (fun _ => trivial) ?_
          intro ok ctx₃ appended
          have recorded :=
            appended.recorded rested₂.size_eq
              (by rw [contentEq₂]; exact sound.bounded)
          cases recorded with
          | stored _ baseEq contentEq holds =>
              refine .stored ctx₃ idx
                (ctx₂.table.kb.after.drop recordsiz) inTime none
                ?_ ?_ holds
              · rw [baseEq]
                simp only
                rw [sizeEq₂, sizeEq]
              · rw [contentEq, contentEq₂]
          | kept _ unclean baseEq contentEq holds =>
              refine .kept ctx₃ idx
                (fun clean => unclean (clean.suffix suffix)) ?_
                (contentEq.trans contentEq₂) holds.size_eq
                holds.before_eq ?_
              · rw [baseEq, sizeEq₂, sizeEq]
              · intro atMost
                rw [holds.after_eq]
                exact none atMost
          | torn _ torn =>
              exact .torn ctx₃ idx (torn.of_suffix suffix)

/-- `kcndb_db_record_add` on a sound table. -/
theorem wp_recordAdd_sound
    (sound : ctx.TableSound) (kdr : KcndbDbRecord) :
    wp (recordAdd kdr) (RecordAdded ctx kdr) (fun _ => True) ctx := by
  refine wp_recordAdd trivial (fun _ => trivial) ?_ ?_
  · intro error env' shape
    refine .failed _ (Or.inl ?_) rfl rfl sound.rested
    rw [shape]
    simp [Trace.Clean, Event.Fails]
  · intro env' shape _
    have suffix : env'.trace <:+ ctx.env.trace :=
      ⟨[_], shape.symm⟩
    have locked : (ctx.writeLocked env').TableSound :=
      ⟨sound.rested, sound.tablesize, sound.bounded⟩
    refine wp_imp (wp_recordAddLocked_sound locked kdr) ?_
    intro result ctx₁ outcome
    cases outcome with
    | rejected _ late errnoEq sizeEq contentEq rested =>
        exact .rejected _ late errnoEq sizeEq contentEq rested
    | failed _ reason sizeEq contentEq rested =>
        refine .failed _ (reason.imp_left ?_) sizeEq contentEq rested
        exact fun unclean clean => unclean (clean.suffix suffix)
    | kept _ idx unclean sizeEq contentEq kbSize before none =>
        refine .kept _ idx ?_ sizeEq contentEq kbSize before none
        exact fun clean => unclean (clean.suffix suffix)
    | torn _ idx torn =>
        exact .torn _ idx (torn.of_suffix suffix)
    | stored _ idx rest inTime none sizeEq contentEq holds =>
        exact .stored _ idx rest inTime none sizeEq contentEq holds

end KcndbDb

namespace TableCtx

/-- What a search leaves behind. -/
structure Looked (ctx ctx' : TableCtx) : Prop where
  content_eq : ctx'.table.content = ctx.table.content
  locContent_eq : ctx'.loc.content = ctx.loc.content
  tablesize_eq : ctx'.base.kdbTablesize = ctx.base.kdbTablesize
  locsize_eq : ctx'.base.kdbLocsize = ctx.base.kdbLocsize
  buffer :
    ctx'.table.kb = ctx.table.kb ∨ ∃ rest, ctx'.Scanned rest

/-- The buffer that a search leaves is rested if it was before. -/
theorem Looked.rested
    {ctx ctx' : TableCtx} (looked : ctx.Looked ctx')
    (rested : Rested ctx.table.content ctx.table.kb) :
    Rested ctx'.table.content ctx'.table.kb := by
  rcases looked.buffer with same | ⟨rest, scanned⟩
  · rw [same, looked.content_eq]
    exact rested
  · have data := congrArg List.length scanned.data
    have within := scanned.suffix.length_le
    rw [List.length_append] at data
    exact ⟨scanned.size_eq, scanned.atStart, by omega⟩

end TableCtx

namespace KcndbDb

open TableCtx

variable {ctx : TableCtx}

/-- `kcndb_db_search` with buffers of the right sizes. -/
theorem wp_search_looks
    (locSize : ctx.loc.kb.size = kcndbFileBufsiz)
    (tableSize : ctx.table.kb.size = kcndbFileBufsiz)
    (ke : KcnEq) (maxnlocs : Nat) :
    wp (search ke maxnlocs) (fun _ ctx' => ctx.Looked ctx')
      (fun _ => True) ctx := by
  refine wp_search trivial (fun _ => trivial) ?_ ?_
  · intro error env' _
    exact ⟨rfl, rfl, rfl, rfl, Or.inl rfl⟩
  · intro env' _ _
    refine wp_searchLocked trivial (fun _ _ _ => trivial)
      (fun _ => trivial) locSize tableSize ?_
    intro ok ctx' outcome
    have scans :
        ∀ rest, (ctx.readLocked env').Visits ctx' →
          ctx'.Scanned rest →
          ctx.Looked ctx' ∧ ctx.Looked ctx'.unlocked := by
      intro rest visits scanned
      have baseEq := visits.base_eq
      refine ⟨⟨visits.content_eq, visits.locContent_eq, ?_, ?_,
        Or.inr ⟨rest, scanned⟩⟩, visits.content_eq,
        visits.locContent_eq, ?_, ?_,
        Or.inr ⟨rest, scanned.of_table_eq rfl⟩⟩
      · rw [baseEq]
        rfl
      · rw [baseEq]
        rfl
      · simp only [unlocked, baseEq]
        rfl
      · simp only [unlocked, baseEq]
        rfl
    cases outcome with
    | refused env₂ _ =>
        exact ⟨rfl, rfl, rfl, rfl, Or.inl rfl⟩
    | stopped _ rest _ visits scanned =>
        exact (scans rest visits scanned).2
    | nothing _ taken rest passes _ _ _ scanned =>
        exact (scans rest passes.visits scanned).2
    | delivered _ taken shown rest passes _ _ _ scanned =>
        exact (scans rest passes.visits scanned).1

end KcndbDb

end Kcn
