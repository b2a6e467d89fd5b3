import Kcn.Answered
import Kcn.Calls
import Kcn.Scan

namespace Kcn

open Program Bytes KcnBuf

/-!
# What a search finds

With favourable answers `kcndb_db_search` returns, and on a well-formed table
it hands over the first records that the equation asks for.
-/

/-- The answer neither fails nor cuts a read short nor refuses a record. -/
def Event.Favours (event : Event) : Prop :=
  ¬ event.Fails ∧ event.ReadsFull ∧ event ≠ .callback false

/-- All answers are favourable. -/
def Trace.Favourable (trace : Trace) : Prop :=
  ∀ event ∈ trace, event.Favours

namespace Trace.Favourable

variable {trace : Trace}

theorem clean (favourable : Trace.Favourable trace) :
    Trace.Clean trace :=
  fun event member => (favourable event member).1

theorem full (favourable : Trace.Favourable trace) :
    ∀ event ∈ trace, event.ReadsFull :=
  fun event member => (favourable event member).2.1

theorem willing (favourable : Trace.Favourable trace) :
    Trace.Willing trace :=
  fun event member => (favourable event member).2.2

end Trace.Favourable

namespace Env

/-- The answers as a part of the environment. -/
def traceLens : Lens Env Trace where
  get env := env.trace
  set env trace := { env with trace := trace }

variable {env : Env}

theorem feasible_next
    {post : Event → Env → Prop} (event : Event)
    (favours : event.Favours) (holds : post event env) :
    Feasible traceLens Event.Favours next post env :=
  ⟨[event], event, env, by simpa using favours, holds, fun _ => rfl⟩

end Env

namespace FileCtx

/-- The answers as a part of the state of a file. -/
def traceLens : Lens FileCtx Trace where
  get ctx := ctx.env.trace
  set ctx trace := { ctx with env := { ctx.env with trace := trace } }

variable {α : Type} {ctx : FileCtx} {post : α → FileCtx → Prop}

theorem feasible_sys
    {op : Program Stop Env α}
    (feasible :
      Feasible Env.traceLens Event.Favours op
        (fun value env => post value { ctx with env := env }) ctx.env) :
    Feasible traceLens Event.Favours (sys op) post ctx :=
  .zoom (fun _ => rfl) (fun _ _ _ => rfl) feasible

theorem feasible_buf
    {op : BufOp α}
    (established :
      wp op
        (fun value kb =>
          post value { ctx with file := { ctx.file with kb := kb } })
        (fun _ => False) ctx.file.kb) :
    Feasible traceLens Event.Favours (buf op) post ctx :=
  .zoom_apart (fun _ => rfl) (fun _ _ => rfl) established

end FileCtx

namespace KcndbFile

open FileCtx

variable {ctx : FileCtx}

theorem feasible_sysSeek
    {post : Bool → FileCtx → Prop} {off : Nat}
    (fits : off ≤ offMax)
    (holds : post true { ctx with file := { ctx.file with off := off } }) :
    Feasible traceLens Event.Favours (sysSeek off) post ctx := by
  refine .bind (feasible_sys (Env.feasible_next (.seek none)
    ⟨by simp [Event.Fails], trivial, nofun⟩ ?_))
  simp only [fits, ↓reduceIte]
  exact .bind (.modify (fun _ => rfl) (.pure holds))

theorem feasible_sysRead
    {post : Except Errno (List UInt8) → FileCtx → Prop} {space : Nat}
    (holds :
      ∀ data ctx', ctx'.file.kb = ctx.file.kb → data.length ≤ space →
        post (.ok data) ctx') :
    Feasible traceLens Event.Favours (sysRead space) post ctx := by
  let data :=
    slice ctx.file.content ctx.file.off
      (min space (ctx.file.content.length - ctx.file.off))
  refine ⟨[.read .full], .ok data,
    { ctx with file := {
        ctx.file with off := ctx.file.off + data.length } },
    ?_, holds data _ rfl ?_, fun _ => rfl⟩
  · simp [Event.Favours, Event.Fails, Event.ReadsFull]
  · rw [length_slice]
    omega

/-- `kcn_buf_read` returns if the buffer is not full. -/
theorem feasible_bufRead
    (room : ctx.file.kb.len < ctx.file.kb.size) :
    Feasible traceLens Event.Favours bufRead (fun _ _ => True) ctx := by
  refine .bind (feasible_buf (wp_prepareRead (fun full => by omega) ?_))
  intro kb holds _ space
  refine .bind (.gets (fun _ => rfl) (.bind (feasible_sysRead ?_)))
  intro data ctx' kbEq fits
  cases data with
  | nil =>
      exact .pure trivial
  | cons byte bytes =>
      refine .bind (feasible_buf ?_)
      rw [kbEq]
      refine wp_fill (holds_self kb) ?_ fun _ _ _ => .pure trivial
      have epEq := (holds_self kb).ep_eq
      have bound := kb.ep_le_size
      simp only [trailingspace] at fits
      omega

/-- Without an answer nothing is read. -/
theorem bufRead_starves (ctx : FileCtx) :
    wp bufRead (fun _ _ => False) (fun _ => True)
      (traceLens.set ctx []) := by
  unfold bufRead
  rw [wp_bind, buf, wp_zoom]
  refine wp_prepareRead (fun _ => trivial) ?_
  intro kb _ _ _
  rw [wp_bind, wp_gets, wp_bind]
  exact trivial

/-- The loop of `kcndb_file_ensure` ends where enough is in the buffer. -/
theorem ensureLoop_enough
    {len : Nat} (enough : len ≤ ctx.file.kb.len) (rounds : Nat) :
    ensureLoop len (rounds + 1) ctx = .ok (true, ctx) := by
  have ends : ¬ ctx.file.kb.len < len := Nat.not_lt_of_le enough
  unfold ensureLoop
  change (if ctx.file.kb.len < len then _ else pure true : FileOp Bool)
    ctx = _
  rw [if_neg ends]
  rfl

/-- Otherwise it reads, and goes on if that read moved something. -/
theorem ensureLoop_missing
    {len : Nat} {error : Errno} {ctx' : FileCtx}
    (missing : ctx.file.kb.len < len)
    (returns : bufRead ctx = .ok (error, ctx')) (rounds : Nat) :
    ensureLoop len (rounds + 1) ctx =
      if error = 0 then
        ensureLoop len rounds ctx'
      else
        .ok (false,
          { ctx' with env := { ctx'.env with errno := error } }) := by
  conv_lhs => unfold ensureLoop
  change (if ctx.file.kb.len < len then
      bufRead >>= fun error =>
        if error = 0 then
          ensureLoop len rounds
        else do
          sys (Env.setErrno error)
          pure false
    else pure true : FileOp Bool) ctx = _
  rw [if_pos missing, bind_of_ok returns]
  split
  · rfl
  · rfl

/-- The loop of `kcndb_file_ensure` needs a round more than it reads. -/
theorem feasible_ensureLoop
    {len missing : Nat}
    (bound : len ≤ ctx.file.kb.len + missing)
    (room : len ≤ ctx.file.kb.size) :
    ∃ taken ok ctx', Trace.Favourable taken ∧
      ∀ rounds later, taken.length < rounds →
        ensureLoop len rounds (traceLens.set ctx (taken ++ later)) =
          .ok (ok, traceLens.set ctx' later) := by
  induction missing generalizing ctx with
  | zero =>
      refine ⟨[], true, ctx, by simp [Trace.Favourable], ?_⟩
      intro rounds later more
      obtain ⟨rounds, rfl⟩ := Nat.exists_eq_succ_of_ne_zero more.ne'
      have enough :
          len ≤ (FileCtx.traceLens.set ctx later).file.kb.len := bound
      exact ensureLoop_enough enough rounds
  | succ missing inductionHypothesis =>
      by_cases enough : len ≤ ctx.file.kb.len
      · exact inductionHypothesis (by omega) room
      · have short : ctx.file.kb.len < len := by omega
        have space : ctx.file.kb.len < ctx.file.kb.size := by omega
        obtain ⟨first, error, ctx₁, favours, _, runs⟩ :=
          feasible_bufRead space
        have alone := runs []
        rw [List.append_nil] at alone
        have some : 0 < first.length := by
          refine List.length_pos_iff.mpr ?_
          rintro rfl
          exact wp_ok (bufRead_starves ctx) alone
        have step :
            ∀ rounds later,
              ensureLoop len (rounds + 1)
                  (traceLens.set ctx (first ++ later)) =
                if error = 0 then
                  ensureLoop len rounds (traceLens.set ctx₁ later)
                else
                  .ok (false, traceLens.set
                    { ctx₁ with env := { ctx₁.env with errno := error } }
                    later) := by
          intro rounds later
          exact ensureLoop_missing (by exact short) (runs later) rounds
        by_cases moved : error = 0
        · have more :
              wp bufRead
                (fun error ctx' => error = 0 →
                  ctx.file.kb.len < ctx'.file.kb.len ∧
                    ctx'.file.kb.size = ctx.file.kb.size)
                (fun _ => True) (traceLens.set ctx first) := by
            refine wp_bufRead trivial (fun _ => trivial) ?_
            intro error ctx' outcome _ moved
            cases outcome with
            | failed _ error _ _ _ =>
                exact absurd moved error.errno_ne_zero
            | ended _ _ _ _ =>
                exact absurd moved (by decide)
            | got _ new grown _ nonempty _ =>
                have lenEq := grown.len_eq
                have positive := List.length_pos_iff.mpr nonempty
                refine ⟨?_, grown.size_eq⟩
                simp only [traceLens] at lenEq
                omega
          obtain ⟨longer, sizeEq⟩ := wp_ok more alone moved
          have longer' : ctx.file.kb.len < ctx₁.file.kb.len := longer
          have sizeEq' : ctx₁.file.kb.size = ctx.file.kb.size := sizeEq
          have bound' : len ≤ ctx₁.file.kb.len + missing := by omega
          obtain ⟨taken, ok, ctx₂, favours₂, runs₂⟩ :=
            inductionHypothesis bound' (by omega)
          refine ⟨first ++ taken, ok, ctx₂, ?_, ?_⟩
          · intro event member
            exact (List.mem_append.mp member).elim (favours event)
              (favours₂ event)
          · intro rounds later enough
            rw [List.length_append] at enough
            obtain ⟨rounds, rfl⟩ :=
              Nat.exists_eq_succ_of_ne_zero (Nat.ne_zero_of_lt enough)
            rw [List.append_assoc, step, if_pos moved]
            exact runs₂ rounds later (by omega)
        · refine ⟨first, false,
            { ctx₁ with env := { ctx₁.env with errno := error } },
            favours, ?_⟩
          intro rounds later enough
          obtain ⟨rounds, rfl⟩ :=
            Nat.exists_eq_succ_of_ne_zero (Nat.ne_zero_of_lt enough)
          rw [step, if_neg moved]

/-- `kcndb_file_ensure` returns if the block has room for so much. -/
theorem feasible_ensure
    {len : Nat} (room : len ≤ ctx.file.kb.size) :
    Feasible traceLens Event.Favours (ensure len) (fun _ _ => True) ctx := by
  obtain ⟨taken, ok, ctx', favours, runs⟩ :=
    feasible_ensureLoop (Nat.le_add_left len ctx.file.kb.len) room
  refine ⟨taken, ok, ctx', favours, trivial, fun later => ?_⟩
  refine runs ((taken ++ later).length + 1) later ?_
  rw [List.length_append]
  omega

end KcndbFile

namespace TableCtx

/-- The answers as a part of the state of a table. -/
def traceLens : Lens TableCtx Trace where
  get ctx := ctx.env.trace
  set ctx trace := { ctx with env := { ctx.env with trace := trace } }

variable {α : Type} {ctx : TableCtx} {post : α → TableCtx → Prop}

theorem feasible_sys
    {op : Program Stop Env α}
    (feasible :
      Feasible Env.traceLens Event.Favours op
        (fun value env => post value { ctx with env := env }) ctx.env) :
    Feasible traceLens Event.Favours (sys op) post ctx :=
  .zoom (fun _ => rfl) (fun _ _ _ => rfl) feasible

theorem feasible_onLoc
    {op : FileCtx.FileOp α}
    (feasible :
      Feasible FileCtx.traceLens Event.Favours op
        (fun value part => post value (locLens.set ctx part))
        (locLens.get ctx)) :
    Feasible traceLens Event.Favours (onLoc op) post ctx :=
  .zoom (fun _ => rfl) (fun _ _ _ => rfl) feasible

theorem feasible_onTable
    {op : FileCtx.FileOp α}
    (feasible :
      Feasible FileCtx.traceLens Event.Favours op
        (fun value part => post value (tableLens.set ctx part))
        (tableLens.get ctx)) :
    Feasible traceLens Event.Favours (onTable op) post ctx :=
  .zoom (fun _ => rfl) (fun _ _ _ => rfl) feasible.mapStop

/-- A search changes the same whatever answers are left. -/
theorem Visits.of_set
    {ctx' : TableCtx} {before after : Trace}
    (visits :
      (traceLens.set ctx before).Visits (traceLens.set ctx' after)) :
    ctx.Visits ctx' :=
  ⟨visits.tid_eq, visits.base_eq, visits.content_eq,
    visits.locContent_eq, visits.locSize_eq⟩

end TableCtx

namespace KcndbDb

open TableCtx FileCtx KcndbFile

variable {ctx : TableCtx}

theorem feasible_get64
    {post : UInt64 → TableCtx → Prop}
    {size sp : Nat} {before after : List UInt8}
    (holds : ctx.table.kb.Holds size sp before after)
    (enough : 8 ≤ after.length)
    (next : ∀ value ctx',
      ctx'.table.kb.Holds size sp (before ++ after.take 8)
        (after.drop 8) →
      post value ctx') :
    Feasible TableCtx.traceLens Event.Favours
      (onTable (buf KcnBuf.get64)) post ctx := by
  refine feasible_onTable (feasible_buf ?_)
  rw [get64, wp_bind]
  refine wp_fetch holds ?_ (by omega)
  intro _ kb holds'
  exact next _ _ holds'

/-- `kcndb_file_ensure` returns, with enough data where it says so. -/
theorem feasible_ensureRecord
    (atStart : ctx.table.kb.before = [])
    (room : recordsiz ≤ ctx.table.kb.size) :
    Feasible FileCtx.traceLens Event.Favours (ensure recordsiz)
      (fun ok part =>
        ok = true → recordsiz ≤ part.file.kb.after.length)
      (tableLens.get ctx) := by
  have ensured : ∀ taken : Trace, (∀ event ∈ taken, event.Favours) →
      wp (ensure recordsiz)
        (fun ok between => ∀ part,
          between = FileCtx.traceLens.set part [] →
          ok = true → recordsiz ≤ part.file.kb.after.length)
        (fun _ => True)
        (FileCtx.traceLens.set (tableLens.get ctx) taken) := by
    intro taken _
    refine wp_ensure trivial (fun _ => trivial) ?_
    rintro ok between read new ensured part rfl succeeded
    obtain ⟨_, enough⟩ := ensured.enough succeeded
    have lenEq := (holds_self part.file.kb).len_eq
    have beforeEq := ensured.grown.before_eq.trans atStart
    simp only [FileCtx.traceLens] at enough beforeEq
    rw [lenEq, beforeEq] at enough
    simpa using enough
  exact ((feasible_ensure room).also ensured).imp fun _ _ both => both.2

/-- `kcndb_db_record_read` returns. -/
theorem feasible_recordRead
    (atStart : ctx.table.kb.before = [])
    (room : recordsiz ≤ ctx.table.kb.size) :
    Feasible TableCtx.traceLens Event.Favours recordRead (fun _ _ => True)
      ctx := by
  refine .bind (feasible_onTable
    ((feasible_ensureRecord atStart room).imp ?_))
  intro ok part enough
  cases ok with
  | false =>
      exact .pure trivial
  | true =>
      have enough : 24 ≤ part.file.kb.after.length := enough rfl
      have first : 8 ≤ part.file.kb.after.length := by omega
      refine .bind (feasible_get64 (holds_self part.file.kb) first ?_)
      intro time ctx₁ holds₁
      have second : 8 ≤ (part.file.kb.after.drop 8).length := by
        rw [List.length_drop]
        omega
      refine .bind (feasible_get64 holds₁ second ?_)
      intro val ctx₂ holds₂
      have third : 8 ≤ ((part.file.kb.after.drop 8).drop 8).length := by
        rw [List.length_drop, List.length_drop]
        omega
      refine .bind (feasible_get64 holds₂ third ?_)
      intro locidx ctx₃ holds₃
      refine .bind (.gets (fun _ => rfl) (.bind (feasible_onTable
        (feasible_buf ?_))))
      have heading :
          ctx₃.table.kb.headingdata = _ := holds₃.headingdata_eq
      rw [heading]
      refine wp_trimHead_headingdata holds₃ ?_
      intro kb _
      exact .pure trivial

/-- `kcndb_file_ensure` on an empty window of the locator file. -/
theorem feasible_ensureHeader
    {file : FileCtx} {base : Nat}
    (window : file.file.Window base [] []) :
    Feasible FileCtx.traceLens Event.Favours (ensure 2)
      (fun ok part => ok = true → ∃ new,
        part.file.content = file.file.content ∧
          part.file.Window base [] new ∧ 2 ≤ new.length)
      file := by
  have ensured : ∀ taken : Trace, (∀ event ∈ taken, event.Favours) →
      wp (ensure 2)
        (fun ok between => ∀ part,
          between = FileCtx.traceLens.set part [] →
          ok = true → ∃ new,
            part.file.content = file.file.content ∧
              part.file.Window base [] new ∧ 2 ≤ new.length)
        (fun _ => True) (FileCtx.traceLens.set file taken) := by
    intro taken _
    refine wp_ensure_window (by exact window) trivial (fun _ => trivial)
      ?_ ?_ ?_
    · rintro between read new _ _ contentEq window' enough _ part rfl _
      rw [List.nil_append] at window' enough
      rw [List.length_nil, Nat.zero_add] at enough
      exact ⟨new, contentEq, window', enough⟩
    · intro _ _ _ _ _ _ _ _ none
      cases none
    · intro _ _ _ _ _ _ _ none
      cases none
  have room : 2 ≤ file.file.kb.size := by
    rw [window.holds.size_eq]
    decide
  exact ((feasible_ensure room).also ensured).imp fun _ _ both => both.2

/-- `kcndb_db_loc_lookup` returns. -/
theorem feasible_locLookup
    {idx : UInt64}
    (sizeEq : ctx.loc.kb.size = kcndbFileBufsiz)
    (fits : idx.toNat ≤ offMax)
    (room : lenAt ctx.loc.content idx.toNat ≤ kcndbFileBufsiz) :
    Feasible TableCtx.traceLens Event.Favours (locLookup idx)
      (fun _ _ => True) ctx := by
  refine .bind (.gets (fun _ => rfl) ?_)
  split
  · exact .bind (feasible_sys (.modify (fun _ => rfl) (.pure trivial)))
  · refine .bind (feasible_onLoc (feasible_buf
      (wp_reset (holds_self _) (Nat.zero_le _) ?_)))
    intro kb empty
    simp only [locLens] at empty
    rw [sizeEq] at empty
    refine .bind (feasible_onLoc (feasible_sysSeek fits ?_))
    have window :
        ({ content := ctx.loc.content, off := idx.toNat,
           kb := kb } : KcndbFile).Window idx.toNat [] [] :=
      ⟨empty, by simp, by simp⟩
    rw [if_pos rfl]
    refine .bind (feasible_onLoc ((feasible_ensureHeader window).imp ?_))
    intro ok part enough
    cases ok with
    | false =>
        exact .pure trivial
    | true =>
        obtain ⟨new, contentEq, window₁, two⟩ := enough rfl
        refine .bind (feasible_onLoc (feasible_buf
          (wp_window_get16 window₁ ?_ (by omega))))
        intro _ kb₂ window₂
        have small :
            (word16 (slice part.file.content
                (idx.toNat + ([] : List UInt8).length) 2)).toNat ≤
              kb₂.size := by
          rw [contentEq, window₂.holds.size_eq]
          exact room
        refine .bind (feasible_onLoc ((feasible_ensure small).imp ?_))
        intro ok part' _
        cases ok with
        | false =>
            exact .pure trivial
        | true =>
            exact .bind (.gets (fun _ => rfl) (.pure trivial))

/-- The callback accepts. -/
theorem feasible_deliver (kdr : KcndbDbRecord) :
    Feasible TableCtx.traceLens Event.Favours (deliver kdr)
      (fun _ _ => True) ctx := by
  refine .bind (.modify (fun _ => rfl) (.bind (feasible_sys
    (Env.feasible_next (.callback true) ⟨?_, trivial, nofun⟩
      (.pure trivial)))))
  simp [Event.Fails]

/-- The body of the loop returns. -/
theorem feasible_visit
    {ke : KcnEq} {kdr : KcndbDbRecord}
    (known : ke.Known)
    (sizeEq : ctx.loc.kb.size = kcndbFileBufsiz)
    (fits : kdr.kdrLocidx.toNat ≤ offMax)
    (room : lenAt ctx.loc.content kdr.kdrLocidx.toNat ≤
      kcndbFileBufsiz) :
    Feasible TableCtx.traceLens Event.Favours (visit ke kdr)
      (fun _ _ => True) ctx := by
  unfold visit
  split
  · rw [operatorSkips_known known]
    refine .bind (.pure ?_)
    split
    · exact .pure trivial
    · refine .bind ((feasible_locLookup sizeEq fits room).imp ?_)
      intro result ctx₁ _
      cases result with
      | none =>
          exact .pure trivial
      | some loc =>
          refine .bind ((feasible_deliver _).imp ?_)
          intro accepted ctx₂ _
          cases accepted with
          | true =>
              exact .pure trivial
          | false =>
              exact .pure trivial
  · exact .pure trivial

/-- A record that was read is the first one of the rest. -/
theorem feasible_readScanned
    {rest : List UInt8} (scanned : ctx.Scanned rest) :
    Feasible TableCtx.traceLens Event.Favours recordRead
      (fun result ctx' => ∀ kdr, result = some kdr →
        recordsiz ≤ rest.length ∧ kdr = decodeRecord rest ∧
          ctx'.Scanned (rest.drop recordsiz) ∧ ctx.Visits ctx')
      ctx := by
  have block : recordsiz ≤ ctx.table.kb.size := by
    rw [scanned.size_eq]
    decide
  have read : ∀ taken : Trace, (∀ event ∈ taken, event.Favours) →
      wp recordRead
        (fun result between => ∀ ctx',
          between = TableCtx.traceLens.set ctx' [] →
          ∀ kdr, result = some kdr →
            recordsiz ≤ rest.length ∧ kdr = decodeRecord rest ∧
              ctx'.Scanned (rest.drop recordsiz) ∧ ctx.Visits ctx')
        (fun _ => True) (TableCtx.traceLens.set ctx taken) := by
    intro taken _
    refine wp_recordRead trivial scanned.atStart block ?_
    rintro result between outcome ctx' rfl kdr rfl
    have scanned' :
        TableCtx.Scanned (TableCtx.traceLens.set ctx taken) rest :=
      scanned.of_table_eq rfl
    obtain ⟨enough, kdrEq, later, _, _, passes⟩ := scanned'.read outcome
    exact ⟨enough, kdrEq, later.of_table_eq rfl,
      passes.visits.of_set⟩
  exact ((feasible_recordRead scanned.atStart block).also read).imp
    fun _ _ both => both.2

/-- The body of the loop leaves the scan alone. -/
theorem feasible_visitScanned
    {ke : KcnEq} {kdr : KcndbDbRecord}
    (known : ke.Known)
    (sizeEq : ctx.loc.kb.size = kcndbFileBufsiz)
    (fits : kdr.kdrLocidx.toNat ≤ offMax)
    (room : lenAt ctx.loc.content kdr.kdrLocidx.toNat ≤
      kcndbFileBufsiz) :
    Feasible TableCtx.traceLens Event.Favours (visit ke kdr)
      (fun _ ctx' => ctx'.table = ctx.table ∧ ctx.Visits ctx') ctx := by
  have visited : ∀ taken : Trace, (∀ event ∈ taken, event.Favours) →
      wp (visit ke kdr)
        (fun _ between => ∀ ctx',
          between = TableCtx.traceLens.set ctx' [] →
          ctx'.table = ctx.table ∧ ctx.Visits ctx')
        (fun _ => True) (TableCtx.traceLens.set ctx taken) := by
    intro taken _
    refine wp_visit trivial (fun _ _ => trivial) (fun _ => trivial)
      sizeEq ?_ ?_ ?_
    · intro _ ctx' same
      have tableEq := congrArg TableCtx.table same
      have visits :
          (TableCtx.traceLens.set ctx taken).Visits
            (TableCtx.traceLens.set ctx' []) := by
        rw [← same]
        exact Visits.refl _
      exact ⟨tableEq.symm, visits.of_set⟩
    · rintro _ between _ _ passes _ tableEq _ ctx' rfl
      exact ⟨tableEq, passes.visits.of_set⟩
    · rintro _ between _ visits tableEq ctx' rfl
      exact ⟨tableEq, visits.of_set⟩
  exact ((feasible_visit known sizeEq fits room).also visited).imp
    fun _ _ both => both.2

/-- The loop of `kcndb_db_search` returns. -/
theorem feasible_searchLoop
    {ke : KcnEq} {maxnlocs n rounds : Nat} {rest : List UInt8}
    (known : ke.Known)
    (sizeEq : ctx.loc.kb.size = kcndbFileBufsiz)
    (scanned : ctx.Scanned rest)
    (more : rest.length < rounds)
    (sound : ∀ kdr ∈ records rest,
      kdr.kdrLocidx.toNat ≤ offMax ∧
        lenAt ctx.loc.content kdr.kdrLocidx.toNat ≤ kcndbFileBufsiz) :
    Feasible TableCtx.traceLens Event.Favours
      (searchLoop ke maxnlocs rounds n) (fun _ _ => True) ctx := by
  induction rounds generalizing ctx rest n with
  | zero =>
      exact absurd more (Nat.not_lt_zero _)
  | succ rounds inductionHypothesis =>
      unfold searchLoop
      split
      · refine .bind ((feasible_readScanned scanned).imp ?_)
        intro result ctx₁ read
        cases result with
        | none =>
            refine .bind (.gets (fun _ => rfl) ?_)
            split
            · exact .pure trivial
            · exact .pure trivial
        | some kdr =>
            obtain ⟨enough, kdrEq, scanned₁, visits₁⟩ := read kdr rfl
            rw [records_cons enough, ← kdrEq] at sound
            obtain ⟨fits, room⟩ := sound kdr List.mem_cons_self
            rw [← visits₁.locContent_eq] at room sound
            have sizeEq₁ := visits₁.locSize_eq.trans sizeEq
            refine .bind ((feasible_visitScanned known sizeEq₁ fits
              room).imp ?_)
            rintro end_ ctx₂ ⟨tableEq, visits₂⟩
            have again : ∀ n,
                Feasible TableCtx.traceLens Event.Favours
                  (searchLoop ke maxnlocs rounds n) (fun _ _ => True)
                  ctx₂ := by
              intro n
              refine inductionHypothesis
                (visits₂.locSize_eq.trans sizeEq₁)
                (scanned₁.of_table_eq tableEq) ?_ ?_
              · rw [List.length_drop]
                unfold recordsiz at enough ⊢
                omega
              · rw [visits₂.locContent_eq]
                exact fun other member =>
                  sound other (List.mem_cons_of_mem _ member)
            cases end_ with
            | skipped =>
                exact again n
            | delivered =>
                exact again (n + 1)
            | failed =>
                exact .pure trivial
      · exact .pure trivial

/-- The part of `kcndb_db_search` after the lock was taken returns. -/
theorem feasible_searchLocked
    {ke : KcnEq} {maxnlocs : Nat}
    (known : ke.Known)
    (locSize : ctx.loc.kb.size = kcndbFileBufsiz)
    (tableSize : ctx.table.kb.size = kcndbFileBufsiz)
    (sound : ∀ kdr ∈ records ctx.table.content,
      kdr.kdrLocidx.toNat ≤ offMax ∧
        lenAt ctx.loc.content kdr.kdrLocidx.toNat ≤ kcndbFileBufsiz) :
    Feasible TableCtx.traceLens Event.Favours (searchLocked ke maxnlocs)
      (fun _ _ => True) ctx := by
  refine .bind (feasible_onTable (feasible_sysSeek (Nat.zero_le _) ?_))
  rw [if_pos rfl]
  refine .bind (feasible_onTable (feasible_buf
    (wp_reset (holds_self _) (Nat.zero_le _) ?_)))
  intro kb empty
  refine .bind (.gets (fun _ => rfl) ?_)
  have scanned :
      TableCtx.Scanned
        { ctx with
          table := { content := ctx.table.content, off := 0, kb := kb } }
        ctx.table.content := by
    have sizeEq := empty.size_eq.trans tableSize
    refine ⟨sizeEq, empty.before_eq, ?_, List.suffix_refl _, ?_⟩
    · rw [empty.after_eq]
      rfl
    · rw [empty.sp_eq, Nat.zero_add]
  have looped :
      Feasible TableCtx.traceLens Event.Favours
        (searchLoop ke maxnlocs (ctx.table.content.length + 1) 0)
        (fun _ _ => True)
        { ctx with
          table := { content := ctx.table.content, off := 0, kb := kb } }
      := by
    refine feasible_searchLoop known ?_ scanned (Nat.lt_succ_self _) ?_
    · exact locSize
    · exact sound
  refine .bind (looped.imp ?_)
  intro result ctx₁ _
  cases result with
  | none =>
      exact .pure trivial
  | some n =>
      change Feasible _ _ (if n = 0 then _ else _) _ _
      split
      · exact .bind (feasible_sys (.modify (fun _ => rfl) (.pure trivial)))
      · exact .pure trivial

/-- `kcndb_db_search` returns. -/
theorem feasible_search
    {ke : KcnEq} {maxnlocs : Nat}
    (known : ke.Known)
    (unlocked : ctx.base.kdbLock.writer = none)
    (locSize : ctx.loc.kb.size = kcndbFileBufsiz)
    (tableSize : ctx.table.kb.size = kcndbFileBufsiz)
    (sound : ∀ kdr ∈ records ctx.table.content,
      kdr.kdrLocidx.toNat ≤ offMax ∧
        lenAt ctx.loc.content kdr.kdrLocidx.toNat ≤ kcndbFileBufsiz) :
    Feasible TableCtx.traceLens Event.Favours (search ke maxnlocs)
      (fun _ _ => True) ctx := by
  have locked :
      Feasible TableCtx.traceLens Event.Favours rdlock
        (fun ok ctx' =>
          ok = true ∧ ctx'.loc = ctx.loc ∧ ctx'.table = ctx.table)
        ctx := by
    refine .bind (feasible_sys (Env.feasible_next (.lock none)
      ⟨by simp [Event.Fails], trivial, nofun⟩ ?_))
    refine .bind (.gets (fun _ => rfl) ?_)
    rw [if_pos (by exact unlocked)]
    refine .bind (.gets (fun _ => rfl) (.bind (.modify (fun _ => rfl) ?_)))
    exact .pure ⟨rfl, rfl, rfl⟩
  refine .bind (locked.imp ?_)
  rintro ok ctx₁ ⟨rfl, locEq, tableEq⟩
  rw [if_pos rfl]
  rw [← locEq] at locSize sound
  rw [← tableEq] at tableSize sound
  refine .bind ((feasible_searchLocked known locSize tableSize sound).imp ?_)
  intro ok ctx₂ _
  cases ok with
  | true =>
      exact .pure trivial
  | false =>
      exact .bind (.bind (.gets (fun _ => rfl)
        (.modify (fun _ => rfl) (.pure trivial))))

end KcndbDb

/-! ### The first matches -/

/-- What an operator says about a value and the value of the equation. -/
def KcnEqOperator.Holds (val bound : UInt64) : KcnEqOperator → Prop
  | .lt => val < bound
  | .le => val ≤ bound
  | .eq => val = bound
  | .gt => bound < val
  | .ge => bound ≤ val
  | .none => False

/-- The record is of the time and the value that the equation asks for. -/
structure KcnEq.Admits (ke : KcnEq) (kdr : KcndbDbRecord) : Prop where
  after : ke.keStart ≤ kdr.kdrTime
  before : ke.keEnd = kcnTimeNow ∨ kdr.kdrTime ≤ ke.keEnd
  value : ∃ op, KcnEqOperator.ofCode? ke.keOp = some op ∧
    op.Holds kdr.kdrVal ke.keVal

theorem kcnEqTimeMatch_iff (time : Int64) (ke : KcnEq) :
    kcnEqTimeMatch time ke = true ↔
      ke.keStart ≤ time ∧ (ke.keEnd = kcnTimeNow ∨ time ≤ ke.keEnd) := by
  unfold kcnEqTimeMatch
  split
  · rename_i late
    have : ¬ (ke.keEnd = kcnTimeNow ∨ time ≤ ke.keEnd) :=
      fun or => or.elim late.1 (Int64.not_le.mpr late.2)
    simp [this]
  · rename_i inTime
    have : ke.keEnd = kcnTimeNow ∨ time ≤ ke.keEnd := by
      by_cases open_ : ke.keEnd = kcnTimeNow
      · exact Or.inl open_
      · exact Or.inr (Int64.not_lt.mp fun late => inTime ⟨open_, late⟩)
    simp only [this, and_true]
    split
    · rename_i early
      simp [Int64.not_le.mpr early]
    · rename_i begun
      simp [Int64.not_lt.mp begun]

theorem operatorTakes_iff (ke : KcnEq) (val : UInt64) :
    operatorTakes ke val = true ↔
      ∃ op, KcnEqOperator.ofCode? ke.keOp = some op ∧
        op.Holds val ke.keVal := by
  unfold operatorTakes
  cases KcnEqOperator.ofCode? ke.keOp with
  | none =>
      simp
  | some op =>
      cases op <;> simp [KcnEqOperator.Holds]

/-- The code's test is the one that the equation stands for. -/
theorem recordFits_iff (ke : KcnEq) (kdr : KcndbDbRecord) :
    recordFits ke kdr = true ↔ ke.Admits kdr := by
  rw [recordFits, Bool.and_eq_true, kcnEqTimeMatch_iff,
    operatorTakes_iff]
  constructor
  · rintro ⟨⟨after, before⟩, value⟩
    exact ⟨after, before, value⟩
  · rintro ⟨after, before, value⟩
    exact ⟨⟨after, before⟩, value⟩

instance (ke : KcnEq) (kdr : KcndbDbRecord) :
    Decidable (ke.Admits kdr) :=
  decidable_of_iff _ (recordFits_iff ke kdr)

namespace TableCtx

/--
The table file has whole records whose indices are those of entries, and the
cached sizes are the lengths of the files.
-/
structure WellFormed (ctx : TableCtx) : Prop where
  whole : KcndbDb.recordsiz ∣ ctx.table.content.length
  entries : ∀ kdr ∈ records ctx.table.content,
    ∃ loc, Entry ctx.loc.content kdr.kdrLocidx.toNat loc
  locsize_eq : ctx.base.kdbLocsize = ctx.loc.content.length
  tablesize_eq : ctx.base.kdbTablesize = ctx.table.content.length
  bounded : ctx.loc.content.length ≤ offMax

/-- A record of the table file with its locator. -/
def located (ctx : TableCtx) (kdr : KcndbDbRecord) : KcndbDbRecord :=
  { kdr with kdrLoc := locAt ctx.loc.content kdr.kdrLocidx.toNat }

/-- The first records of the table file that the equation admits. -/
def wanted (ctx : TableCtx) (ke : KcnEq) (maxnlocs : Nat) :
    List KcndbDbRecord :=
  (((records ctx.table.content).filter fun kdr => ke.Admits kdr).take
    maxnlocs).map ctx.located

end TableCtx

namespace KcndbDb

open TableCtx

variable {ctx : TableCtx} {ke : KcnEq} {maxnlocs : Nat}

/-- What a search comes to is what the equation admits. -/
theorem hits_eq_filter (ke : KcnEq) (bytes : List UInt8) :
    hits ke bytes = (records bytes).filter fun kdr => ke.Admits kdr := by
  refine List.filter_congr fun kdr _ => ?_
  rw [Bool.eq_iff_iff, recordFits_iff, decide_eq_true_iff]

/-- Records that were shown with whole locators. -/
theorem shown_eq_located
    {taken : Trace} {kdrs shown : List KcndbDbRecord}
    (full : ∀ event ∈ taken, event.ReadsFull)
    (entries : ∀ kdr ∈ kdrs,
      ∃ loc, Entry ctx.loc.content kdr.kdrLocidx.toNat loc)
    (pairs : List.Forall₂ (ctx.Shown taken) kdrs shown) :
    shown = kdrs.map ctx.located := by
  induction pairs with
  | nil =>
      rfl
  | @cons kdr one kdrs shown first _ inductionHypothesis =>
      obtain ⟨loc, entry⟩ := entries kdr List.mem_cons_self
      have lenEq := entry.lenAt_eq
      have inside := entry.inside
      have short := entry.short
      have block : 2 + kcnMsgMaxlocsiz ≤ kcndbFileBufsiz := by decide
      have locEq := first.exact full (by omega)
      have same := first.same
      have oneEq : one = ctx.located kdr := by
        rw [located, ← locEq, ← same]
      rw [List.map_cons, oneEq]
      rw [inductionHypothesis fun other member =>
        entries other (List.mem_cons_of_mem _ member)]

/-- An entry of a table that is well formed can be looked up. -/
theorem resolves_of_entry
    {idx : UInt64} {loc : List UInt8} (wellFormed : ctx.WellFormed)
    (entry : Entry ctx.loc.content idx.toNat loc) :
    Resolves ctx.base.kdbLocsize ctx.loc.content idx := by
  have lenEq := entry.lenAt_eq
  have inside := entry.inside
  have bounded := wellFormed.bounded
  rw [Resolves, wellFormed.locsize_eq]
  omega

/-- With favourable answers a search that returns has found what is wanted. -/
theorem wp_search_wanted
    (wellFormed : ctx.WellFormed)
    (known : ke.Known)
    (granted : ctx.base.kdbLock.writer = none)
    (locSize : ctx.loc.kb.size = kcndbFileBufsiz)
    (tableSize : ctx.table.kb.size = kcndbFileBufsiz)
    (favourable : Trace.Favourable ctx.env.trace) :
    wp (search ke maxnlocs)
      (fun ok ctx' =>
        ctx'.delivered = ctx.delivered ++ ctx.wanted ke maxnlocs ∧
          (ok = true ↔ ctx.wanted ke maxnlocs ≠ []) ∧
          (ok = false → ctx'.env.errno = Errno.esrch))
      (· = .starved) ctx := by
  have entries : ∀ kdr ∈ (hits ke ctx.table.content).take maxnlocs,
      ∃ loc, Entry ctx.loc.content kdr.kdrLocidx.toNat loc :=
    fun kdr member => wellFormed.entries kdr
      (List.mem_of_mem_filter (List.mem_of_mem_take member))
  have wantedEq :
      ctx.wanted ke maxnlocs =
        ((hits ke ctx.table.content).take maxnlocs).map ctx.located := by
    rw [wanted, hits_eq_filter]
  refine wp_search rfl (fun held => absurd granted held) ?_ ?_
  · intro error env' shape
    have refused := favourable.clean (.lock (some error)) (by
      rw [shape]
      exact List.mem_cons_self)
    exact absurd (by simp [Event.Fails]) refused
  · intro env' shape _
    have favours : Trace.Favourable env'.trace := by
      intro event member
      refine favourable event ?_
      rw [shape]
      exact List.mem_cons_of_mem _ member
    refine wp_searchLocked rfl ?_ (fun unknown => absurd known unknown)
      locSize tableSize ?_
    · intro kdr member long
      obtain ⟨loc, entry⟩ :=
        wellFormed.entries kdr (List.mem_of_mem_filter member)
      have lenEq := entry.lenAt_eq
      have short := entry.short
      have block : kcnMsgMaxlocsiz ≤ kcndbFileBufsiz := by decide
      have long : kcndbFileBufsiz <
        lenAt ctx.loc.content kdr.kdrLocidx.toNat := long
      omega
    · intro ok ctx' outcome
      cases outcome with
      | refused env₂ unclean =>
          exact absurd favours.clean unclean
      | stopped _ rest reasons _ _ =>
          rcases reasons with unclean | unwilling | ⟨kdr, member, lost⟩
          · exact absurd favours.clean unclean
          · exact absurd favours.willing unwilling
          · obtain ⟨loc, entry⟩ := entries kdr member
            exact absurd (resolves_of_entry wellFormed entry) lost
      | nothing _ taken rest _ none deliveredEq errnoEq _ =>
          have none : (hits ke ctx.table.content).take maxnlocs = [] :=
            none
          rw [wantedEq, none]
          refine ⟨?_, by simp, fun _ => errnoEq⟩
          rw [List.map_nil, List.append_nil]
          exact deliveredEq
      | delivered _ taken shown rest passes pairs some deliveredEq _ =>
          have some : (hits ke ctx.table.content).take maxnlocs ≠ [] :=
            some
          have full : ∀ event ∈ taken, event.ReadsFull := by
            intro event member
            refine favours.full event ?_
            have traceEq : env'.trace = taken ++ ctx'.env.trace :=
              passes.trace_eq
            rw [traceEq]
            exact List.mem_append_left _ member
          have pairs : List.Forall₂ (ctx.Shown taken)
              ((hits ke ctx.table.content).take maxnlocs) shown :=
            pairs.imp fun _ _ one => ⟨one.same, one.resolves, one.exact⟩
          have shownEq := shown_eq_located full entries pairs
          rw [wantedEq]
          refine ⟨?_, by simpa using some, fun same => by cases same⟩
          rw [deliveredEq, shownEq]
          rfl

/-- There are favourable answers with which a search returns. -/
theorem search_returns
    {ctx : TableCtx} {ke : KcnEq} (wellFormed : ctx.WellFormed)
    (known : ke.Known) (granted : ctx.base.kdbLock.writer = none)
    (locSize : ctx.loc.kb.size = kcndbFileBufsiz)
    (tableSize : ctx.table.kb.size = kcndbFileBufsiz) (maxnlocs : Nat) :
    ∃ trace, Trace.Favourable trace ∧ ∃ ok ctx',
      search ke maxnlocs (TableCtx.traceLens.set ctx trace) =
        .ok (ok, TableCtx.traceLens.set ctx' []) := by
  have sound : ∀ kdr ∈ records ctx.table.content,
      kdr.kdrLocidx.toNat ≤ offMax ∧
        lenAt ctx.loc.content kdr.kdrLocidx.toNat ≤
          kcndbFileBufsiz := by
    intro kdr member
    obtain ⟨loc, entry⟩ := wellFormed.entries kdr member
    have lenEq := entry.lenAt_eq
    have short := entry.short
    have inside := entry.inside
    have bounded := wellFormed.bounded
    have block : kcnMsgMaxlocsiz ≤ kcndbFileBufsiz := by decide
    omega
  have feasible :
      Feasible TableCtx.traceLens Event.Favours (search ke maxnlocs)
        (fun _ _ => True) ctx :=
    feasible_search known granted locSize tableSize sound
  obtain ⟨taken, ok, ctx', favourable, _, runs⟩ := feasible
  have alone := runs []
  rw [List.append_nil] at alone
  exact ⟨taken, favourable, ok, ctx', alone⟩

/--
`kcndb_db_search` on a well-formed table hands over the first records that the
equation admits, with their locators, and returns.
-/
theorem search_finds_first
    (ctx : TableCtx) (ke : KcnEq) (maxnlocs : Nat)
    (wellFormed : ctx.WellFormed)
    (known : ke.Known)
    (granted : ctx.base.kdbLock.writer = none)
    (locSize : ctx.loc.kb.size = kcndbFileBufsiz)
    (tableSize : ctx.table.kb.size = kcndbFileBufsiz) :
    (∀ trace, Trace.Favourable trace →
      wp (search ke maxnlocs)
        (fun ok ctx' =>
          ctx'.delivered = ctx.delivered ++ ctx.wanted ke maxnlocs ∧
            (ok = true ↔ ctx.wanted ke maxnlocs ≠ []) ∧
            (ok = false → ctx'.env.errno = Errno.esrch))
        (· = .starved) (TableCtx.traceLens.set ctx trace)) ∧
      ∃ trace, Trace.Favourable trace ∧ ∃ ok ctx',
        search ke maxnlocs (TableCtx.traceLens.set ctx trace) =
          .ok (ok, ctx') := by
  refine ⟨?_, ?_⟩
  · intro trace favourable
    have same : (TableCtx.traceLens.set ctx trace).WellFormed :=
      ⟨wellFormed.whole, wellFormed.entries, wellFormed.locsize_eq,
        wellFormed.tablesize_eq, wellFormed.bounded⟩
    exact wp_search_wanted same known granted locSize tableSize favourable
  · obtain ⟨trace, favourable, ok, ctx', returns⟩ :=
      search_returns wellFormed known granted locSize tableSize maxnlocs
    exact ⟨trace, favourable, ok, _, returns⟩

/-- A table with one record, whose locator is the letter a. -/
def oneRecord : TableCtx where
  tid := 0
  base := {
    kdbLocsize := 11, kdbTablesize := 24, kdbLock := RwLock.initializer
  }
  loc := {
    content := encodeLoc [97] ++ List.replicate 8 0
    off := 0
    kb := KcnBuf.new Request.zeros.val
  }
  table := {
    content := encodeRecord {
      kdrTime := 5, kdrVal := 7, kdrLocidx := 0, kdrLoc := []
    }
    off := 0
    kb := KcnBuf.new Request.zeros.val
  }
  env := { errno := 0, trace := [] }
  delivered := []

/-- The record is found where its value is asked for. -/
theorem search_finds_first_one :
    let ke : KcnEq := {
      keType := 1, keOp := 3, keVal := 7, keStart := 0, keEnd := kcnTimeNow
    }
    (∀ trace, Trace.Favourable trace →
      wp (search ke 1)
        (fun ok ctx' =>
          ctx'.delivered = oneRecord.delivered ++ oneRecord.wanted ke 1 ∧
            (ok = true ↔ oneRecord.wanted ke 1 ≠ []) ∧
            (ok = false → ctx'.env.errno = Errno.esrch))
        (· = .starved) (TableCtx.traceLens.set oneRecord trace)) ∧
      ∃ trace, Trace.Favourable trace ∧ ∃ ok ctx',
        search ke 1 (TableCtx.traceLens.set oneRecord trace) =
          .ok (ok, ctx') := by
  have recordsEq :
      records oneRecord.table.content =
        [{ kdrTime := 5, kdrVal := 7, kdrLocidx := 0, kdrLoc := [] }] := by
    decide
  refine search_finds_first oneRecord _ 1 ⟨by decide, ?_, rfl, rfl,
    by decide⟩ ⟨by decide, by decide⟩ rfl List.length_replicate
    List.length_replicate
  intro kdr member
  rw [recordsEq, List.mem_singleton] at member
  subst member
  exact ⟨[97], by decide, by decide, by decide⟩

end KcndbDb

end Kcn
