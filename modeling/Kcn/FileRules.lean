import Kcn.File
import Mathlib.Data.List.TakeWhile

namespace Kcn

open Program Bytes

/-!
# The file operations on byte strings

One rule for each operation of `kcndb_file`, for every way in which the
environment may answer.  `Env.Took` says which answers an operation used.
-/

/-- The call asked for exactly the answers `taken`, all of one kind. -/
structure Env.Took
    (kind : Event → Prop)
    (env : Env) (taken : Trace) (env' : Env) : Prop where
  trace_eq : env.trace = taken ++ env'.trace
  kinds : ∀ event ∈ taken, kind event

/-- The bytes that one read moves when `limit` bytes are there to be moved. -/
def Event.moved (limit : Nat) : Event → Nat
  | .read transfer => transfer.amount limit
  | _ => 0

/-- The bytes that reads one after the other move of `limit` bytes. -/
def Trace.moved : Nat → Trace → Nat
  | _, [] => 0
  | limit, event :: rest =>
      event.moved limit + Trace.moved (limit - event.moved limit) rest

/-- None of the answers is an error. -/
def Trace.Clean (trace : Trace) : Prop :=
  ∀ event ∈ trace, ¬ event.Fails

/--
A transfer stopped half way: writes that directly follow one another, of which
one moved bytes and one failed.
-/
def Trace.Torn (trace : Trace) : Prop :=
  ∃ before block after,
    trace = before ++ block ++ after ∧
      (∀ event ∈ block, event.IsWrite) ∧
      (∃ event ∈ block, event.Writes) ∧
      ∃ event ∈ block, event.Fails

namespace Trace

/-- A torn transfer in a part is one in the whole. -/
theorem Torn.append_left
    {later : Trace} (torn : Torn later) (earlier : Trace) :
    Torn (earlier ++ later) := by
  obtain ⟨before, block, after, rfl, writes, moved, failed⟩ := torn
  exact ⟨earlier ++ before, block, after,
    by simp only [List.append_assoc], writes, moved, failed⟩

/-- Without errors no transfer is torn. -/
theorem Clean.not_torn {trace : Trace} (clean : Clean trace) :
    ¬ Torn trace := by
  rintro ⟨before, block, after, rfl, _, _, event, member, fails⟩
  exact clean event (by simp [member]) fails

theorem clean_nil : Clean [] := by
  simp [Clean]

theorem clean_append {first second : Trace} :
    Clean (first ++ second) ↔ Clean first ∧ Clean second := by
  simp [Clean, or_imp, forall_and]

/-- Later reads are left with what the earlier ones did not move. -/
theorem moved_append (limit : Nat) (first second : Trace) :
    moved limit (first ++ second) =
      moved limit first + moved (limit - moved limit first) second := by
  induction first generalizing limit with
  | nil =>
      simp [moved]
  | cons event rest inductionHypothesis =>
      rw [List.cons_append, moved, moved, inductionHypothesis,
        Nat.sub_sub]
      omega

/-- Reads that are not cut short move all there is, or nothing. -/
theorem moved_of_full
    {trace : Trace}
    (clean : Clean trace)
    (full : ∀ event ∈ trace, event.ReadsFull)
    (limit : Nat) :
    moved limit trace = 0 ∨ moved limit trace = limit := by
  induction trace generalizing limit with
  | nil =>
      exact Or.inl rfl
  | cons event rest inductionHypothesis =>
      have first :
          event.moved limit = 0 ∨ event.moved limit = limit := by
        cases event with
        | read transfer =>
            cases transfer with
            | fail _ =>
                exact Or.inl rfl
            | full =>
                exact Or.inr rfl
            | short _ =>
                exact (full _ List.mem_cons_self).elim
        | openFile _ | lock _ | stat _ | seek _ | write _
        | callback _ =>
            exact Or.inl rfl
      have later :=
        inductionHypothesis
          (fun event member => clean event (by simp [member]))
          (fun event member => full event (by simp [member]))
          (limit - event.moved limit)
      rw [moved]
      omega

/-- No more than there is can be moved. -/
theorem moved_le (limit : Nat) (trace : Trace) :
    moved limit trace ≤ limit := by
  induction trace generalizing limit with
  | nil =>
      exact Nat.zero_le _
  | cons event rest inductionHypothesis =>
      have later := inductionHypothesis (limit - event.moved limit)
      have first : event.moved limit ≤ limit := by
        cases event with
        | read transfer =>
            cases transfer with
            | fail _ | full | short _ =>
                simp [Event.moved, Transfer.amount]
        | openFile _ | lock _ | stat _ | seek _ | write _
        | callback _ =>
            exact Nat.zero_le _
      rw [moved]
      omega

end Trace

namespace Env.Took

variable {kind : Event → Prop} {env env' env'' : Env}
  {taken later : Trace}

theorem refl (env : Env) : Env.Took kind env [] env :=
  ⟨rfl, by simp⟩

theorem trans
    (first : Env.Took kind env taken env')
    (second : Env.Took kind env' later env'') :
    Env.Took kind env (taken ++ later) env'' := by
  refine ⟨?_, ?_⟩
  · rw [first.trace_eq, second.trace_eq, List.append_assoc]
  · intro event member
    rcases List.mem_append.mp member with inFirst | inSecond
    · exact first.kinds event inFirst
    · exact second.kinds event inSecond

end Env.Took

namespace Env

variable {halt : Stop → Prop} {env : Env}

/-- Asking for an answer takes one. -/
theorem wp_next
    {post : Event → Env → Prop}
    (starved : halt .starved)
    (answered : ∀ event rest, env.trace = event :: rest →
      post event { env with trace := rest }) :
    wp next post halt env := by
  unfold wp next
  cases shape : env.trace with
  | nil =>
      exact starved
  | cons event rest =>
      exact answered event rest shape

/-- Interrupted calls are repeated until another answer comes. -/
theorem wp_skip_next
    {interrupted : Event} {post : Event → Env → Prop}
    (starved : halt .starved)
    (answered : ∀ taken event env',
      env.trace = taken ++ event :: env'.trace →
      (∀ early ∈ taken, early = interrupted) →
      event ≠ interrupted →
      post event env') :
    wp (skip interrupted >>= fun _ => next) post halt env := by
  rw [wp_bind, skip, wp_modify]
  have split :=
    List.takeWhile_append_dropWhile
      (p := fun event => decide (event = interrupted))
      (l := env.trace)
  have early :
      ∀ event ∈ env.trace.takeWhile
          (fun event => decide (event = interrupted)),
        event = interrupted := by
    intro event member
    simpa using List.mem_takeWhile_imp member
  have fresh :
      ∀ event rest,
        env.trace.dropWhile
            (fun event => decide (event = interrupted)) =
          event :: rest →
        event ≠ interrupted := by
    intro event rest shape same
    have := List.head?_dropWhile_not
      (fun event => decide (event = interrupted)) env.trace
    simp [shape, same] at this
  split
  · refine wp_next starved ?_
    intro event rest shape
    simp only at shape
    refine answered _ event _ ?_ early (fresh event rest shape)
    rw [shape] at split
    exact split.symm
  · rename_i notHead
    refine wp_next starved ?_
    intro event rest shape
    refine answered [] event _ (by simp [shape]) (by simp) ?_
    rintro rfl
    simp [shape] at notHead

end Env

/--
The environment first interrupted a call some number of times and then
answered it.
-/
structure Env.Retried
    (interrupted : Event)
    (env : Env) (taken : Trace) (event : Event) (env' : Env) :
    Prop where
  trace_eq : env.trace = taken ++ event :: env'.trace
  early : ∀ first ∈ taken, first = interrupted
  fresh : event ≠ interrupted

namespace Env.Retried

variable {interrupted event : Event} {env env' : Env} {taken : Trace}

/-- The answers of a repeated call are of one kind if the last one is. -/
theorem took
    {kind : Event → Prop}
    (retried : Env.Retried interrupted env taken event env')
    (early : kind interrupted) (last : kind event)
    {final : Env} (same : final.trace = env'.trace) :
    env.Took kind (taken ++ [event]) final := by
  refine ⟨by simp [retried.trace_eq, same], ?_⟩
  intro first member
  rcases List.mem_append.mp member with inTaken | isLast
  · rw [retried.early first inTaken]
    exact early
  · rw [List.mem_singleton.mp isLast]
    exact last

/-- A repeated call is clean if the last answer is no error. -/
theorem clean
    (retried : Env.Retried interrupted env taken event env')
    (early : ¬ interrupted.Fails) (last : ¬ event.Fails) :
    Trace.Clean (taken ++ [event]) := by
  intro first member
  rcases List.mem_append.mp member with inTaken | isLast
  · rw [retried.early first inTaken]
    exact early
  · rw [List.mem_singleton.mp isLast]
    exact last

/-- Of a repeated read only the last answer moves bytes. -/
theorem moved
    {transfer : Transfer}
    (retried :
      Env.Retried (.read (.fail .eintr)) env taken (.read transfer)
        env')
    (limit : Nat) :
    Trace.moved limit (taken ++ [.read transfer]) =
      transfer.amount limit := by
  have interrupted : ∀ limit, Trace.moved limit taken = 0 := by
    have early := retried.early
    clear retried
    induction taken with
    | nil =>
        intro limit
        rfl
    | cons event rest inductionHypothesis =>
        intro limit
        rw [early event (by simp), Trace.moved]
        simp [Event.moved, Transfer.amount, inductionHypothesis
          fun first member => early first (by simp [member])]
  rw [Trace.moved_append, interrupted]
  simp [Trace.moved, Event.moved]

end Env.Retried

namespace FileCtx

variable {α : Type} {halt : Stop → Prop} {ctx : FileCtx}

/-- The loop around a system call that may be interrupted. -/
theorem wp_retry
    {interrupted : Event} {next : Event → FileOp α}
    {post : α → FileCtx → Prop}
    (starved : halt .starved)
    (answered : ∀ taken event env',
      Env.Retried interrupted ctx.env taken event env' →
      wp (next event) post halt { ctx with env := env' }) :
    wp (sys (Env.skip interrupted) >>= fun _ => sys Env.next >>= next)
      post halt ctx := by
  have single :
      wp (Env.skip interrupted >>= fun _ => Env.next)
        (fun event env => wp (next event) post halt
          { ctx with env := env })
        halt ctx.env := by
    refine Env.wp_skip_next starved ?_
    intro taken event env' shape early fresh
    exact answered taken event env' ⟨shape, early, fresh⟩
  simp only [wp_bind, sys, wp_zoom] at single ⊢
  exact single

end FileCtx

namespace KcndbFile

open FileCtx

variable {halt : Stop → Prop} {ctx ctx' ctx'' : FileCtx}

/-- What one `read(2)` yields. -/
inductive ReadResult
    (ctx : FileCtx) (space : Nat) (ctx' : FileCtx) :
    Except Errno (List UInt8) → Prop where
  | failed (taken : Trace) (error : IoError) :
      ctx.env.Took Event.IsRead taken ctx'.env →
      ¬ Trace.Clean taken →
      (∀ limit, Trace.moved limit taken = 0) →
      ctx'.file = ctx.file →
      ReadResult ctx space ctx' (.error error.errno)
  | got (taken : Trace) (here : List UInt8) :
      ctx.env.Took Event.IsRead taken ctx'.env →
      Trace.Clean taken →
      here.length =
        Trace.moved
          (min space (ctx.file.content.length - ctx.file.off))
          taken →
      here =
        slice ctx.file.content ctx.file.off here.length →
      here.length ≤ space →
      (here = [] → 0 < space →
        ctx.file.content.length ≤ ctx.file.off) →
      ctx'.file =
        { ctx.file with off := ctx.file.off + here.length } →
      ReadResult ctx space ctx' (.ok here)

/-- The bytes moved by a read are those at the offset. -/
theorem readResult_got
    {space : Nat} {taken : Trace} {transfer : Transfer} {env' : Env}
    (retried :
      Env.Retried (.read (.fail .eintr)) ctx.env taken
        (.read transfer) env')
    (moves : ∀ error, transfer ≠ .fail error) :
    let here :=
      slice ctx.file.content ctx.file.off
        (transfer.amount
          (min space (ctx.file.content.length - ctx.file.off)))
    ReadResult ctx space
      { file := { ctx.file with off := ctx.file.off + here.length }
        env := env' }
      (.ok here) := by
  intro here
  have clean : ¬ (Event.read transfer).Fails := by
    cases transfer with
    | fail error =>
        exact absurd rfl (moves error)
    | full | short count =>
        simp [Event.Fails]
  have bounds :
      transfer.amount
          (min space (ctx.file.content.length - ctx.file.off)) ≤
        min space (ctx.file.content.length - ctx.file.off) := by
    cases transfer with
    | fail error =>
        exact Nat.zero_le _
    | full =>
        exact Nat.le_refl _
    | short count =>
        exact Nat.min_le_right _ _
  have lengthEq :
      here.length =
        transfer.amount
          (min space (ctx.file.content.length - ctx.file.off)) := by
    rw [length_slice]
    omega
  refine .got (taken ++ [.read transfer]) here
    (retried.took trivial trivial rfl)
    (retried.clean (by simp [Event.Fails]) clean) ?_ ?_ ?_ ?_ rfl
  · rw [lengthEq, retried.moved]
  · rw [lengthEq]
  · omega
  · intro empty positive
    rw [empty] at lengthEq
    cases transfer with
    | fail error =>
        exact absurd rfl (moves error)
    | full | short count =>
        simp only [Transfer.amount, List.length_nil] at lengthEq
        omega

theorem wp_sysRead
    {post : Except Errno (List UInt8) → FileCtx → Prop}
    {space : Nat}
    (starved : halt .starved)
    (answered : ∀ result ctx',
      ReadResult ctx space ctx' result → post result ctx') :
    wp (sysRead space) post halt ctx := by
  refine wp_retry starved ?_
  intro taken event env' retried
  match event with
  | .read (.fail error) =>
      simp only [wp_bind, sys, wp_zoom, wp_pure, Env.setErrno,
        wp_modify]
      have hard : error ≠ .eintr := by
        rintro rfl
        exact retried.fresh rfl
      refine answered _ _
        (.failed (taken ++ [.read (.fail error)]) error ?_ ?_ ?_ rfl)
      · exact retried.took trivial trivial rfl
      · intro allClean
        exact allClean (.read (.fail error)) (by simp) hard
      · exact retried.moved
  | .read .full =>
      simp only [wp_bind, wp_gets, wp_modify, wp_pure]
      exact answered _ _ (readResult_got retried (by simp))
  | .read (.short count) =>
      simp only [wp_bind, wp_gets, wp_modify, wp_pure]
      exact answered _ _ (readResult_got retried (by simp))
  | .openFile _ | .lock _ | .stat _ | .seek _ | .write _ | .callback _ =>
      exact starved

/--
The operation only read: the bytes `new` at the offset were added behind the
data of the buffer.
-/
structure Grown
    (ctx : FileCtx) (taken : Trace) (new : List UInt8)
    (ctx' : FileCtx) : Prop where
  took : ctx.env.Took Event.IsRead taken ctx'.env
  content_eq : ctx'.file.content = ctx.file.content
  size_eq : ctx'.file.kb.size = ctx.file.kb.size
  before_eq : ctx'.file.kb.before = ctx.file.kb.before
  after_eq : ctx'.file.kb.after = ctx.file.kb.after ++ new
  off_eq : ctx'.file.off = ctx.file.off + new.length
  new_eq : new = slice ctx.file.content ctx.file.off new.length

namespace Grown

variable {taken later : Trace} {new newer : List UInt8}

theorem refl (ctx : FileCtx) : Grown ctx [] [] ctx :=
  ⟨.refl _, rfl, rfl, rfl, by simp, rfl, by simp⟩

theorem trans
    (first : Grown ctx taken new ctx')
    (second : Grown ctx' later newer ctx'') :
    Grown ctx (taken ++ later) (new ++ newer) ctx'' where
  took := first.took.trans second.took
  content_eq := second.content_eq.trans first.content_eq
  size_eq := second.size_eq.trans first.size_eq
  before_eq := second.before_eq.trans first.before_eq
  after_eq := by
    rw [second.after_eq, first.after_eq, List.append_assoc]
  off_eq := by
    rw [second.off_eq, first.off_eq, List.length_append,
      Nat.add_assoc]
  new_eq := by
    have secondEq := second.new_eq
    rw [first.content_eq, first.off_eq] at secondEq
    rw [List.length_append, slice_add, ← first.new_eq, ← secondEq]

theorem len_eq (grown : Grown ctx taken new ctx') :
    ctx'.file.kb.len = ctx.file.kb.len + new.length := by
  rw [(KcnBuf.holds_self _).len_eq, (KcnBuf.holds_self _).len_eq,
    grown.before_eq, grown.after_eq, List.length_append]
  omega

/-- Assigning `errno` is no reading. -/
theorem setErrno
    (grown : Grown ctx taken new ctx') (errno : Errno) :
    Grown ctx taken new
      (envLens.set ctx' { ctx'.env with errno := errno }) :=
  ⟨⟨grown.took.trace_eq, grown.took.kinds⟩, grown.content_eq,
    grown.size_eq, grown.before_eq, grown.after_eq, grown.off_eq,
    grown.new_eq⟩

/-- Reading never passes the end of the file. -/
theorem off_le (grown : Grown ctx taken new ctx')
    (inside : ctx.file.off ≤ ctx.file.content.length) :
    ctx'.file.off ≤ ctx'.file.content.length := by
  have := congrArg List.length grown.new_eq
  rw [length_slice] at this
  rw [grown.off_eq, grown.content_eq]
  omega

end Grown

/-- What `kcn_buf_read` on the file yields. -/
inductive BufReadResult (ctx : FileCtx) (ctx' : FileCtx) :
    Errno → Prop where
  | failed (taken : Trace) (error : IoError) :
      Grown ctx taken [] ctx' →
      ¬ Trace.Clean taken →
      (∀ limit, Trace.moved limit taken = 0) →
      BufReadResult ctx ctx' error.errno
  | ended (taken : Trace) :
      Grown ctx taken [] ctx' →
      Trace.Clean taken →
      ctx.file.content.length ≤ ctx.file.off →
      BufReadResult ctx ctx' Errno.eshutdown
  | got (taken : Trace) (new : List UInt8) :
      Grown ctx taken new ctx' →
      Trace.Clean taken →
      new ≠ [] →
      (ctx.file.kb.sp = 0 →
        new.length =
          Trace.moved
            (min (ctx.file.kb.size - ctx.file.kb.len)
              (ctx.file.content.length - ctx.file.off))
            taken) →
      BufReadResult ctx ctx' 0

/-- A full buffer is moved to the head of its block before a read. -/
def Realigned (kb kb' : KcnBuf) : Prop :=
  kb'.sp = kb.sp ∨ kb'.sp = 0 ∧ kb.ep = kb.size

theorem wp_prepareRead
    {kb : KcnBuf} {post : Unit → KcnBuf → Prop}
    (overflow : kb.len = kb.size → halt .assertion)
    (next : ∀ kb',
      kb'.Holds kb.size kb'.sp kb.before kb.after →
      Realigned kb kb' →
      0 < kb'.trailingspace →
      post () kb') :
    wp KcnBuf.prepareRead post halt kb := by
  unfold KcnBuf.prepareRead
  simp only [wp_bind, wp_gets]
  have holds := KcnBuf.holds_self kb
  split
  · rename_i full
    rw [wp_bind]
    refine KcnBuf.wp_realign holds ?_
    intro kb' holds'
    simp only [wp_bind, wp_gets]
    have lenEq := holds.len_eq
    have spaceEq := holds'.trailingspace_eq
    split
    · rename_i stillFull
      have sizeLe := holds'.le_size
      exact overflow (by omega)
    · have epLe := kb.ep_le_size
      unfold KcnBuf.trailingspace at full
      refine next kb' ?_ (Or.inr ⟨holds'.sp_eq, by omega⟩) (by omega)
      rw [holds'.sp_eq]
      exact holds'
  · rename_i space
    exact next kb holds (Or.inl rfl) (Nat.pos_of_ne_zero space)

theorem wp_bufRead
    {post : Errno → FileCtx → Prop}
    (starved : halt .starved)
    (overflow : ctx.file.kb.len = ctx.file.kb.size → halt .assertion)
    (next : ∀ error ctx',
      BufReadResult ctx ctx' error →
      Realigned ctx.file.kb ctx'.file.kb →
      post error ctx') :
    wp bufRead post halt ctx := by
  unfold bufRead
  rw [wp_bind, buf, wp_zoom]
  refine wp_prepareRead overflow ?_
  intro kb' holds realigned space
  rw [wp_bind, wp_gets, wp_bind]
  refine wp_sysRead starved ?_
  intro result ctx₁ outcome
  cases outcome with
  | failed taken error took unclean nothing fileEq =>
      refine next _ _ (.failed taken error ?_ unclean nothing) ?_
      · refine ⟨took, ?_, ?_, ?_, ?_, ?_, by simp⟩
        · rw [fileEq]
          rfl
        · rw [fileEq]
          exact holds.size_eq
        · rw [fileEq]
          exact holds.before_eq
        · rw [fileEq, List.append_nil]
          exact holds.after_eq
        · rw [fileEq]
          rfl
      · rw [fileEq]
        exact realigned
  | got taken here took clean movedEq hereEq hereLe atEnd fileEq =>
      cases here with
      | nil =>
          refine next _ _ (.ended taken ?_ clean (atEnd rfl space)) ?_
          · refine ⟨took, ?_, ?_, ?_, ?_, ?_, by simp⟩
            · rw [fileEq]
              rfl
            · rw [fileEq]
              exact holds.size_eq
            · rw [fileEq]
              exact holds.before_eq
            · rw [fileEq, List.append_nil]
              exact holds.after_eq
            · rw [fileEq]
              rfl
          · rw [fileEq]
            exact realigned
      | cons byte rest =>
          have kbEq : ctx₁.file.kb = kb' := by
            rw [fileEq]
            rfl
          have hereLe' :
              (byte :: rest).length ≤ kb'.trailingspace := hereLe
          have movedEq' :
              (byte :: rest).length =
                Trace.moved
                  (min kb'.trailingspace
                    (ctx.file.content.length - ctx.file.off))
                  taken :=
            movedEq
          have contentEq :
              ctx₁.file.content = ctx.file.content := by
            rw [fileEq]
            rfl
          have offEq :
              ctx₁.file.off =
                ctx.file.off + (byte :: rest).length := by
            rw [fileEq]
            rfl
          have bound := holds.trailingspace_eq
          have total := holds.le_size
          clear fileEq
          subst kbEq
          rw [wp_bind, buf, wp_zoom]
          refine KcnBuf.wp_fill holds (by omega) ?_
          intro kb'' holds' _
          refine next _ _
            (.got taken (byte :: rest) ?_ clean (by simp) ?_) ?_
          · exact ⟨took, contentEq, holds'.size_eq, holds'.before_eq,
              holds'.after_eq, offEq, hereEq⟩
          · intro spEq
            have lenEq := (KcnBuf.holds_self ctx.file.kb).len_eq
            have unmoved : ctx₁.file.kb.sp = 0 := by
              rcases realigned with same | moved
              · exact same.trans spEq
              · exact moved.1
            have spaceEq :
                ctx₁.file.kb.trailingspace =
                  ctx.file.kb.size - ctx.file.kb.len := by
              rw [bound, unmoved, Nat.zero_add, lenEq]
              rfl
            rw [movedEq', spaceEq]
          · rcases realigned with same | moved
            · exact Or.inl (holds'.sp_eq.trans same)
            · refine Or.inr ⟨holds'.sp_eq.trans moved.1, moved.2⟩

/-- What `kcndb_file_ensure` did. -/
structure Ensured
    (ctx : FileCtx) (len : Nat) (ok : Bool) (ctx' : FileCtx)
    (taken : Trace) (new : List UInt8) : Prop where
  grown : Grown ctx taken new ctx'
  start :
    ctx'.file.kb.sp = ctx.file.kb.sp ∨
      ctx'.file.kb.sp = 0 ∧ ctx.file.kb.size < ctx.file.kb.sp + len
  moved :
    ctx.file.kb.sp = 0 →
      ctx'.file.kb.sp = 0 ∧
        new.length =
          Trace.moved
            (min (ctx.file.kb.size - ctx.file.kb.len)
              (ctx.file.content.length - ctx.file.off))
            taken
  stays : len ≤ ctx.file.kb.len → new = []
  enough : ok = true → Trace.Clean taken ∧ len ≤ ctx'.file.kb.len
  below : ok = false → ctx'.file.kb.len < len
  short :
    ok = false →
      (Trace.Clean taken ∧ ctx'.env.errno = Errno.eshutdown ∧
          ctx'.file.content.length ≤ ctx'.file.off) ∨
        (¬ Trace.Clean taken ∧ ctx'.env.errno ≠ Errno.eshutdown)

theorem wp_ensureLoop
    {post : Bool → FileCtx → Prop} {len : Nat}
    (starved : halt .starved)
    (rounds : Nat)
    (overflow : ctx.file.kb.size < len → halt .assertion)
    (next : ∀ ok ctx' taken new,
      Ensured ctx len ok ctx' taken new → post ok ctx') :
    wp (ensureLoop len rounds) post halt ctx := by
  induction rounds generalizing ctx with
  | zero =>
      exact starved
  | succ rounds inductionHypothesis =>
      unfold ensureLoop
      rw [wp_bind, wp_gets, wp_ite]
      refine ⟨?_, ?_⟩
      · intro missing
        rw [wp_bind]
        refine wp_bufRead starved (fun full => overflow (by omega)) ?_
        intro error ctx₁ outcome realigned
        have startOf :
            ctx₁.file.kb.sp = ctx.file.kb.sp ∨
              ctx₁.file.kb.sp = 0 ∧
                ctx.file.kb.size < ctx.file.kb.sp + len := by
          rcases realigned with same | ⟨moved, wasFull⟩
          · exact Or.inl same
          · have := ctx.file.kb.sp_le_cp
            have := ctx.file.kb.cp_le_ep
            unfold KcnBuf.len at missing
            exact Or.inr ⟨moved, by omega⟩
        have startAt :
            ctx.file.kb.sp = 0 → ctx₁.file.kb.sp = 0 := by
          intro spEq
          rcases realigned with same | moved
          · exact same.trans spEq
          · exact moved.1
        cases outcome with
        | failed taken error grown unclean nothing =>
            rw [if_neg error.errno_ne_zero, wp_bind, sys, wp_zoom, Env.setErrno,
              wp_modify, wp_pure]
            refine next _ _ taken []
              ⟨grown.setErrno _, startOf, ?_, fun _ => rfl, by simp,
                ?_, ?_⟩
            · intro spEq
              exact ⟨startAt spEq, (nothing _).symm⟩
            · intro _
              have lenEq := grown.len_eq
              simp only [List.length_nil] at lenEq
              simp only [envLens]
              omega
            · intro _
              exact Or.inr ⟨unclean, error.errno_ne_eshutdown⟩
        | ended taken grown clean atEnd =>
            have nonzero : Errno.eshutdown ≠ 0 := by decide
            have passed :
                ctx₁.file.content.length ≤ ctx₁.file.off := by
              rw [grown.content_eq, grown.off_eq]
              exact atEnd
            rw [if_neg nonzero, wp_bind, sys, wp_zoom, Env.setErrno,
              wp_modify, wp_pure]
            refine next _ _ taken []
              ⟨grown.setErrno _, startOf, ?_, fun _ => rfl, by simp,
                ?_, fun _ => Or.inl ⟨clean, rfl, passed⟩⟩
            · intro spEq
              refine ⟨startAt spEq, ?_⟩
              have none :=
                Trace.moved_le
                  (min (ctx.file.kb.size - ctx.file.kb.len)
                    (ctx.file.content.length - ctx.file.off))
                  taken
              simp only [List.length_nil]
              omega
            · intro _
              have lenEq := grown.len_eq
              simp only [List.length_nil] at lenEq
              simp only [envLens]
              omega
        | got taken new grown clean nonempty amount =>
            rw [if_pos rfl]
            refine inductionHypothesis
              (by rw [grown.size_eq]; exact overflow) ?_
            intro ok ctx₂ later newer ensured
            refine next ok ctx₂ (taken ++ later) (new ++ newer)
              ⟨grown.trans ensured.grown, ?_, ?_,
                fun enough => absurd enough (Nat.not_le_of_lt missing),
                ?_, ensured.below, ?_⟩
            · have sizeEq := grown.size_eq
              rcases ensured.start with same | ⟨moved, exceeded⟩
              · rw [same]
                exact startOf
              · refine Or.inr ⟨moved, ?_⟩
                rcases startOf with same | ⟨zero, below⟩
                · omega
                · omega
            · intro spEq
              obtain ⟨spEq', later⟩ := ensured.moved (startAt spEq)
              refine ⟨spEq', ?_⟩
              have lenEq := grown.len_eq
              rw [List.length_append, Trace.moved_append,
                ← amount spEq, later, grown.size_eq,
                grown.content_eq, grown.off_eq, lenEq]
              congr 2
              omega
            · intro succeeded
              have := ensured.enough succeeded
              exact ⟨Trace.clean_append.mpr ⟨clean, this.1⟩, this.2⟩
            · intro failed
              rcases ensured.short failed with
                  ⟨laterClean, rest⟩ | ⟨unclean, rest⟩
              · exact Or.inl
                  ⟨Trace.clean_append.mpr ⟨clean, laterClean⟩, rest⟩
              · refine Or.inr ⟨?_, rest⟩
                intro both
                exact unclean (Trace.clean_append.mp both).2
      · intro enough
        rw [wp_pure]
        exact next true ctx [] []
          ⟨.refl ctx, Or.inl rfl, fun spEq => ⟨spEq, rfl⟩,
            fun _ => rfl, fun _ => ⟨Trace.clean_nil, by omega⟩,
            by simp, by simp⟩

/-- `kcndb_file_ensure` -/
theorem wp_ensure
    {post : Bool → FileCtx → Prop} {len : Nat}
    (starved : halt .starved)
    (overflow : ctx.file.kb.size < len → halt .assertion)
    (next : ∀ ok ctx' taken new,
      Ensured ctx len ok ctx' taken new → post ok ctx') :
    wp (ensure len) post halt ctx := by
  unfold ensure
  rw [wp_bind, wp_gets]
  exact wp_ensureLoop starved _ overflow next

/-- The answers that a seek takes and whether it succeeds with them. -/
theorem wp_sysSeek
    {post : Bool → FileCtx → Prop} {off : Nat}
    (starved : halt .starved)
    (moved : ∀ env',
      off ≤ offMax →
      ctx.env.trace = .seek none :: env'.trace →
      post true { file := { ctx.file with off := off }, env := env' })
    (refused : ∀ event env',
      ctx.env.trace = event :: env'.trace →
      (event = .seek none ∧ offMax < off ∨
        ∃ error, event = .seek (some error)) →
      post false { file := ctx.file, env := env' }) :
    wp (sysSeek off) post halt ctx := by
  unfold sysSeek
  rw [wp_bind, sys, wp_zoom]
  refine Env.wp_next starved ?_
  intro event rest shape
  match event with
  | .seek none =>
      simp only [wp_ite]
      refine ⟨?_, ?_⟩
      · intro inside
        simp only [wp_bind, wp_modify, wp_pure]
        exact moved _ inside shape
      · intro outside
        simp only [wp_bind, sys, wp_zoom, Env.setErrno, wp_modify,
          wp_pure]
        exact refused (.seek none) _ shape
          (Or.inl ⟨rfl, Nat.lt_of_not_le outside⟩)
  | .seek (some error) =>
      simp only [wp_bind, sys, wp_zoom, Env.setErrno, wp_modify,
        wp_pure]
      exact refused (.seek (some error)) _ shape
        (Or.inr ⟨error, rfl⟩)
  | .openFile _ | .lock _ | .stat _ | .read _ | .write _ | .callback _ =>
      exact starved

/-- What `kcndb_file_write` did: `count` bytes of the data were stored. -/
structure Written
    (ctx : FileCtx) (ok : Bool) (ctx' : FileCtx)
    (taken : Trace) (count : Nat) : Prop where
  took : ctx.env.Took Event.IsWrite taken ctx'.env
  content_eq :
    ctx'.file.content =
      writeAt ctx.file.content ctx.file.off
        (ctx.file.kb.data.take count)
  done :
    ok = true →
      Trace.Clean taken ∧ count = ctx.file.kb.len ∧
        ctx'.file.kb.Holds ctx.file.kb.size 0 [] []
  failed :
    ok = false →
      ¬ Trace.Clean taken ∧
        (count = 0 ∧ ctx'.file = ctx.file ∨
          ∃ event ∈ taken, event.Writes)

end KcndbFile

theorem length_writeAt
    (content : List UInt8) (off : Nat) (new : List UInt8)
    (inside : off ≤ content.length) :
    (writeAt content off new).length =
      max content.length (off + new.length) := by
  unfold writeAt
  split
  · rename_i empty
    rw [empty, List.length_nil]
    omega
  · rw [length_overwrite _ _ _ (by simp; omega)]
    simp
    omega

/-- Inside the old contents a store is an overwrite. -/
theorem writeAt_inside
    (content : List UInt8) (off : Nat) (new : List UInt8)
    (inside : off ≤ content.length) :
    writeAt content off new = overwrite content off new := by
  unfold writeAt
  split
  · rename_i empty
    simp [empty]
  · simp [show off - content.length = 0 by omega]

/-- At the end of the old contents a store appends. -/
@[simp] theorem writeAt_length (content new : List UInt8) :
    writeAt content content.length new = content ++ new := by
  rw [writeAt_inside _ _ _ (Nat.le_refl _), overwrite_length]

/-- Storing a string in two parts is storing it whole. -/
theorem writeAt_append
    (content : List UInt8) (off : Nat) (first second : List UInt8)
    (nonempty : first ≠ []) :
    writeAt (writeAt content off first) (off + first.length) second =
      writeAt content off (first ++ second) := by
  have padded :
      off ≤
        (content ++
          List.replicate (off - content.length) 0).length := by
    simp
    omega
  unfold writeAt
  by_cases empty : second = []
  · simp [empty, nonempty]
  · have reach :
        off + first.length ≤
          (overwrite
            (content ++ List.replicate (off - content.length) 0)
            off first).length := by
      rw [length_overwrite _ _ _ padded]
      omega
    simp only [empty, nonempty, ↓reduceIte, List.append_eq_nil_iff,
      and_self]
    rw [show off + first.length -
        (overwrite
          (content ++ List.replicate (off - content.length) 0)
          off first).length = 0 by omega,
      List.replicate_zero, List.append_nil,
      overwrite_append _ _ _ _ padded]

namespace KcndbFile

open FileCtx

variable {halt : Stop → Prop} {ctx : FileCtx}

/-- One `write(2)` of at least one byte, followed by `kcn_buf_trim_head`. -/
inductive BufWriteResult (ctx : FileCtx) (ctx' : FileCtx) :
    Errno → Prop where
  | failed (taken : Trace) (error : IoError) :
      ctx.env.Took Event.IsWrite taken ctx'.env →
      ¬ Trace.Clean taken →
      ctx'.file = ctx.file →
      BufWriteResult ctx ctx' error.errno
  | put (taken : Trace) (count : Nat) :
      ctx.env.Took Event.IsWrite taken ctx'.env →
      Trace.Clean taken →
      (∃ event ∈ taken, event.Writes) →
      0 < count →
      count ≤ ctx.file.kb.len →
      ctx'.file.content =
        writeAt ctx.file.content ctx.file.off
          (ctx.file.kb.data.take count) →
      ctx'.file.off = ctx.file.off + count →
      ctx'.file.kb.size = ctx.file.kb.size →
      ctx'.file.kb.data = ctx.file.kb.data.drop count →
      BufWriteResult ctx ctx' 0

theorem length_data (kb : KcnBuf) : kb.data.length = kb.len := by
  rw [(KcnBuf.holds_self kb).data_eq, List.length_append,
    (KcnBuf.holds_self kb).len_eq]

/-- The case of a write that moves bytes. -/
theorem wp_bufWrite_moves
    {post : Errno → FileCtx → Prop}
    (nonempty : 0 < ctx.file.kb.len)
    {taken : Trace} {transfer : Transfer} {env' : Env}
    (retried :
      Env.Retried (.write (.fail .eintr)) ctx.env taken
        (.write transfer) env')
    (moves : ∀ error, transfer ≠ .fail error)
    (next : ∀ error ctx',
      BufWriteResult ctx ctx' error → post error ctx') :
    let here :=
      ctx.file.kb.data.take (transfer.amount ctx.file.kb.len)
    wp
      (match (.ok here.length : Except Errno Nat) with
        | .error error => pure error
        | .ok 0 => pure Errno.eshutdown
        | .ok count => do
            buf (KcnBuf.trimHead count)
            pure 0)
      post halt
      { file := {
          ctx.file with
          content :=
            writeAt ctx.file.content ctx.file.off here
          off := ctx.file.off + here.length
        }
        env := env' } := by
  intro here
  have amount :
      0 < transfer.amount ctx.file.kb.len ∧
        transfer.amount ctx.file.kb.len ≤ ctx.file.kb.len := by
    cases transfer with
    | fail error =>
        exact absurd rfl (moves error)
    | full =>
        exact ⟨nonempty, Nat.le_refl _⟩
    | short count =>
        simp only [Transfer.amount]
        omega
  have lengthEq :
      here.length = transfer.amount ctx.file.kb.len := by
    rw [List.length_take, length_data]
    omega
  have writes : (Event.write transfer).Writes := by
    cases transfer with
    | fail error =>
        exact absurd rfl (moves error)
    | full | short count =>
        trivial
  have succeeds : ¬ (Event.write transfer).Fails := by
    cases transfer with
    | fail error =>
        exact absurd rfl (moves error)
    | full | short count =>
        simp [Event.Fails]
  rw [lengthEq]
  obtain ⟨count, countEq⟩ :
      ∃ count, transfer.amount ctx.file.kb.len = count + 1 :=
    ⟨_, (Nat.succ_pred_eq_of_pos amount.1).symm⟩
  rw [countEq]
  simp only [wp_bind, buf, wp_zoom, wp_pure]
  refine KcnBuf.wp_trimHead_data ?_ ?_
  · rw [← countEq]
    exact amount.2
  · intro kb' sizeEq dataEq
    refine next _ _
      (.put (taken ++ [.write transfer]) (count + 1)
        (retried.took trivial trivial rfl)
        (retried.clean (by simp [Event.Fails]) succeeds)
        ⟨.write transfer, by simp, writes⟩
        (Nat.succ_pos _) (by omega) ?_ rfl sizeEq dataEq)
    rw [← countEq]
    rfl

theorem wp_bufWrite
    {post : Errno → FileCtx → Prop}
    (starved : halt .starved)
    (nonempty : 0 < ctx.file.kb.len)
    (next : ∀ error ctx',
      BufWriteResult ctx ctx' error → post error ctx') :
    wp bufWrite post halt ctx := by
  unfold bufWrite
  rw [wp_bind]
  unfold sysWrite
  refine wp_retry starved ?_
  intro taken event env' retried
  match event with
  | .write (.fail error) =>
      simp only [wp_bind, sys, wp_zoom, wp_pure, Env.setErrno,
        wp_modify]
      have hard : error ≠ .eintr := by
        rintro rfl
        exact retried.fresh rfl
      refine next _ _
        (.failed (taken ++ [.write (.fail error)]) error ?_ ?_ rfl)
      · exact retried.took trivial trivial rfl
      · intro allClean
        exact allClean (.write (.fail error)) (by simp) hard
  | .write .full =>
      simp only [wp_bind, wp_gets, wp_modify, wp_pure]
      exact wp_bufWrite_moves nonempty retried (by simp) next
  | .write (.short count) =>
      simp only [wp_bind, wp_gets, wp_modify, wp_pure]
      exact wp_bufWrite_moves nonempty retried (by simp) next
  | .openFile _ | .lock _ | .stat _ | .seek _ | .read _ | .callback _ =>
      exact starved

theorem wp_writeLoop
    {post : Bool → FileCtx → Prop}
    (starved : halt .starved)
    (rounds : Nat)
    (next : ∀ ok ctx' taken count,
      Written ctx ok ctx' taken count → post ok ctx') :
    wp (writeLoop rounds) post halt ctx := by
  induction rounds generalizing ctx with
  | zero =>
      exact starved
  | succ rounds inductionHypothesis =>
      unfold writeLoop
      rw [wp_bind, wp_gets, wp_ite]
      refine ⟨?_, ?_⟩
      · intro nonempty
        rw [wp_bind]
        refine wp_bufWrite starved nonempty ?_
        intro error ctx₁ outcome
        cases outcome with
        | failed taken error took unclean fileEq =>
            rw [if_neg error.errno_ne_zero, wp_pure]
            refine next false ctx₁ taken 0
              ⟨took, ?_, by simp, ?_⟩
            · simp [fileEq, writeAt]
            · intro _
              exact ⟨unclean, Or.inl ⟨rfl, fileEq⟩⟩
        | put taken count took clean writes positive countLe
            contentEq offEq sizeEq dataEq =>
            have lengthEq :
                (ctx.file.kb.data.take count).length = count := by
              rw [List.length_take, length_data]
              omega
            have headNonempty :
                ctx.file.kb.data.take count ≠ [] := by
              intro empty
              rw [empty, List.length_nil] at lengthEq
              omega
            have lenEq : ctx₁.file.kb.len = ctx.file.kb.len - count := by
              rw [← length_data, dataEq, List.length_drop,
                length_data]
            rw [if_pos rfl]
            refine inductionHypothesis ?_
            intro ok ctx₂ later more written
            refine next ok ctx₂ (taken ++ later) (count + more)
              ⟨took.trans written.took, ?_, ?_, ?_⟩
            · have joined := writeAt_append ctx.file.content
                ctx.file.off (ctx.file.kb.data.take count)
                ((ctx.file.kb.data.drop count).take more)
                headNonempty
              rw [lengthEq] at joined
              rw [written.content_eq, contentEq, offEq, dataEq,
                joined, List.take_add]
            · intro succeeded
              obtain ⟨laterClean, moreEq, holds⟩ :=
                written.done succeeded
              refine ⟨Trace.clean_append.mpr ⟨clean, laterClean⟩,
                by omega, ?_⟩
              rw [← sizeEq]
              exact holds
            · intro failed
              obtain ⟨unclean, _⟩ := written.failed failed
              refine ⟨?_, Or.inr ?_⟩
              · intro both
                exact unclean (Trace.clean_append.mp both).2
              · obtain ⟨event, member, moved⟩ := writes
                exact ⟨event, List.mem_append_left _ member, moved⟩
      · intro empty
        simp only [wp_bind, buf, wp_zoom, wp_pure]
        refine KcnBuf.wp_reset (KcnBuf.holds_self _)
          (Nat.zero_le _) ?_
        intro kb' holds
        refine next true _ [] 0
          ⟨.refl _, by simp [writeAt, kbLens], ?_, by simp⟩
        intro _
        exact ⟨Trace.clean_nil, by omega, holds⟩

/-- `kcndb_file_write` -/
theorem wp_write
    {post : Bool → FileCtx → Prop}
    (starved : halt .starved)
    (next : ∀ ok ctx' taken count,
      Written ctx ok ctx' taken count → post ok ctx') :
    wp write post halt ctx := by
  unfold write
  rw [wp_bind, wp_gets]
  exact wp_writeLoop starved _ next

/-- A write that fails leaves the file alone unless the transfer was torn. -/
theorem Written.unchanged_or_torn
    {ctx' : FileCtx} {taken : Trace} {count : Nat}
    (written : Written ctx false ctx' taken count) :
    ctx'.file = ctx.file ∨ ctx.env.trace.Torn := by
  obtain ⟨unclean, ⟨_, same⟩ | moved⟩ := written.failed rfl
  · exact Or.inl same
  · refine Or.inr ⟨[], taken, ctx'.env.trace,
      written.took.trace_eq, written.took.kinds, moved, ?_⟩
    simpa [Trace.Clean] using unclean

/-- What `kcndb_file_append` did. -/
inductive Appended (ctx ctx' : FileCtx) : Bool → Prop where
  | refused (event : Event) :
      ctx.env.trace = event :: ctx'.env.trace →
      (event = .seek none ∧ offMax < ctx.file.content.length ∨
        ∃ error, event = .seek (some error)) →
      ctx'.file = ctx.file →
      Appended ctx ctx' false
  | written (ok : Bool) (env' : Env) (taken : Trace) (count : Nat) :
      ctx.file.content.length ≤ offMax →
      ctx.env.trace = .seek none :: env'.trace →
      Written
        { file := { ctx.file with off := ctx.file.content.length }
          env := env' }
        ok ctx' taken count →
      Appended ctx ctx' ok

/-- `kcndb_file_append` -/
theorem wp_append
    {post : Bool → FileCtx → Prop}
    (starved : halt .starved)
    (next : ∀ ok ctx', Appended ctx ctx' ok → post ok ctx') :
    wp append post halt ctx := by
  unfold append
  rw [wp_bind, wp_gets, wp_bind]
  refine wp_sysSeek starved ?_ ?_
  · intro env' inside shape
    refine wp_write starved ?_
    intro ok ctx' taken count written
    exact next ok ctx'
      (.written ok env' taken count inside shape written)
  · intro event env' shape refusal
    exact next false _ (.refused event shape refusal rfl)

/-- `kcndb_file_size_get` -/
theorem wp_sizeGet
    {post : Option Nat → FileCtx → Prop}
    (starved : halt .starved)
    (found : ∀ env',
      ctx.env.trace = .stat none :: env'.trace →
      post (some ctx.file.content.length)
        { ctx with env := env' })
    (failed : ∀ error env',
      ctx.env.trace = .stat (some error) :: env'.trace →
      post none { ctx with env := env' }) :
    wp sizeGet post halt ctx := by
  unfold sizeGet
  rw [wp_bind, sys, wp_zoom]
  refine Env.wp_next starved ?_
  intro event rest shape
  match event with
  | .stat none =>
      simp only [wp_bind, wp_gets, wp_pure]
      exact found _ shape
  | .stat (some error) =>
      simp only [wp_bind, sys, wp_zoom, Env.setErrno, wp_modify,
        wp_pure]
      exact failed error _ shape
  | .openFile _ | .lock _ | .seek _ | .read _ | .write _
  | .callback _ =>
      exact starved

end KcndbFile

end Kcn
