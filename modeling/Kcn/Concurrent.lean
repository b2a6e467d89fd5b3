import Kcn.LocAdd
import Kcn.Steps

namespace Kcn

open Program KcnBuf

/-!
# Threads that open a table

Some threads open the table while others, which have opened it, already add
locators.  An open is taken in two parts: it opens the files, and later it
holds the lock.
-/

namespace KcndbDb

open TableCtx

/-- The part of `kcndb_db_table_open` that opens the files. -/
def openFiles : TableOp Bool := do
  if ← fileOpen then
    fileOpen
  else
    pure false

/-- The part of `kcndb_db_table_open` with the lock. -/
def initLocked : TableOp Bool := do
  if ← wrlock then
    let rc ← init
    unlock
    pure rc
  else
    pure false

/-- The two parts in turn are the whole call. -/
theorem tableOpen_eq :
    tableOpen =
      openFiles >>= fun ok => if ok then initLocked else pure false := by
  unfold tableOpen openFiles initLocked
  rw [bind_bind]
  congr 1
  funext ok
  cases ok with
  | true =>
      rfl
  | false =>
      rfl

/-- `kcndb_db_loc_add` with the lock that its caller takes. -/
def locAddLocked (loc : List UInt8) : TableOp (Option UInt64) := do
  if ← wrlock then
    let result ← locAdd loc
    unlock
    pure result
  else
    pure none

variable {ctx : TableCtx} {loc : List UInt8}

theorem wp_initLocked
    (fresh : ctx.loc.kb.Holds kcndbFileBufsiz 0 [] []) :
    wp initLocked (Opened ctx) (fun _ => True) ctx := by
  unfold initLocked
  rw [wp_bind]
  refine wp_wrlock trivial (fun _ => trivial) ?_ ?_
  · intro env' shape _
    simp only [↓reduceIte, wp_bind, wp_unlock, wp_pure]
    have locked :
        (ctx.writeLocked env').loc.kb.Holds kcndbFileBufsiz 0 [] [] :=
      fresh
    refine wp_imp (wp_init locked) ?_
    intro rc ctx' inited
    exact .inited env' rc ctx' ⟨[_], shape.symm⟩ inited
  · intro error env' shape
    refine .refused env' fun clean => ?_
    have refused := clean (.lock (some error)) (by
      rw [shape]
      exact List.mem_cons_self)
    exact refused (by simp [Event.Fails])

theorem wp_locAddLocked
    (sizeEq : ctx.loc.kb.size = kcndbFileBufsiz) :
    wp (locAddLocked loc)
      (fun _ ctx' => ¬ Trace.Clean ctx.env.trace ∨ ctx.LocFollows ctx')
      (fun _ => True) ctx := by
  unfold locAddLocked
  rw [wp_bind]
  refine wp_wrlock trivial (fun _ => trivial) ?_ ?_
  · intro env' shape _
    simp only [↓reduceIte, wp_bind, wp_unlock, wp_pure]
    have locked : (ctx.writeLocked env').loc.kb.size = kcndbFileBufsiz :=
      sizeEq
    refine wp_imp (wp_locAdd_within locked) ?_
    rintro result ctx' (torn | follows)
    · refine Or.inl fun clean => ?_
      have later : Trace.Clean env'.trace := by
        rw [shape] at clean
        exact fun event member =>
          clean event (List.mem_cons_of_mem _ member)
      exact later.not_torn torn
    · exact Or.inr ⟨follows.grown, follows.locsize⟩
  · intro error env' shape
    exact Or.inr ⟨Nat.le_refl _, rfl⟩

theorem keeps_sizes_initLocked : Keeps sizes initLocked := by
  intro ctx
  unfold initLocked
  rw [wp_bind]
  refine wp_wrlock trivial (fun _ => trivial) ?_ fun _ _ _ => rfl
  intro env' _ _
  simp only [↓reduceIte, wp_bind, wp_unlock, wp_pure]
  refine wp_imp (keeps_held_init _) ?_
  intro rc ctx' same
  exact congrArg Prod.snd same

theorem keeps_sizes_locAddLocked (loc : List UInt8) :
    Keeps sizes (locAddLocked loc) := by
  intro ctx
  unfold locAddLocked
  rw [wp_bind]
  refine wp_wrlock trivial (fun _ => trivial) ?_ fun _ _ _ => rfl
  intro env' _ _
  simp only [↓reduceIte, wp_bind, wp_unlock, wp_pure]
  have keeps : Keeps held (locAdd loc) :=
    keeps_locAdd (fun _ keeps => keeps_held_onLoc keeps)
      (fun _ _ => rfl) loc
  refine wp_imp (keeps _) ?_
  intro result ctx' same
  exact congrArg Prod.snd same

end KcndbDb

/-- A turn of a thread: a part of an open, or an added locator. -/
inductive Turn where
  | openFiles (loc table : Block)
  | initLocked
  | locAdd (loc : List UInt8)

/-- A turn with the answers it gets and what it leaves. -/
structure TurnDone where
  tid : Nat
  turn : Turn
  errno : Errno
  trace : Trace
  ok : Bool
  before : List UInt8
  after : List UInt8

/-- The shared table, and the files of threads that are still opening it. -/
structure OpeningTable where
  table : Table
  files : Nat → Option KcndbDbTable

namespace OpeningTable

/-- The files on disk before any thread opened them. -/
def start (loc table : List UInt8) : OpeningTable where
  table := {
    base := kcndbDbBaseInitializer
    loc := loc
    table := table
    handles := fun _ => none
  }
  files := fun _ => none

/-- Run a turn of a thread. -/
def exec (s : OpeningTable) (tid : Nat) (turn : Turn) (env : Env) :
    Except Stop (Bool × Env × OpeningTable) :=
  match turn with
  | .openFiles loc table =>
      let kdt : KcndbDbTable := {
        kdtLoc := FileHandle.new loc
        kdtTable := FileHandle.new table
      }
      match KcndbDb.openFiles (s.table.view tid kdt env) with
      | .ok (ok, ctx) =>
          .ok
            (ok, ctx.env,
              { s with
                files := Function.update s.files tid
                  (if ok then some kdt else none) })
      | .error reason => .error reason
  | .initLocked =>
      match s.files tid with
      | some kdt =>
          match KcndbDb.initLocked (s.table.view tid kdt env) with
          | .ok (ok, ctx) =>
              .ok
                (ok, ctx.env,
                  { table := s.table.after ctx
                      (if ok then some (Table.handleOf ctx) else none)
                    files := Function.update s.files tid none })
          | .error reason => .error reason
      | none => .error .wild
  | .locAdd loc =>
      match s.table.handles tid with
      | some kdt =>
          match KcndbDb.locAddLocked loc (s.table.view tid kdt env) with
          | .ok (idx, ctx) =>
              .ok
                (idx.isSome, ctx.env,
                  { s with
                    table := s.table.after ctx
                      (some (Table.handleOf ctx)) })
          | .error reason => .error reason
      | none => .error .wild

/-- A turn that returned, answered exactly by its trace. -/
structure Step (s : OpeningTable) (done : TurnDone) (s' : OpeningTable) :
    Prop where
  returns : ∃ errno,
    s.exec done.tid done.turn
        { errno := done.errno, trace := done.trace } =
      .ok (done.ok, { errno := errno, trace := [] }, s')
  before_eq : done.before = s.table.loc
  after_eq : done.after = s'.table.loc

end OpeningTable

namespace TurnDone

/-- The turn adds a locator. -/
def AddsLocator (done : TurnDone) : Prop :=
  ∃ loc, done.turn = .locAdd loc

/-- The turn belongs to an open and changes the locator file. -/
def WritesIndex (done : TurnDone) : Prop :=
  ¬ done.AddsLocator ∧ done.after ≠ done.before

/-- The turn completes an open. -/
def Opens (done : TurnDone) : Prop :=
  done.turn = .initLocked ∧ done.ok = true

end TurnDone

namespace OpeningTable

open TableCtx

/-- What a turn leaves of the locator file and its cached size. -/
inductive Turned (s : OpeningTable) (done : TurnDone) (s' : OpeningTable) :
    Prop where
  | opening :
      ¬ done.AddsLocator → ¬ done.Opens →
      s'.table = s.table →
      Turned s done s'
  | inited :
      ¬ done.AddsLocator →
      Table.LocOpened s.table done.ok s'.table →
      Turned s done s'
  | added (tid : Nat) (kdt : KcndbDbTable) :
      done.AddsLocator →
      s.table.handles tid = some kdt →
      s.table.loc.length ≤ s'.table.loc.length →
      s'.table.base.kdbLocsize + s.table.loc.length =
        s.table.base.kdbLocsize + s'.table.loc.length →
      Turned s done s'

/-- The buffers of the threads, as far as the locator file needs them. -/
structure Sized (s : OpeningTable) : Prop where
  handles : ∀ tid kdt, s.table.handles tid = some kdt →
    kdt.kdtLoc.kb.size = kcndbFileBufsiz
  files : ∀ tid kdt, s.files tid = some kdt →
    kdt.kdtLoc.kb.Holds kcndbFileBufsiz 0 [] []

variable {s s' : OpeningTable} {done : TurnDone}

/-- A turn that opens files leaves the table alone. -/
theorem Step.openFiles
    (step : s.Step done s') {loc table : Block}
    (turn : done.turn = .openFiles loc table) :
    s'.table = s.table ∧
      ∀ tid kdt, s'.files tid = some kdt →
        s.files tid = some kdt ∨ kdt.kdtLoc = FileHandle.new loc := by
  obtain ⟨⟨errno, returns⟩, _, _⟩ := step
  unfold exec at returns
  rw [turn] at returns
  simp only at returns
  split at returns
  · simp only [Except.ok.injEq, Prod.mk.injEq] at returns
    obtain ⟨_, _, rfl⟩ := returns
    refine ⟨rfl, fun tid kdt files => ?_⟩
    simp only at files
    by_cases own : tid = done.tid
    · rw [own, Function.update_self] at files
      split at files
      · obtain rfl := Option.some.inj files
        exact Or.inr rfl
      · cases files
    · rw [Function.update_of_ne own] at files
      exact Or.inl files
  · cases returns

/-- A turn with the lock ran the rest of the open. -/
theorem Step.initLocked
    (step : s.Step done s') (turn : done.turn = .initLocked) :
    ∃ kdt ctx,
      s.files done.tid = some kdt ∧
      KcndbDb.initLocked
          (s.table.view done.tid kdt
            { errno := done.errno, trace := done.trace }) =
        .ok (done.ok, ctx) ∧
      s' = {
        table := s.table.after ctx
          (if done.ok then some (Table.handleOf ctx) else none)
        files := Function.update s.files done.tid none } := by
  obtain ⟨⟨errno, returns⟩, _, _⟩ := step
  unfold exec at returns
  rw [turn] at returns
  simp only at returns
  split at returns
  · rename_i kdt files
    split at returns
    · rename_i ok ctx ran
      simp only [Except.ok.injEq, Prod.mk.injEq] at returns
      obtain ⟨okEq, _, tableEq⟩ := returns
      rw [← okEq]
      exact ⟨kdt, ctx, files, ran, tableEq.symm⟩
    · cases returns
  · cases returns

/-- A turn that adds a locator ran `kcndb_db_loc_add`. -/
theorem Step.locAdd
    (step : s.Step done s') {loc : List UInt8}
    (turn : done.turn = .locAdd loc) :
    ∃ kdt idx ctx,
      s.table.handles done.tid = some kdt ∧
      KcndbDb.locAddLocked loc
          (s.table.view done.tid kdt
            { errno := done.errno, trace := done.trace }) =
        .ok (idx, ctx) ∧
      s' = {
        s with
        table := s.table.after ctx (some (Table.handleOf ctx)) } := by
  obtain ⟨⟨errno, returns⟩, _, _⟩ := step
  unfold exec at returns
  rw [turn] at returns
  simp only at returns
  split at returns
  · rename_i kdt handle
    split at returns
    · rename_i idx ctx ran
      simp only [Except.ok.injEq, Prod.mk.injEq] at returns
      obtain ⟨_, _, tableEq⟩ := returns
      exact ⟨kdt, idx, ctx, handle, ran, tableEq.symm⟩
    · cases returns
  · cases returns

/-- Each turn does to the table what its kind allows. -/
theorem Step.turned
    (step : s.Step done s') (sized : s.Sized)
    (clean : Trace.Clean done.trace) :
    s.Turned done s' := by
  cases turn : done.turn with
  | openFiles loc table =>
      refine .opening ?_ ?_ (step.openFiles turn).1
      · rintro ⟨loc, adds⟩
        rw [turn] at adds
        cases adds
      · rintro ⟨opens, _⟩
        rw [turn] at opens
        cases opens
  | initLocked =>
      obtain ⟨kdt, ctx, files, ran, rfl⟩ := step.initLocked turn
      have fresh := sized.files _ _ files
      have opened :=
        wp_ok (KcndbDb.wp_initLocked (by exact fresh)) ran
      refine .inited ?_ ?_
      · rintro ⟨loc, adds⟩
        rw [turn] at adds
        cases adds
      · generalize done.ok = ok at opened
        cases opened with
        | refused env' unclean =>
            exact absurd clean unclean
        | inited env' _ ctx₁ suffix inited =>
            cases inited.loc with
            | kept _ _ contentEq locsize known =>
                exact .kept contentEq locsize known
            | created _ unknown nothing contentEq locsize =>
                exact .created unknown nothing contentEq locsize
            | torn _ torn =>
                exact absurd (torn.of_suffix suffix) clean.not_torn
  | locAdd loc =>
      obtain ⟨kdt, idx, ctx, handle, ran, rfl⟩ := step.locAdd turn
      have sizeEq := sized.handles _ _ handle
      have added :=
        wp_ok (KcndbDb.wp_locAddLocked (by exact sizeEq)) ran
      rcases added with unclean | follows
      · exact absurd clean unclean
      · exact .added done.tid kdt ⟨loc, turn⟩ handle follows.grown
          follows.locsize

/-- The handles of a thread stem from an open that completed. -/
theorem Step.handled
    (step : s.Step done s') {tid : Nat} {kdt : KcndbDbTable}
    (handle : s'.table.handles tid = some kdt) :
    (∃ kdt, s.table.handles tid = some kdt) ∨ done.Opens := by
  cases turn : done.turn with
  | openFiles loc table =>
      rw [(step.openFiles turn).1] at handle
      exact Or.inl ⟨kdt, handle⟩
  | initLocked =>
      obtain ⟨_, ctx, _, _, rfl⟩ := step.initLocked turn
      rcases Table.handles_after handle with ⟨_, old⟩ | ⟨_, new⟩
      · exact Or.inl ⟨kdt, old⟩
      · refine Or.inr ⟨turn, ?_⟩
        by_contra failed
        rw [if_neg failed] at new
        cases new
  | locAdd loc =>
      obtain ⟨kdt₀, _, ctx, handle₀, ran, rfl⟩ := step.locAdd turn
      have sizes := (KcndbDb.keeps_sizes_locAddLocked loc).ok ran
      have tidEq : ctx.tid = done.tid := congrArg Prod.fst sizes
      rcases Table.handles_after handle with ⟨_, old⟩ | ⟨own, _⟩
      · exact Or.inl ⟨kdt, old⟩
      · rw [own, tidEq]
        exact Or.inl ⟨kdt₀, handle₀⟩

/-- The buffers of the threads keep their sizes. -/
theorem Step.sized (step : s.Step done s') (sized : s.Sized) :
    s'.Sized := by
  obtain ⟨handles, files⟩ := sized
  cases turn : done.turn with
  | openFiles loc table =>
      obtain ⟨tableEq, opened⟩ := step.openFiles turn
      refine ⟨by rw [tableEq]; exact handles, fun tid kdt file => ?_⟩
      rcases opened tid kdt file with old | new
      · exact files tid kdt old
      · have holds := holds_new loc.val
        rw [loc.property] at holds
        rw [new]
        exact holds
  | initLocked =>
      obtain ⟨kdt₀, ctx, file₀, ran, rfl⟩ := step.initLocked turn
      have sizes := KcndbDb.keeps_sizes_initLocked.ok ran
      have sizeEq : ctx.loc.kb.size = kdt₀.kdtLoc.kb.size :=
        congrArg (fun sizes => sizes.2.1) sizes
      refine ⟨fun tid kdt handle => ?_, fun tid kdt file => ?_⟩
      · rcases Table.handles_after handle with ⟨_, old⟩ | ⟨_, new⟩
        · exact handles tid kdt old
        · split at new
          · obtain rfl := Option.some.inj new
            exact sizeEq.trans (files _ _ file₀).size_eq
          · cases new
      · simp only at file
        by_cases own : tid = done.tid
        · rw [own, Function.update_self] at file
          cases file
        · rw [Function.update_of_ne own] at file
          exact files tid kdt file
  | locAdd loc =>
      obtain ⟨kdt₀, _, ctx, handle₀, ran, rfl⟩ := step.locAdd turn
      have sizes := (KcndbDb.keeps_sizes_locAddLocked loc).ok ran
      have sizeEq : ctx.loc.kb.size = kdt₀.kdtLoc.kb.size :=
        congrArg (fun sizes => sizes.2.1) sizes
      refine ⟨fun tid kdt handle => ?_, files⟩
      rcases Table.handles_after handle with ⟨_, old⟩ | ⟨_, new⟩
      · exact handles tid kdt old
      · obtain rfl := Option.some.inj new
        exact sizeEq.trans (handles _ _ handle₀)

/-- What a run of turns without errors has done so far. -/
structure Grown (dones : List TurnDone) (s : OpeningTable) : Prop where
  sized : s.Sized
  cached : s.table.base.kdbLocsize = 0 ∨
    s.table.base.kdbLocsize = s.table.loc.length
  whole : s.table.loc = [] ∨
    KcndbDb.locIndextablesiz ≤ s.table.loc.length
  known : (∃ done ∈ dones, done.Opens) → 0 < s.table.base.kdbLocsize
  handles : ∀ tid kdt, s.table.handles tid = some kdt →
    ∃ done ∈ dones, done.Opens
  empty : s.table.loc = [] → ∀ done ∈ dones,
    ¬ done.WritesIndex ∧ ¬ done.AddsLocator
  ordered : dones.Pairwise fun earlier later =>
    later.WritesIndex → ¬ earlier.WritesIndex ∧ ¬ earlier.AddsLocator
  written : ∀ done ∈ dones, done.WritesIndex →
    done.before = [] ∧
      done.after = List.replicate KcndbDb.locIndextablesiz 0

theorem grown_start
    {loc table : List UInt8}
    (whole : loc = [] ∨ KcndbDb.locIndextablesiz ≤ loc.length) :
    Grown [] (start loc table) where
  sized := ⟨nofun, nofun⟩
  cached := Or.inl rfl
  whole := whole
  known := by simp
  handles := nofun
  empty := by simp
  ordered := .nil
  written := by simp

namespace Grown

variable {dones : List TurnDone}

/-- Once an open has completed, the cached size is the length. -/
theorem locsize_eq (grown : Grown dones s)
    (opened : ∃ done ∈ dones, done.Opens) :
    s.table.base.kdbLocsize = s.table.loc.length := by
  have known := grown.known opened
  rcases grown.cached with zero | length
  · omega
  · exact length

/-- A thread with a handle finds an index. -/
theorem indexed (grown : Grown dones s)
    {tid : Nat} {kdt : KcndbDbTable}
    (handle : s.table.handles tid = some kdt) :
    s.table.loc ≠ [] ∧
      s.table.base.kdbLocsize = s.table.loc.length := by
  have opened := grown.handles tid kdt handle
  have known := grown.known opened
  have length := grown.locsize_eq opened
  refine ⟨fun empty => ?_, length⟩
  rw [length, empty] at known
  exact absurd known (Nat.lt_irrefl 0)

/-- What a turn adds to the history, from what it leaves of the file. -/
theorem snoc (grown : Grown dones s) (step : s.Step done s')
    (cached : s'.table.base.kdbLocsize = 0 ∨
      s'.table.base.kdbLocsize = s'.table.loc.length)
    (whole : s'.table.loc = [] ∨
      KcndbDb.locIndextablesiz ≤ s'.table.loc.length)
    (known : s.table.base.kdbLocsize ≤ s'.table.base.kdbLocsize ∧
      (done.Opens → 0 < s'.table.base.kdbLocsize))
    (longer : s.table.loc.length ≤ s'.table.loc.length)
    (writes : done.WritesIndex → s.table.loc = [] ∧
      s'.table.loc = List.replicate KcndbDb.locIndextablesiz 0)
    (adds : done.AddsLocator → s.table.loc ≠ []) :
    Grown (dones ++ [done]) s' where
  sized := step.sized grown.sized
  cached := cached
  whole := whole
  known := by
    rintro ⟨other, member, opens⟩
    rcases List.mem_append.mp member with old | new
    · have before := grown.known ⟨other, old, opens⟩
      omega
    · rw [List.mem_singleton.mp new] at opens
      exact known.2 opens
  handles := by
    intro tid kdt handle
    rcases step.handled handle with ⟨kdt', old⟩ | opens
    · obtain ⟨other, member, opens⟩ := grown.handles tid kdt' old
      exact ⟨other, List.mem_append_left _ member, opens⟩
    · exact ⟨done, by simp, opens⟩
  empty := by
    intro empty other member
    have before : s.table.loc = [] := by
      rw [empty] at longer
      exact List.length_eq_zero_iff.mp (Nat.le_zero.mp longer)
    rcases List.mem_append.mp member with old | new
    · exact grown.empty before other old
    · rw [List.mem_singleton.mp new]
      refine ⟨fun written => ?_, fun added => adds added before⟩
      have length := congrArg List.length (writes written).2
      rw [empty, List.length_replicate] at length
      exact absurd length (by decide)
  ordered := by
    refine List.pairwise_append.mpr
      ⟨grown.ordered, List.pairwise_singleton _ _, ?_⟩
    intro earlier old later new written
    rw [List.mem_singleton.mp new] at written
    exact grown.empty (writes written).1 earlier old
  written := by
    intro other member written
    rcases List.mem_append.mp member with old | new
    · exact grown.written other old written
    · rw [List.mem_singleton.mp new] at written ⊢
      rw [step.before_eq, step.after_eq]
      exact writes written

/-- Every turn without errors keeps the history. -/
theorem step (grown : Grown dones s) (step : s.Step done s')
    (clean : Trace.Clean done.trace) :
    Grown (dones ++ [done]) s' := by
  have same : s'.table.loc = s.table.loc → ¬ done.WritesIndex := by
    rintro locEq ⟨_, changed⟩
    rw [step.before_eq, step.after_eq] at changed
    exact changed locEq
  cases step.turned grown.sized clean with
  | opening noAdd noOpen tableEq =>
      refine grown.snoc step ?_ ?_ ?_ ?_ ?_ fun adds => absurd adds noAdd
      · rw [tableEq]
        exact grown.cached
      · rw [tableEq]
        exact grown.whole
      · rw [tableEq]
        exact ⟨Nat.le_refl _, fun opens => absurd opens noOpen⟩
      · rw [tableEq]
      · exact fun writes => absurd writes (same (by rw [tableEq]))
  | inited noAdd opened =>
      cases opened with
      | kept locEq sizes known =>
          refine grown.snoc step ?_ ?_ ?_ ?_ ?_
            fun adds => absurd adds noAdd
          · rw [locEq]
            rcases sizes with kept | ⟨_, fetched⟩
            · rw [kept]
              exact grown.cached
            · exact Or.inr fetched
          · rw [locEq]
            exact grown.whole
          · refine ⟨?_, fun opens => known opens.2⟩
            rcases sizes with kept | ⟨zero, _⟩
            · omega
            · omega
          · rw [locEq]
          · exact fun writes => absurd writes (same locEq)
      | created unknown nothing locEq sizeEq =>
          have length : s'.table.loc.length =
              KcndbDb.locIndextablesiz := by
            rw [locEq, List.length_replicate]
          refine grown.snoc step ?_ ?_ ?_ ?_ (fun _ => ⟨nothing, locEq⟩)
            fun adds => absurd adds noAdd
          · exact Or.inr (sizeEq.trans length.symm)
          · exact Or.inr length.ge
          · rw [sizeEq, unknown]
            exact ⟨Nat.zero_le _, fun _ => by decide⟩
          · rw [nothing]
            exact Nat.zero_le _
  | added tid kdt adds handle longer follows =>
      obtain ⟨some, length⟩ := grown.indexed handle
      have whole := grown.whole.resolve_left some
      refine grown.snoc step ?_ ?_ ?_ longer ?_ fun _ => some
      · omega
      · omega
      · refine ⟨by omega, fun opens => ?_⟩
        obtain ⟨loc, turn⟩ := adds
        rw [opens.1] at turn
        cases turn
      · exact fun writes => absurd adds writes.1

end Grown

/--
Opens and additions in any order: the index table is written at most once and
before any locator, no open changes a locator file that has bytes, and the
cached size is the length of the file as soon as an open has completed.
-/
theorem index_written_once
    {loc table : List UInt8} {dones : List TurnDone} {s : OpeningTable}
    (whole : loc = [] ∨ KcndbDb.locIndextablesiz ≤ loc.length)
    (run :
      Run (Guarded Step fun _ done => Trace.Clean done.trace)
        (start loc table) dones s) :
    (dones.Pairwise fun earlier later =>
      later.WritesIndex →
        ¬ earlier.WritesIndex ∧ ¬ earlier.AddsLocator) ∧
      (∀ done ∈ dones, done.WritesIndex →
        done.before = [] ∧
          done.after = List.replicate KcndbDb.locIndextablesiz 0) ∧
      (∀ done ∈ dones, ¬ done.AddsLocator → done.before ≠ [] →
        done.after = done.before) ∧
      ((∃ done ∈ dones, done.Opens) →
        s.table.base.kdbLocsize = s.table.loc.length) := by
  have grown : Grown dones s :=
    run.invariant (grown_start whole)
      fun _ _ _ _ grown turn => grown.step turn.1 turn.2
  refine ⟨grown.ordered, grown.written, ?_, grown.locsize_eq⟩
  intro done member noAdd some
  by_contra changed
  exact some (grown.written done member ⟨noAdd, changed⟩).1

/-- A turn of a thread that meets no error. -/
structure Smooth where
  tid : Nat
  turn : Turn
  trace : Trace
  clean : Trace.Clean trace

/-- Perform a turn, if it returns and uses all its answers. -/
def perform (s : OpeningTable) (smooth : Smooth) :
    Option (TurnDone × OpeningTable) :=
  match s.exec smooth.tid smooth.turn
      { errno := 0, trace := smooth.trace } with
  | .ok (ok, env, s') =>
      if env.trace = [] then
        some
          ({ tid := smooth.tid, turn := smooth.turn, errno := 0
             trace := smooth.trace, ok := ok, before := s.table.loc
             after := s'.table.loc }, s')
      else
        none
  | .error _ => none

theorem step_perform
    (s : OpeningTable) (smooth : Smooth) (done : TurnDone)
    (s' : OpeningTable)
    (performed : s.perform smooth = some (done, s')) :
    Guarded Step (fun _ done => Trace.Clean done.trace) s done s' := by
  unfold perform at performed
  split at performed
  · rename_i ok env s₁ ran
    split at performed
    · rename_i finished
      obtain ⟨rfl, rfl⟩ := Prod.mk.inj (Option.some.inj performed)
      refine ⟨⟨⟨env.errno, ?_⟩, rfl, rfl⟩, smooth.clean⟩
      rw [ran, ← finished]
    · cases performed
  · cases performed

/-- A thread opens a new table and adds a locator while another opens it. -/
def overlapping : List Smooth :=
  [{ tid := 0, turn := .openFiles Request.zeros Request.zeros
     trace := [.openFile none, .openFile none]
     clean := by simp [Trace.Clean, Event.Fails] },
   { tid := 1, turn := .openFiles Request.zeros Request.zeros
     trace := [.openFile none, .openFile none]
     clean := by simp [Trace.Clean, Event.Fails] },
   { tid := 0, turn := .initLocked
     trace :=
       [.lock none, .stat none, .stat none, .seek none, .write .full]
     clean := by simp [Trace.Clean, Event.Fails] },
   { tid := 0, turn := .locAdd [97], trace := .lock none :: Request.newLoc
     clean := by simp [Request.newLoc, Trace.Clean, Event.Fails] },
   { tid := 1, turn := .initLocked, trace := [.lock none, .stat none]
     clean := by simp [Trace.Clean, Event.Fails] }]

/-- Such a run, with the length that the file has at its end. -/
theorem index_written_once_overlapping :
    ∃ (dones : List TurnDone) (s : OpeningTable),
      dones.length = 5 ∧ s.table.loc.length = 2059 ∧
        (dones.Pairwise fun earlier later =>
          later.WritesIndex →
            ¬ earlier.WritesIndex ∧ ¬ earlier.AddsLocator) ∧
        (∀ done ∈ dones, done.WritesIndex →
          done.before = [] ∧
            done.after = List.replicate KcndbDb.locIndextablesiz 0) ∧
        (∀ done ∈ dones, ¬ done.AddsLocator → done.before ≠ [] →
          done.after = done.before) ∧
        ((∃ done ∈ dones, done.Opens) →
          s.table.base.kdbLocsize = s.table.loc.length) := by
  let shows : List TurnDone → OpeningTable → Bool := fun dones s =>
    dones.length == 5 && s.table.loc.length == 2059
  have computed :
      (performAll perform (start [] []) overlapping).any
        (fun performed => shows performed.1 performed.2) = true := by
    decide +kernel
  obtain ⟨dones, s, run, shown⟩ := Run.of_shown step_perform computed
  obtain ⟨count, length⟩ := Bool.and_eq_true_iff.mp shown
  exact ⟨dones, s, beq_iff_eq.mp count, beq_iff_eq.mp length,
    index_written_once (Or.inl rfl) run⟩

end OpeningTable

end Kcn
