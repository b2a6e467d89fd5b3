import Kcn.Answered
import Kcn.Library.Run

namespace Kcn

open Program Bytes KcnBuf KcndbDb TableCtx

/-!
# Runs of `kcndb_db_loc_add`

Calls on one locator file by any threads: the offsets and buffers of the
callers do not matter, since every call starts with a reset and a seek.
As long as locators with one hash are not told apart, the file is indexed by a
map whose entries are the locators added, and every walk ends.
-/

/-- What the threads share of a locator file. -/
structure LocTable where
  content : List UInt8
  locsize : Nat
  deriving DecidableEq

/-- A call that returned: the locator, and the index if it succeeded. -/
structure LocCall where
  loc : List UInt8
  result : Option UInt64

namespace LocTable

/-- A freshly initialised locator file. -/
def initial : LocTable where
  content := List.replicate locIndextablesiz 0
  locsize := locIndextablesiz

/-- A thread sees the file, with some offset and some buffer of its own. -/
structure Seen (s : LocTable) (ctx : TableCtx) : Prop where
  content_eq : ctx.loc.content = s.content
  locsize_eq : ctx.base.kdbLocsize = s.locsize
  size_eq : ctx.loc.kb.size = kcndbFileBufsiz

/--
A call without errors and with full reads, on a locator that a message can
carry.
-/
structure Adds (s : LocTable) (call : LocCall) (s' : LocTable) :
    Prop where
  short : call.loc.length ≤ kcnMsgMaxlocsiz
  returns :
    ∃ ctx ctx',
      s.Seen ctx ∧ ctx.env.trace.Undisturbed ∧
      locAdd call.loc ctx = .ok (call.result, ctx') ∧
      ctx'.env.trace = [] ∧ s'.Seen ctx'
  bounded : s'.content.length ≤ offMax

/-- Locators with one hash are equal to `strncmp` and in length. -/
def Alike (calls : List LocCall) (loc : List UInt8) : Prop :=
  ∀ earlier ∈ calls,
    locHash earlier.loc = locHash loc → sameLoc earlier.loc loc = true

/-- What holds after calls on locators that are not told apart. -/
structure Log
    (calls : List LocCall) (s : LocTable) (buckets : Buckets) :
    Prop where
  indexed : Indexed s.content buckets
  locsize_eq : s.locsize = s.content.length
  bounded : s.content.length ≤ offMax
  stored : ∀ h idx loc,
    buckets h = some (idx, loc) →
      locHash loc = h ∧ ∃ call ∈ calls, call.loc = loc
  added : ∀ call ∈ calls, ∀ idx, call.result = some idx →
    ∃ loc, buckets (locHash call.loc) = some (idx, loc) ∧
      sameLoc loc call.loc = true

theorem log_initial : Log [] initial fun _ => none where
  indexed := Indexed.initial
  locsize_eq := by
    rw [initial, List.length_replicate]
  bounded := by
    rw [initial, List.length_replicate]
    decide
  stored := by simp
  added := by simp

namespace Log

variable {calls : List LocCall} {s s' : LocTable} {buckets : Buckets}
  {call : LocCall}

/-- The bucket of a locator that is not told apart from earlier ones. -/
theorem fits
    (log : Log calls s buckets) {loc : List UInt8}
    (alike : Alike calls loc) :
    LocFits buckets loc := by
  intro idx stored bucket
  obtain ⟨hashEq, earlier, member, rfl⟩ :=
    log.stored _ idx stored bucket
  exact alike earlier member hashEq

/-- A file that grows behind its entries still has the log. -/
theorem grow
    (log : Log calls s buckets) (failed : call.result = none)
    {new : List UInt8}
    (contentEq : s'.content = s.content ++ new)
    (locsizeEq : s'.locsize = s.locsize + new.length)
    (bounded : s'.content.length ≤ offMax) :
    Log (calls ++ [call]) s' buckets := by
  refine ⟨?_, ?_, bounded, ?_, ?_⟩
  · rw [contentEq]
    exact log.indexed.append new
  · rw [locsizeEq, contentEq, List.length_append, log.locsize_eq]
  · intro h idx loc bucket
    obtain ⟨hashEq, earlier, member, locEq⟩ :=
      log.stored h idx loc bucket
    exact ⟨hashEq, earlier, by simp [member], locEq⟩
  · intro other member idx succeeded
    rcases List.mem_append.mp member with earlier | last
    · exact log.added other earlier idx succeeded
    · rw [List.mem_singleton.mp last, failed] at succeeded
      cases succeeded

/--
One call: the locator was stored before, and its index is returned with the
file as it was; it is stored in a vacant bucket; or the call fails and keeps
the log.
-/
theorem step
    (log : Log calls s buckets) (adds : s.Adds call s')
    (alike : Alike calls call.loc) :
    (∃ idx loc, call.result = some idx ∧
        buckets (locHash call.loc) = some (idx, loc) ∧
        sameLoc loc call.loc = true ∧ s' = s) ∨
      (∃ idx, call.result = some idx ∧
        buckets (locHash call.loc) = none ∧
        Log (calls ++ [call]) s'
          (Function.update buckets (locHash call.loc)
            (some (idx, call.loc)))) ∨
      call.result = none ∧ Log (calls ++ [call]) s' buckets := by
  obtain ⟨ctx, ctx', seen, undisturbed, ran, _, seen'⟩ :=
    adds.returns
  have sound : ctx.LocSound buckets := by
    refine ⟨?_, ?_⟩
    · rw [seen.content_eq]
      exact log.indexed
    · rw [seen.locsize_eq, seen.content_eq]
      exact log.locsize_eq
  have bounded : ctx.loc.content.length ≤ offMax := by
    rw [seen.content_eq]
    exact log.bounded
  have added :=
    wp_ok
      (wp_locAdd seen.size_eq sound bounded (log.fits alike))
      ran
  have contents := seen'.content_eq
  have sizes := seen'.locsize_eq
  generalize resultEq : call.result = result at added
  cases added with
  | torn _ torn =>
      exact absurd torn undisturbed.1.not_torn
  | unchanged _ contentEq locsizeEq =>
      refine Or.inr (Or.inr ⟨rfl, ?_⟩)
      have grown : s'.content = s.content ++ [] := by
        rw [List.append_nil, ← contents, contentEq,
          seen.content_eq]
      refine log.grow resultEq grown ?_ adds.bounded
      rw [List.length_nil, Nat.add_zero, ← sizes, locsizeEq,
        seen.locsize_eq]
  | unpatched _ contentEq locsizeEq =>
      refine Or.inr (Or.inr ⟨rfl, ?_⟩)
      have grown : s'.content = s.content ++ entryBytes call.loc := by
        rw [← contents, contentEq, seen.content_eq]
      refine log.grow resultEq grown ?_ adds.bounded
      rw [← sizes, locsizeEq, seen.locsize_eq]
  | found _ idx stored bucket matched contentEq locsizeEq =>
      refine Or.inl ⟨idx, stored, rfl, bucket, matched, ?_⟩
      rw [contentEq, seen.content_eq] at contents
      rw [locsizeEq, seen.locsize_eq] at sizes
      cases s
      cases s'
      simp only at contents sizes
      rw [contents, sizes]
  | linked _ idx bucket idxEq contentEq locsizeEq =>
      refine Or.inr (Or.inl ⟨idx, rfl, bucket, ?_⟩)
      rw [contentEq] at contents
      rw [locsizeEq, sound.locsize] at sizes
      have slots := sound.indexed.slots
      have inside := slotOff_inside (locHash_lt call.loc)
      refine ⟨?_, ?_, adds.bounded, ?_, ?_⟩
      · rw [← contents]
        exact sound.indexed.insert adds.short idxEq
      · rw [← contents, ← sizes,
          length_overwrite _ _ _
            (by rw [List.length_append]; omega),
          List.length_append, length_bytes64]
        omega
      · intro h idx' loc' bucket'
        by_cases same : h = locHash call.loc
        · rw [same, Function.update_self] at bucket'
          obtain ⟨_, rfl⟩ := Prod.mk.inj (Option.some.inj bucket')
          exact ⟨same.symm, call, by simp, rfl⟩
        · rw [Function.update_of_ne same] at bucket'
          obtain ⟨hashEq, earlier, member, locEq⟩ :=
            log.stored h idx' loc' bucket'
          exact ⟨hashEq, earlier, by simp [member], locEq⟩
      · intro other member idx' succeeded
        rcases List.mem_append.mp member with earlier | last
        · obtain ⟨loc', bucket', matched⟩ :=
            log.added other earlier idx' succeeded
          have different : locHash other.loc ≠ locHash call.loc := by
            intro same
            rw [same, bucket] at bucket'
            cases bucket'
          refine ⟨loc', ?_, matched⟩
          rw [Function.update_of_ne different]
          exact bucket'
        · rw [List.mem_singleton.mp last, resultEq] at succeeded
          obtain rfl := Option.some.inj succeeded
          rw [List.mem_singleton.mp last, Function.update_self]
          exact ⟨call.loc, rfl, sameLoc_self call.loc⟩

end Log

/-- The locators of all calls of a run that share a hash are not told apart. -/
def AllAlike (calls : List LocCall) : Prop :=
  ∀ first ∈ calls, ∀ second ∈ calls,
    locHash first.loc = locHash second.loc →
      sameLoc first.loc second.loc = true

/-- The file is indexed if the calls so far allow it. -/
def Logged (calls : List LocCall) (s : LocTable) : Prop :=
  AllAlike calls → ∃ buckets, Log calls s buckets

variable {calls : List LocCall} {s : LocTable}

/-- A run keeps the file indexed by a map of the locators added. -/
theorem logged_run (run : Run Adds initial calls s) :
    Logged calls s := by
  refine run.invariant (fun _ => ⟨_, log_initial⟩) ?_
  intro calls s call s' earlier adds alike
  obtain ⟨buckets, log⟩ :=
    earlier fun first inFirst second inSecond =>
      alike first (by simp [inFirst]) second (by simp [inSecond])
  have fits : Alike calls call.loc := by
    intro other member
    exact alike other (by simp [member]) call (by simp)
  rcases log.step adds fits with
      ⟨idx, loc, resultEq, bucket, matched, rfl⟩ |
        ⟨_, _, _, later⟩ | ⟨_, later⟩
  · refine ⟨buckets, log.indexed, log.locsize_eq, log.bounded,
      ?_, ?_⟩
    · intro h idx stored bucket'
      obtain ⟨hashEq, other, member, locEq⟩ :=
        log.stored h idx stored bucket'
      exact ⟨hashEq, other, by simp [member], locEq⟩
    · intro other member idx' succeeded
      rcases List.mem_append.mp member with before | last
      · exact log.added other before idx' succeeded
      · rw [List.mem_singleton.mp last, resultEq] at succeeded
        obtain rfl := Option.some.inj succeeded
        rw [List.mem_singleton.mp last]
        exact ⟨loc, bucket, matched⟩
  · exact ⟨_, later⟩
  · exact ⟨_, later⟩

/-- The state of a caller that gets the given answers. -/
def answered (ctx : TableCtx) (trace : Trace) : TableCtx :=
  { ctx with env := { ctx.env with trace := trace } }

/-- The loop of a call ends: finitely many answers are enough for it. -/
def WalkEnds (s : LocTable) (loc : List UInt8) : Prop :=
  ∀ ctx, s.Seen ctx →
    ∃ trace result ctx',
      trace.Undisturbed ∧
      locFind loc (answered ctx trace) = .ok (result, ctx') ∧
      ctx'.env.trace = []

/-- A call for the locator returns the index and leaves the file alone. -/
def Finds (s : LocTable) (loc : List UInt8) (idx : UInt64) : Prop :=
  ∀ ctx, s.Seen ctx →
    ∃ trace ctx',
      trace.Undisturbed ∧
      locAdd loc (answered ctx trace) = .ok (some idx, ctx') ∧
      ctx'.env.trace = [] ∧ s.Seen ctx'

theorem Seen.answered
    {ctx : TableCtx} (seen : s.Seen ctx) (trace : Trace) :
    s.Seen (answered ctx trace) :=
  ⟨seen.content_eq, seen.locsize_eq, seen.size_eq⟩

namespace Log

variable {buckets : Buckets}

theorem walkEnds (log : Log calls s buckets) (loc : List UInt8) :
    s.WalkEnds loc := by
  intro ctx seen
  have seen' := seen.answered (walkAnswers buckets (locHash loc))
  have contentEq := seen'.content_eq
  obtain ⟨result, ctx', ran, done, _⟩ :=
    locFind_returns
      (by rw [contentEq]; exact log.indexed) seen'.size_eq
      (by rw [contentEq]; exact log.bounded) rfl
  exact ⟨_, result, ctx', undisturbed_walkAnswers _ _, ran, done⟩

/-- A locator that was added before is found. -/
theorem finds
    (log : Log calls s buckets)
    {call : LocCall} (member : call ∈ calls)
    {idx : UInt64} (succeeded : call.result = some idx) :
    s.Finds call.loc idx := by
  intro ctx seen
  have seen' :=
    seen.answered (walkAnswers buckets (locHash call.loc))
  have contentEq := seen'.content_eq
  obtain ⟨stored, bucket, matched⟩ :=
    log.added call member idx succeeded
  obtain ⟨result, ctx', ran, done, found⟩ :=
    locFind_returns
      (by rw [contentEq]; exact log.indexed) seen'.size_eq
      (by rw [contentEq]; exact log.bounded) rfl
  have resultEq := found idx stored bucket matched
  subst resultEq
  have keeps := (keeps_locFixed_locFind call.loc).ok ran
  simp only [locFixed, KcndbFile.fixed, locLens, Prod.mk.injEq]
    at keeps
  obtain ⟨_, baseEq, _, contentEq', sizeEq⟩ := keeps
  refine ⟨walkAnswers buckets (locHash call.loc), ctx',
    undisturbed_walkAnswers _ _, ?_, done, ?_⟩
  · rw [locAdd, bind_of_ok ran]
    rfl
  · refine ⟨contentEq'.trans seen.content_eq, ?_,
      sizeEq.trans seen.size_eq⟩
    rw [baseEq]
    exact seen.locsize_eq

end Log

/--
The chain of every bucket is finite and has exactly the distinct locators
added with that hash, each once.
-/
def HoldsExactly (s : LocTable) (calls : List LocCall) : Prop :=
  ∀ h < locHashsiz,
    ∃ idxs,
      Chain s.content (slotOff h) idxs ∧
      (idxs.map fun idx => locAt s.content idx.toNat).Nodup ∧
      ∀ loc,
        loc ∈ idxs.map (fun idx => locAt s.content idx.toNat) ↔
          locHash loc = h ∧ ∃ call ∈ calls, call.loc = loc

/-- No two different locators of the run have one hash. -/
def Separate (calls : List LocCall) : Prop :=
  ∀ first ∈ calls, ∀ second ∈ calls,
    locHash first.loc = locHash second.loc →
      first.loc = second.loc

theorem Separate.allAlike (separate : Separate calls) :
    AllAlike calls := by
  intro first inFirst second inSecond same
  rw [separate first inFirst second inSecond same]
  exact sameLoc_self _

namespace Log

variable {buckets : Buckets}

theorem holdsExactly
    (log : Log calls s buckets) (separate : Separate calls)
    (succeeded : ∀ call ∈ calls, call.result ≠ none) :
    s.HoldsExactly calls := by
  intro h bound
  refine ⟨_, log.indexed.chain bound, ?_⟩
  cases bucket : buckets h with
  | none =>
      refine ⟨List.nodup_nil, ?_⟩
      intro loc
      simp only [Option.map_none, Option.toList_none, List.map_nil,
        List.not_mem_nil, false_iff]
      rintro ⟨rfl, call, member, rfl⟩
      obtain ⟨idx, resultEq⟩ :=
        Option.ne_none_iff_exists'.mp (succeeded call member)
      obtain ⟨stored, taken, _⟩ := log.added call member idx resultEq
      rw [bucket] at taken
      cases taken
  | some entry =>
      obtain ⟨idx, stored⟩ := entry
      have entryAt := (log.indexed.taken h bound idx stored bucket).entry
      obtain ⟨hashEq, call, member, rfl⟩ :=
        log.stored h idx stored bucket
      refine ⟨by simp, ?_⟩
      intro loc
      simp only [Option.map_some, Option.toList_some, List.map_cons,
        List.map_nil, List.mem_singleton, entryAt.locAt_eq]
      constructor
      · rintro rfl
        exact ⟨hashEq, call, member, rfl⟩
      · rintro ⟨hashEq', other, inOther, rfl⟩
        exact separate other inOther call member
          (hashEq'.trans hashEq.symm)

end Log

/-! ### Runs that are computed -/

/-- A call of a thread with a new buffer. -/
def fresh (s : LocTable) (trace : Trace) : TableCtx where
  tid := 0
  base := {
    kdbLocsize := s.locsize
    kdbTablesize := 0
    kdbLock := RwLock.initializer
  }
  loc := {
    content := s.content
    off := 0
    kb := KcnBuf.new (List.replicate kcndbFileBufsiz 0)
  }
  table := { content := [], off := 0, kb := KcnBuf.new [] }
  env := { errno := 0, trace := trace }
  delivered := []

/-- The answers for a new entry, with or without an entry in its bucket. -/
def addAnswers (occupied : Bool) : Trace :=
  oneRead ++ (if occupied then oneRead else []) ++
    [.seek none, .write .full, .seek none, .write .full]

theorem undisturbed_addAnswers (occupied : Bool) :
    (addAnswers occupied).Undisturbed := by
  cases occupied <;>
    simp [addAnswers, Trace.Undisturbed, Trace.Clean, oneRead,
      Event.Fails, Event.ReadsFull]

/-- Add a locator whose bucket is vacant or has one other entry. -/
def add (s : LocTable) (request : List UInt8 × Bool) :
    Option (LocCall × LocTable) :=
  match locAdd request.1 (s.fresh (addAnswers request.2)) with
  | .ok (result, ctx') =>
      if request.1.length ≤ kcnMsgMaxlocsiz ∧ ctx'.env.trace = [] ∧
          ctx'.loc.kb.size = kcndbFileBufsiz ∧
          ctx'.loc.content.length ≤ offMax then
        some
          ({ loc := request.1, result := result },
            { content := ctx'.loc.content
              locsize := ctx'.base.kdbLocsize })
      else
        none
  | .error _ => none

theorem adds_add
    (s : LocTable) (request : List UInt8 × Bool) (call : LocCall)
    (s' : LocTable) (added : s.add request = some (call, s')) :
    s.Adds call s' := by
  unfold add at added
  split at added
  · rename_i result ctx' ran
    split at added
    · rename_i fine
      obtain ⟨short, done, sizeEq, bounded⟩ := fine
      obtain ⟨rfl, rfl⟩ := Prod.mk.inj (Option.some.inj added)
      have seen : s.Seen (s.fresh (addAnswers request.2)) :=
        ⟨rfl, rfl, List.length_replicate⟩
      exact ⟨short, ⟨_, ctx', seen, undisturbed_addAnswers _,
        ran, done, rfl, rfl, sizeEq⟩, bounded⟩
    · cases added
  · cases added

/-- Two locators were added, and the first one at the end of the slots. -/
def addedTwo (calls : List LocCall) (_ : LocTable) : Bool :=
  calls.map (fun call => (call.loc, call.result)) ==
    [([1], some 2048), ([2], some 2059)]

/-- The calls of such a run. -/
theorem calls_of_addedTwo
    {calls : List LocCall} {s : LocTable}
    (shown : addedTwo calls s = true) :
    calls = [⟨[1], some 2048⟩, ⟨[2], some 2059⟩] := by
  have entries := beq_iff_eq.mp shown
  match calls with
  | [⟨_, _⟩, ⟨_, _⟩] =>
      simp only [List.map_cons, List.map_nil, List.cons.injEq,
        Prod.mk.injEq, and_true] at entries
      obtain ⟨⟨rfl, rfl⟩, rfl, rfl⟩ := entries
      rfl

/-- A run that adds two locators. -/
theorem run_two :
    ∃ s, Run Adds initial
      [⟨[1], some 2048⟩, ⟨[2], some 2059⟩] s := by
  obtain ⟨calls, s, run, shown⟩ :=
    Run.of_shown adds_add
      (show
        (performAll add initial [([1], false), ([2], false)]).any
            (fun performed => addedTwo performed.1 performed.2) = true
        by decide +kernel)
  rw [calls_of_addedTwo shown] at run
  exact ⟨s, run⟩

theorem separate_two :
    Separate [⟨[1], some 2048⟩, ⟨[2], some 2059⟩] := by
  have first : locHash [1] = 83 := by decide
  have second : locHash [2] = 84 := by decide
  simp [Separate, first, second]

/--
The locator hash table: after every run of successful calls in which no two
different locators have one hash, every chain is exact, and a locator that was
added before keeps its index and does not grow the file.
-/
theorem chains_exact
    (run : Run Adds initial calls s)
    (succeeded : ∀ call ∈ calls, call.result ≠ none)
    (separate : Separate calls) :
    s.HoldsExactly calls ∧
      ∀ earlier ∈ calls, ∀ idx, earlier.result = some idx →
        s.Finds earlier.loc idx ∧
        ∀ call s', s.Adds call s' → call.result ≠ none →
          call.loc = earlier.loc → call.result = some idx ∧ s' = s := by
  obtain ⟨buckets, log⟩ := logged_run run separate.allAlike
  refine ⟨log.holdsExactly separate succeeded, ?_⟩
  intro earlier member idx resultEq
  refine ⟨log.finds member resultEq, ?_⟩
  intro call s' adds returned locEq
  obtain ⟨stored, bucket, _⟩ := log.added earlier member idx resultEq
  have alike : Alike calls call.loc := by
    intro other inOther same
    rw [locEq] at same ⊢
    rw [separate other inOther earlier member same]
    exact sameLoc_self _
  rcases log.step adds alike with
      ⟨idx', loc, resultEq', bucket', _, rfl⟩ |
        ⟨_, _, vacant, _⟩ | ⟨none, _⟩
  · rw [locEq, bucket] at bucket'
    obtain ⟨rfl, _⟩ := Prod.mk.inj (Option.some.inj bucket')
    exact ⟨resultEq', rfl⟩
  · rw [locEq, bucket] at vacant
    cases vacant
  · exact absurd none returned

/-- A run to which `chains_exact` applies. -/
theorem chains_exact_two :
    ∃ s : LocTable,
      s.HoldsExactly [⟨[1], some 2048⟩, ⟨[2], some 2059⟩] ∧
        s.Finds [1] 2048 ∧ s.Finds [2] 2059 := by
  obtain ⟨s, run⟩ := run_two
  obtain ⟨exact, again⟩ :=
    chains_exact run (by simp) separate_two
  exact ⟨s, exact, (again ⟨[1], some 2048⟩ (by simp) _ rfl).1,
    (again ⟨[2], some 2059⟩ (by simp) _ rfl).1⟩

/-- Bucket 82 has an entry for the first of two locators only. -/
def collided (calls : List LocCall) (s : LocTable) : Bool :=
  calls.all (fun call => call.result.isSome) &&
    calls.map LocCall.loc == [[0], [249]] &&
    slotAt s.content (slotOff 82) == 2048 &&
    locAt s.content 2048 == [0] &&
    slotAt s.content (linkOff s.content 2048) == 0

/--
Two locators with one hash: the second one's offset is stored over the first
slots of the index, and not in the link behind the first one.
-/
theorem chains_not_exact :
    ∃ calls s, Run Adds initial calls s ∧
      (∀ call ∈ calls, call.result ≠ none) ∧
      ¬ s.HoldsExactly calls := by
  obtain ⟨calls, s, run, shown⟩ :=
    Run.of_shown adds_add
      (show
        (performAll add initial [([0], false), ([249], true)]).any
            (fun performed => collided performed.1 performed.2) = true
        by decide +kernel)
  simp only [collided, Bool.and_eq_true, List.all_eq_true,
    beq_iff_eq] at shown
  obtain ⟨⟨⟨⟨succeeded, locs⟩, slot⟩, first⟩, link⟩ := shown
  refine ⟨calls, s, run, ?_, ?_⟩
  · intro call member none
    have some := succeeded call member
    rw [none] at some
    cases some
  · intro exact
    obtain ⟨idxs, chain, _, holds⟩ := exact 82 (by decide)
    have second : [249] ∈ calls.map LocCall.loc := by
      rw [locs]
      simp
    obtain ⟨call, member, locEq⟩ := List.mem_map.mp second
    have stored :=
      (holds [249]).mpr ⟨by decide, call, member, locEq⟩
    cases chain with
    | ends _ =>
        cases stored
    | leads loc slotEq _ _ rest =>
        rw [slot] at slotEq
        subst slotEq
        cases rest with
        | ends _ =>
            rw [List.map_singleton, List.mem_singleton] at stored
            rw [show (2048 : UInt64).toNat = 2048 from rfl, first]
              at stored
            cases stored
        | leads _ linkEq nonzero _ _ =>
            exact nonzero (linkEq.symm.trans link)

/--
The walk ends for every locator after every run in which locators with one
hash are equal to `strncmp` and in length.
-/
theorem walk_ends
    (run : Run Adds initial calls s) (alike : AllAlike calls)
    (loc : List UInt8) :
    s.WalkEnds loc := by
  obtain ⟨buckets, log⟩ := logged_run run alike
  exact log.walkEnds loc

/-- A run to which `walk_ends` applies. -/
theorem walk_ends_two :
    ∃ s, Run Adds initial [⟨[1], some 2048⟩, ⟨[2], some 2059⟩] s ∧
      s.WalkEnds [1] ∧ s.WalkEnds [171] := by
  obtain ⟨s, run⟩ := run_two
  have ends := walk_ends run separate_two.allAlike
  exact ⟨s, run, ends [1], ends [171]⟩

/-- Bucket 2 leads to bytes that are an empty entry leading to itself. -/
def circled (_ : List LocCall) (s : LocTable) : Bool :=
  slotAt s.content (slotOff 2) == 14 &&
    lenAt s.content 14 == 0 &&
    slotAt s.content 16 == 14 &&
    s.content.length == 3595

/--
A misplaced offset can make a slot point just below itself: after these three
calls the walk for a locator of bucket 2 never ends.
-/
theorem walk_circles :
    ∃ calls s, Run Adds initial calls s ∧ ¬ s.WalkEnds [171] := by
  obtain ⟨calls, s, run, shown⟩ :=
    Run.of_shown adds_add
      (show
        (performAll add initial
          [(List.replicate 15 0, false),
            (List.replicate 1501 0, false), ([161], true)]).any
            (fun performed => circled performed.1 performed.2) = true
        by decide +kernel)
  simp only [circled, Bool.and_eq_true, beq_iff_eq] at shown
  obtain ⟨⟨⟨slot, len⟩, link⟩, length⟩ := shown
  refine ⟨calls, s, run, ?_⟩
  have index : (14 : UInt64).toNat = 14 := rfl
  have circular : Circular s.content [171] 14 := by
    refine ⟨by decide, ?_, ?_, ?_, ?_, ?_⟩
    · rw [index, len, length]
      decide
    · rw [index, len]
      decide
    · rw [length]
      decide
    · rw [index, locAt, len]
      rfl
    · rw [index, linkOff, len]
      exact link
  intro ends
  obtain ⟨trace, result, ctx', undisturbed, ran, _⟩ :=
    ends (s.fresh []) ⟨rfl, rfl, List.length_replicate⟩
  have slots : locIndextablesiz ≤ s.content.length := by
    rw [length]
    decide
  have spins :
      wp (locFind [171]) (fun _ _ => False) (· = .starved)
        (answered (s.fresh []) trace) :=
    wp_locFind_circular circular slot slots List.length_replicate
      undisturbed
  exact wp_ok spins ran

end LocTable

end Kcn
