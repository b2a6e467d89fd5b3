import Mathlib.Data.List.Basic

/-!
# Stateful programs that may stop

A program reads and changes a state of type `σ`, and either returns a value or
stops for a reason of type `ε`.  Stopping loses the state: it stands for an
aborted, blocked or unfinished computation.  The module gives the weakest
precondition of a program, its rules, the frame judgment `Keeps`, the
judgments `StopsFor`, `Consumes` and `Feasible` about the reasons to stop and
about a list of inputs, and the judgment `Mirrors` about two kinds of states.
-/

/-- A computation over a state `σ` that may stop for a reason in `ε`. -/
def Program (ε σ α : Type) : Type :=
  σ → Except ε (α × σ)

namespace Program

variable {ε σ τ α β γ : Type}

instance : Monad (Program ε σ) where
  pure value := fun s => .ok (value, s)
  bind first next := fun s =>
    match first s with
    | .ok (value, s') => next value s'
    | .error reason => .error reason

/-- Stop for the given reason. -/
def stop (reason : ε) : Program ε σ α :=
  fun _ => .error reason

/-- Read a component of the state. -/
def gets (read : σ → α) : Program ε σ α :=
  fun s => .ok (read s, s)

/-- Update the state. -/
def modify (update : σ → σ) : Program ε σ Unit :=
  fun s => .ok ((), update s)

/-- A component of a larger state, with a way to replace it. -/
structure Lens (σ τ : Type) where
  get : σ → τ
  set : σ → τ → σ

/-- Run a program on one component of a larger state. -/
def zoom (lens : Lens σ τ) (program : Program ε τ α) : Program ε σ α :=
  fun s =>
    match program (lens.get s) with
    | .ok (value, part) => .ok (value, lens.set s part)
    | .error reason => .error reason

/-- Run a program whose reasons to stop are known by other names outside. -/
def mapStop {ε' : Type} (rename : ε → ε') (program : Program ε σ α) :
    Program ε' σ α :=
  fun s =>
    match program s with
    | .ok result => .ok result
    | .error reason => .error (rename reason)

/--
Weakest precondition: if the program returns, the result satisfies `post`, and
if it stops, the reason satisfies `halt`.
-/
def wp
    (program : Program ε σ α)
    (post : α → σ → Prop)
    (halt : ε → Prop)
    (s : σ) : Prop :=
  match program s with
  | .ok (value, s') => post value s'
  | .error reason => halt reason

variable
  {program : Program ε σ α} {next : α → Program ε σ β}
  {post post' : α → σ → Prop} {halt halt' : ε → Prop} {s : σ}

@[simp] theorem wp_pure (value : α) :
    wp (pure value : Program ε σ α) post halt s ↔ post value s :=
  Iff.rfl

@[simp] theorem wp_bind {post : β → σ → Prop} :
    wp (program >>= next) post halt s ↔
      wp program (fun value s' => wp (next value) post halt s')
        halt s := by
  cases shape : program s <;> simp [wp, bind, shape]

@[simp] theorem wp_stop (reason : ε) :
    wp (stop reason : Program ε σ α) post halt s ↔ halt reason :=
  Iff.rfl

@[simp] theorem wp_gets (read : σ → α) :
    wp (gets read : Program ε σ α) post halt s ↔ post (read s) s :=
  Iff.rfl

@[simp] theorem wp_modify
    (update : σ → σ) {post : Unit → σ → Prop} :
    wp (modify update : Program ε σ Unit) post halt s ↔
      post () (update s) :=
  Iff.rfl

@[simp] theorem wp_zoom
    (lens : Lens σ τ) (inner : Program ε τ α) :
    wp (zoom lens inner) post halt s ↔
      wp inner (fun value part => post value (lens.set s part))
        halt (lens.get s) := by
  cases shape : inner (lens.get s) <;> simp [wp, zoom, shape]

@[simp] theorem wp_mapStop
    {ε' : Type} {halt : ε' → Prop} (rename : ε → ε') :
    wp (mapStop rename program) post halt s ↔
      wp program post (fun reason => halt (rename reason)) s := by
  cases shape : program s <;> simp [wp, mapStop, shape]

theorem wp_ite
    {condition : Prop} [Decidable condition]
    {yes no : Program ε σ α} :
    wp (if condition then yes else no) post halt s ↔
      (condition → wp yes post halt s) ∧
        (¬ condition → wp no post halt s) := by
  by_cases holds : condition <;> simp [holds]

/-- The consequence rule. -/
theorem wp_mono
    (established : wp program post halt s)
    (weaken : ∀ value s', post value s' → post' value s')
    (weakenHalt : ∀ reason, halt reason → halt' reason) :
    wp program post' halt' s := by
  unfold wp at established ⊢
  cases shape : program s with
  | ok result =>
      simp only [shape] at established ⊢
      exact weaken _ _ established
  | error reason =>
      simp only [shape] at established ⊢
      exact weakenHalt _ established

/-- The consequence rule that keeps the stopping condition. -/
theorem wp_imp
    (established : wp program post halt s)
    (weaken : ∀ value s', post value s' → post' value s') :
    wp program post' halt s :=
  wp_mono established weaken fun _ => id

/-- Sequential composition through an intermediate assertion. -/
theorem wp_seq
    {middle : α → σ → Prop} {post : β → σ → Prop}
    (first : wp program middle halt s)
    (later : ∀ value s',
      middle value s' → wp (next value) post halt s') :
    wp (program >>= next) post halt s :=
  wp_bind.mpr (wp_imp first later)

/-- Two postconditions established separately hold together. -/
theorem wp_and
    (left : wp program post halt s)
    (right : wp program post' halt' s) :
    wp program (fun value s' => post value s' ∧ post' value s')
      (fun reason => halt reason ∧ halt' reason) s := by
  unfold wp at left right ⊢
  cases shape : program s <;> simp_all

/-- A program that never returns stops for a reason that all judgments allow. -/
theorem wp_clash
    (established : wp program post halt s)
    (never : wp program (fun _ _ => False) halt' s) :
    ∃ reason, halt reason ∧ halt' reason := by
  unfold wp at established never
  cases shape : program s with
  | ok result =>
      rw [shape] at never
      exact never.elim
  | error reason =>
      rw [shape] at established never
      exact ⟨reason, established, never⟩

/-- A program that never returns and stops for one reason only. -/
theorem stops_of_wp
    {reason : ε}
    (established : wp program (fun _ _ => False) (· = reason) s) :
    program s = .error reason := by
  unfold wp at established
  cases shape : program s with
  | ok result =>
      rw [shape] at established
      exact established.elim
  | error other =>
      rw [shape] at established
      rw [show other = reason from established]

/-- A returning run satisfies the postcondition. -/
theorem wp_ok
    {value : α} {s' : σ}
    (established : wp program post halt s)
    (returns : program s = .ok (value, s')) :
    post value s' := by
  simpa [wp, returns] using established

/-- A program that stops for no reason returns. -/
theorem wp_returns
    (established : wp program post (fun _ => False) s) :
    ∃ value s', program s = .ok (value, s') ∧ post value s' := by
  unfold wp at established
  cases shape : program s with
  | ok result =>
      rw [shape] at established
      exact ⟨result.1, result.2, rfl, established⟩
  | error reason =>
      rw [shape] at established
      exact established.elim

/-- A postcondition that all returning runs satisfy. -/
theorem wp_of_ok
    (established :
      ∀ value s', program s = .ok (value, s') → post value s') :
    wp program post (fun _ => True) s := by
  unfold wp
  cases shape : program s with
  | ok result =>
      exact established _ _ shape
  | error _ =>
      trivial

/-- A postcondition can refer to the run that returned. -/
theorem wp_returned
    (established : wp program post halt s) :
    wp program
      (fun value s' => post value s' ∧ program s = .ok (value, s'))
      halt s := by
  unfold wp at established ⊢
  cases shape : program s with
  | ok result =>
      rw [shape] at established
      exact ⟨established, rfl⟩
  | error reason =>
      rw [shape] at established
      exact established

/-- After a returning run a sequence goes on. -/
theorem bind_of_ok
    {value : α} {s' : σ} (returns : program s = .ok (value, s')) :
    (program >>= next) s = next value s' := by
  simp [bind, returns]

/-- A stopping run ends a sequence. -/
theorem bind_of_error
    {reason : ε} (stops : program s = .error reason) :
    (program >>= next) s = .error reason := by
  simp [bind, stops]

theorem wp_bind_of_ok
    {value : α} {s' : σ} {post : β → σ → Prop}
    (returns : program s = .ok (value, s')) :
    wp (program >>= next) post halt s ↔
      wp (next value) post halt s' := by
  unfold wp
  rw [bind_of_ok returns]

/-- A returning run of a sequence consists of two returning runs. -/
theorem bind_ok
    {value : β} {s' : σ}
    (returns : (program >>= next) s = .ok (value, s')) :
    ∃ middle between,
      program s = .ok (middle, between) ∧
        next middle between = .ok (value, s') := by
  cases shape : program s with
  | ok result =>
      refine ⟨result.1, result.2, rfl, ?_⟩
      simpa [bind, shape] using returns
  | error reason =>
      simp [bind, shape] at returns

/-- A stopping run satisfies the stopping condition. -/
theorem wp_error
    {reason : ε}
    (established : wp program post halt s)
    (stops : program s = .error reason) :
    halt reason := by
  simpa [wp, stops] using established

/-- A sequence of three programs can be read from either side. -/
theorem bind_bind
    (program : Program ε σ α) (next : α → Program ε σ β)
    (last : β → Program ε σ γ) :
    program >>= next >>= last =
      program >>= fun value => next value >>= last := by
  funext s
  cases shape : program s <;> simp [bind, shape]

/-- Returning what a program returns adds nothing. -/
theorem bind_pure (program : Program ε σ α) :
    program >>= pure = program := by
  funext s
  cases shape : program s with
  | ok result =>
      rw [bind_of_ok shape]
      rfl
  | error reason =>
      rw [bind_of_error shape]

theorem bind_unit (program : Program ε σ Unit) :
    (program >>= fun _ => pure ()) = program :=
  bind_pure program

/-- Every returning run of the program leaves `view` of the state alone. -/
def Keeps (view : σ → γ) (program : Program ε σ α) : Prop :=
  ∀ s, wp program (fun _ s' => view s' = view s) (fun _ => True) s

namespace Keeps

variable {view : σ → γ}

theorem pure (value : α) :
    Keeps view (Pure.pure value : Program ε σ α) :=
  fun _ => rfl

theorem stop (reason : ε) :
    Keeps view (Program.stop reason : Program ε σ α) :=
  fun _ => trivial

theorem gets (read : σ → α) :
    Keeps view (Program.gets read : Program ε σ α) :=
  fun _ => rfl

theorem modify
    {update : σ → σ}
    (same : ∀ s, view (update s) = view s) :
    Keeps view (Program.modify update : Program ε σ Unit) :=
  same

theorem bind
    (first : Keeps view program)
    (later : ∀ value, Keeps view (next value)) :
    Keeps view (program >>= next) := by
  intro s
  refine wp_seq (first s) ?_
  intro value s' same
  exact wp_imp (later value s') fun _ _ later => later.trans same

theorem ite
    {condition : Prop} [Decidable condition]
    {yes no : Program ε σ α}
    (left : Keeps view yes) (right : Keeps view no) :
    Keeps view (if condition then yes else no) := by
  split
  · exact left
  · exact right

theorem zoom
    {lens : Lens σ τ} {inner : Program ε τ α}
    (same : ∀ s part, view (lens.set s part) = view s) :
    Keeps view (Program.zoom lens inner) := by
  intro s
  rw [wp_zoom]
  unfold wp
  split
  · exact same _ _
  · trivial

/-- The part that a program works on keeps what the view reads of it. -/
theorem zoom_part
    {δ : Type} {lens : Lens σ τ} {inner : Program ε τ α} {part : τ → δ}
    (keeps : Keeps part inner)
    (same : ∀ s t,
      part t = part (lens.get s) → view (lens.set s t) = view s) :
    Keeps view (Program.zoom lens inner) := by
  intro s
  rw [wp_zoom]
  exact wp_imp (keeps (lens.get s)) fun _ _ kept => same s _ kept

/-- What is kept as a part of a view is kept. -/
theorem map
    {δ : Type} (keeps : Keeps view program) (part : γ → δ) :
    Keeps (fun s => part (view s)) program :=
  fun s => wp_imp (keeps s) fun _ _ same => congrArg part same

/-- Two views are kept as a pair. -/
theorem pair
    {δ : Type} {view' : σ → δ}
    (first : Keeps view program) (second : Keeps view' program) :
    Keeps (fun s => (view s, view' s)) program := by
  intro s
  refine wp_mono (wp_and (first s) (second s)) ?_ fun _ _ => trivial
  intro _ _ both
  exact Prod.ext both.1 both.2

/-- A frame judgment adds to an established postcondition. -/
theorem wp
    {post : α → σ → Prop} {halt : ε → Prop} {s : σ}
    (keeps : Keeps view program)
    (established : Program.wp program post halt s) :
    Program.wp program
      (fun value s' => post value s' ∧ view s' = view s) halt s :=
  wp_mono (wp_and established (keeps s)) (fun _ _ => id)
    fun _ both => both.1

/-- What a frame judgment says about one returning run. -/
theorem ok
    (keeps : Keeps view program)
    {value : α} {s s' : σ}
    (returns : program s = .ok (value, s')) :
    view s' = view s := by
  have same := wp_ok (keeps s) returns
  exact same

end Keeps

/-- The program stops for allowed reasons only. -/
def StopsFor (allowed : ε → Prop) (program : Program ε σ α) : Prop :=
  ∀ s, wp program (fun _ _ => True) allowed s

namespace StopsFor

variable {allowed : ε → Prop}

theorem pure (value : α) :
    StopsFor allowed (Pure.pure value : Program ε σ α) :=
  fun _ => trivial

theorem gets (read : σ → α) :
    StopsFor allowed (Program.gets read : Program ε σ α) :=
  fun _ => trivial

theorem bind
    (first : StopsFor allowed program)
    (later : ∀ value, StopsFor allowed (next value)) :
    StopsFor allowed (program >>= next) :=
  fun s => wp_seq (first s) fun value s' _ => later value s'

theorem stop {reason : ε} (fine : allowed reason) :
    StopsFor allowed (Program.stop reason : Program ε σ α) :=
  fun _ => fine

theorem modify (update : σ → σ) :
    StopsFor allowed (Program.modify update : Program ε σ Unit) :=
  fun _ => trivial

theorem ite
    {condition : Prop} [Decidable condition]
    {yes no : Program ε σ α}
    (left : StopsFor allowed yes) (right : StopsFor allowed no) :
    StopsFor allowed (if condition then yes else no) := by
  split
  · exact left
  · exact right

theorem zoom
    {lens : Lens σ τ} {inner : Program ε τ α}
    (part : StopsFor allowed inner) :
    StopsFor allowed (Program.zoom lens inner) :=
  fun s => (wp_zoom lens inner).mpr (part (lens.get s))

/-- The allowed reasons add to those of a postcondition. -/
theorem wp
    {post : α → σ → Prop} {halt : ε → Prop} {s : σ}
    (stops : StopsFor allowed program)
    (established : Program.wp program post halt s) :
    Program.wp program post (fun reason => halt reason ∧ allowed reason)
      s :=
  wp_mono (wp_and established (stops s)) (fun _ _ both => both.1)
    fun _ => id

end StopsFor

/--
The program only takes from the head of a list in its state, and it stops for
allowed reasons only.
-/
def Consumes
    (input : σ → List τ) (allowed : ε → Prop)
    (program : Program ε σ α) : Prop :=
  ∀ s, wp program (fun _ s' => input s' <:+ input s) allowed s

namespace Consumes

variable {input : σ → List τ} {allowed : ε → Prop}

theorem pure (value : α) :
    Consumes input allowed (Pure.pure value : Program ε σ α) :=
  fun _ => List.suffix_refl _

theorem stop {reason : ε} (fine : allowed reason) :
    Consumes input allowed (Program.stop reason : Program ε σ α) :=
  fun _ => fine

theorem gets (read : σ → α) :
    Consumes input allowed (Program.gets read : Program ε σ α) :=
  fun _ => List.suffix_refl _

theorem modify
    {update : σ → σ} (same : ∀ s, input (update s) = input s) :
    Consumes input allowed (Program.modify update : Program ε σ Unit) :=
  fun s => (List.suffix_refl _).trans (same s ▸ List.suffix_refl _)

theorem bind
    (first : Consumes input allowed program)
    (later : ∀ value, Consumes input allowed (next value)) :
    Consumes input allowed (program >>= next) := by
  intro s
  refine wp_seq (first s) ?_
  intro value s' earlier
  exact wp_imp (later value s') fun _ _ rest => rest.trans earlier

theorem ite
    {condition : Prop} [Decidable condition]
    {yes no : Program ε σ α}
    (left : Consumes input allowed yes)
    (right : Consumes input allowed no) :
    Consumes input allowed (if condition then yes else no) := by
  split
  · exact left
  · exact right

/-- The list is in the component that the program works on. -/
theorem zoom
    {ρ : Type} {lens : Lens σ ρ} {inner : Program ε ρ α}
    {input' : ρ → List τ}
    (part : Consumes input' allowed inner)
    (read : ∀ s, input' (lens.get s) = input s)
    (written : ∀ s r, input (lens.set s r) = input' r) :
    Consumes input allowed (Program.zoom lens inner) := by
  intro s
  rw [wp_zoom]
  refine wp_imp (part (lens.get s)) ?_
  intro _ r rest
  rw [written, ← read]
  exact rest

/-- The list is outside the component that the program works on. -/
theorem zoom_other
    {ρ : Type} {lens : Lens σ ρ} {inner : Program ε ρ α}
    (part : StopsFor allowed inner)
    (same : ∀ s r, input (lens.set s r) = input s) :
    Consumes input allowed (Program.zoom lens inner) := by
  intro s
  rw [wp_zoom]
  refine wp_imp (part (lens.get s)) ?_
  intro _ r _
  exact (same s r).symm ▸ List.suffix_refl _

theorem mapStop
    {ε' : Type} {allowed : ε' → Prop} {rename : ε → ε'}
    (inner :
      Consumes input (fun reason => allowed (rename reason)) program) :
    Consumes input allowed (Program.mapStop rename program) := by
  intro s
  rw [wp_mapStop]
  exact inner s

/-- Only the reasons matter. -/
theorem stops (consumes : Consumes input allowed program) :
    StopsFor allowed program :=
  fun s => wp_imp (consumes s) fun _ _ _ => trivial

/-- What is consumed and the allowed reasons add to a postcondition. -/
theorem wp
    {post : α → σ → Prop} {s : σ}
    (consumes : Consumes input allowed program)
    (established : Program.wp program post (fun _ => True) s) :
    Program.wp program
      (fun value s' => post value s' ∧ input s' <:+ input s) allowed s :=
  wp_mono (wp_and established (consumes s)) (fun _ _ => id)
    fun _ both => both.2

end Consumes

/--
With some fine items at the head of its input the program returns with `post`,
whatever items follow.
-/
def Feasible
    (input : Lens σ (List τ)) (fine : τ → Prop)
    (program : Program ε σ α) (post : α → σ → Prop) (s : σ) : Prop :=
  ∃ taken value s',
    (∀ item ∈ taken, fine item) ∧ post value s' ∧
      ∀ later,
        program (input.set s (taken ++ later)) =
          .ok (value, input.set s' later)

namespace Feasible

variable {input : Lens σ (List τ)} {fine : τ → Prop}

theorem pure {value : α} (holds : post value s) :
    Feasible input fine (Pure.pure value : Program ε σ α) post s :=
  ⟨[], value, s, by simp, holds, fun _ => rfl⟩

/-- What is read does not depend on the input. -/
theorem gets
    {read : σ → α} (apart : ∀ items, read (input.set s items) = read s)
    (holds : post (read s) s) :
    Feasible input fine (Program.gets read : Program ε σ α) post s := by
  refine ⟨[], read s, s, by simp, holds, fun later => ?_⟩
  unfold Program.gets
  rw [apart]
  rfl

/-- The update does not touch the input. -/
theorem modify
    {update : σ → σ} {post : Unit → σ → Prop}
    (apart : ∀ items,
      update (input.set s items) = input.set (update s) items)
    (holds : post () (update s)) :
    Feasible input fine (Program.modify update : Program ε σ Unit) post s := by
  refine ⟨[], (), update s, by simp, holds, fun later => ?_⟩
  unfold Program.modify
  rw [apart]
  rfl

theorem bind
    {post : β → σ → Prop}
    (first :
      Feasible input fine program
        (fun value s' => Feasible input fine (next value) post s') s) :
    Feasible input fine (program >>= next) post s := by
  obtain ⟨taken, value, between, fineFirst, ⟨taken', value', s', fineNext,
    holds, later⟩, earlier⟩ := first
  refine ⟨taken ++ taken', value', s', ?_, holds, fun rest => ?_⟩
  · intro item member
    exact (List.mem_append.mp member).elim (fineFirst item)
      (fineNext item)
  · rw [List.append_assoc, bind_of_ok (earlier (taken' ++ rest))]
    exact later rest

theorem imp
    (feasible : Feasible input fine program post s)
    (weaken : ∀ value s', post value s' → post' value s') :
    Feasible input fine program post' s := by
  obtain ⟨taken, value, s', fineTaken, holds, runs⟩ := feasible
  exact ⟨taken, value, s', fineTaken, weaken _ _ holds, runs⟩

/-- What all runs on fine input satisfy adds to the postcondition. -/
theorem also
    {halt : ε → Prop}
    (feasible : Feasible input fine program post s)
    (established : ∀ taken, (∀ item ∈ taken, fine item) →
      Program.wp program
        (fun value between =>
          ∀ s', between = input.set s' [] → post' value s')
        halt (input.set s taken)) :
    Feasible input fine program
      (fun value s' => post value s' ∧ post' value s') s := by
  obtain ⟨taken, value, s', fineTaken, holds, runs⟩ := feasible
  have alone := runs []
  rw [List.append_nil] at alone
  have more := wp_ok (established taken fineTaken) alone
  exact ⟨taken, value, s', fineTaken, ⟨holds, more s' rfl⟩, runs⟩

/-- The component that the program works on has the input. -/
theorem zoom
    {ρ : Type} {lens : Lens σ ρ} {inner : Program ε ρ α}
    {input' : Lens ρ (List τ)} {post : α → σ → Prop}
    (read : ∀ items,
      lens.get (input.set s items) = input'.set (lens.get s) items)
    (written : ∀ items items' part,
      lens.set (input.set s items) (input'.set part items') =
        input.set (lens.set s part) items')
    (feasible :
      Feasible input' fine inner
        (fun value part => post value (lens.set s part)) (lens.get s)) :
    Feasible input fine (Program.zoom lens inner) post s := by
  obtain ⟨taken, value, part, fineTaken, holds, runs⟩ := feasible
  refine ⟨taken, value, lens.set s part, fineTaken, holds,
    fun later => ?_⟩
  unfold Program.zoom
  rw [read, runs]
  simp only [written]

/-- The component that the program works on has no input, and it returns. -/
theorem zoom_apart
    {ρ : Type} {lens : Lens σ ρ} {inner : Program ε ρ α}
    {post : α → σ → Prop}
    (read : ∀ items, lens.get (input.set s items) = lens.get s)
    (written : ∀ items part,
      lens.set (input.set s items) part =
        input.set (lens.set s part) items)
    (established :
      wp inner (fun value part => post value (lens.set s part))
        (fun _ => False) (lens.get s)) :
    Feasible input fine (Program.zoom lens inner) post s := by
  obtain ⟨value, part, returns, holds⟩ := wp_returns established
  refine ⟨[], value, lens.set s part, by simp, holds, fun later => ?_⟩
  unfold Program.zoom
  rw [List.nil_append, read, returns]
  simp only [written]

theorem mapStop
    {ε' : Type} {rename : ε → ε'}
    (feasible : Feasible input fine program post s) :
    Feasible input fine (Program.mapStop rename program) post s := by
  obtain ⟨taken, value, s', fineTaken, holds, runs⟩ := feasible
  refine ⟨taken, value, s', fineTaken, holds, fun later => ?_⟩
  unfold Program.mapStop
  rw [runs]

end Feasible

/--
On the states that are a view of others, the program does what the original
does on those.
-/
def Mirrors
    (view : τ → σ) (program : Program ε σ α) (original : Program ε τ α) :
    Prop :=
  ∀ t, program (view t) =
    match original t with
    | .ok (value, t') => .ok (value, view t')
    | .error reason => .error reason

namespace Mirrors

variable {view : τ → σ} {original : Program ε τ α}

theorem pure (value : α) :
    Mirrors view (Pure.pure value : Program ε σ α) (Pure.pure value) :=
  fun _ => rfl

theorem gets
    {read : σ → α} {read' : τ → α} (same : ∀ t, read (view t) = read' t) :
    Mirrors view (Program.gets read : Program ε σ α)
      (Program.gets read') := by
  intro t
  unfold Program.gets
  rw [same]

theorem modify
    {update : σ → σ} {update' : τ → τ}
    (same : ∀ t, update (view t) = view (update' t)) :
    Mirrors view (Program.modify update : Program ε σ Unit)
      (Program.modify update') := by
  intro t
  unfold Program.modify
  rw [same]

theorem bind
    {next' : α → Program ε τ β}
    (first : Mirrors view program original)
    (later : ∀ value, Mirrors view (next value) (next' value)) :
    Mirrors view (program >>= next) (original >>= next') := by
  intro t
  have here := first t
  cases shape : original t with
  | ok result =>
      obtain ⟨value, t'⟩ := result
      rw [shape] at here
      rw [bind_of_ok here, bind_of_ok shape]
      exact later value t'
  | error reason =>
      rw [shape] at here
      simp only [Bind.bind, here, shape]

/-- What the original establishes holds of the view. -/
theorem wp
    {t : τ} {post : α → σ → Prop} {halt : ε → Prop}
    (mirrors : Mirrors view program original)
    (established :
      Program.wp original (fun value t' => post value (view t')) halt t) :
    Program.wp program post halt (view t) := by
  unfold Program.wp at established ⊢
  rw [mirrors t]
  cases shape : original t with
  | ok result =>
      rw [shape] at established
      exact established
  | error reason =>
      rw [shape] at established
      exact established

end Mirrors

end Program
