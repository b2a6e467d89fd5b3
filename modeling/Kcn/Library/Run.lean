import Mathlib.Data.List.Basic

/-!
# Finite runs of labelled transition systems

Runs grow at their end, so that an invariant is carried by one step lemma.
-/

/-- A finite run from `initial` to the last state, with its labels in order. -/
inductive Run
    {σ ℓ : Type}
    (step : σ → ℓ → σ → Prop)
    (initial : σ) : List ℓ → σ → Prop where
  | nil :
      Run step initial [] initial
  | snoc {labels : List ℓ} {s s' : σ} {label : ℓ} :
      Run step initial labels s →
      step s label s' →
      Run step initial (labels ++ [label]) s'

namespace Run

variable {σ ℓ : Type} {step : σ → ℓ → σ → Prop} {initial : σ}

/--
An invariant relating the labels so far to the state holds of every run when
it holds at the start and each step keeps it.
-/
theorem invariant
    {Inv : List ℓ → σ → Prop}
    (start : Inv [] initial)
    (keeps : ∀ labels s label s',
      Inv labels s → step s label s' → Inv (labels ++ [label]) s')
    {labels : List ℓ} {s : σ}
    (run : Run step initial labels s) :
    Inv labels s := by
  induction run with
  | nil =>
      exact start
  | snoc _ last inductionHypothesis =>
      exact keeps _ _ _ _ inductionHypothesis last

/-- One step is a run. -/
theorem single
    {label : ℓ} {s' : σ} (only : step initial label s') :
    Run step initial [label] s' :=
  .snoc .nil only

/-- Runs compose. -/
theorem append
    {first second : List ℓ} {s s' : σ}
    (run : Run step initial first s)
    (later : Run step s second s') :
    Run step initial (first ++ second) s' := by
  induction later with
  | nil =>
      rw [List.append_nil]
      exact run
  | snoc _ last inductionHypothesis =>
      rw [← List.append_assoc]
      exact .snoc inductionHypothesis last

/-- A run of a smaller step relation is a run of a larger one. -/
theorem mono
    {step' : σ → ℓ → σ → Prop}
    (weaken : ∀ s label s', step s label s' → step' s label s')
    {labels : List ℓ} {s : σ}
    (run : Run step initial labels s) :
    Run step' initial labels s := by
  induction run with
  | nil =>
      exact .nil
  | snoc _ last inductionHypothesis =>
      exact .snoc inductionHypothesis (weaken _ _ _ last)

/--
A forward simulation: where every step is matched by a step with the same
label that restores the relation, every run is matched by a run.
-/
theorem simulates
    {τ : Type} {step' : τ → ℓ → τ → Prop} {related : σ → τ → Prop}
    {initial' : τ} (start : related initial initial')
    (matched : ∀ s t label s', related s t → step s label s' →
      ∃ t', step' t label t' ∧ related s' t')
    {labels : List ℓ} {s : σ}
    (run : Run step initial labels s) :
    ∃ t, Run step' initial' labels t ∧ related s t := by
  induction run with
  | nil =>
      exact ⟨initial', .nil, start⟩
  | snoc _ last inductionHypothesis =>
      obtain ⟨t, run', before⟩ := inductionHypothesis
      obtain ⟨t', last', after⟩ := matched _ _ _ _ before last
      exact ⟨t', .snoc run' last', after⟩

end Run

/-- Perform requests in order, each of which may be refused. -/
def performAll
    {σ ρ ℓ : Type} (perform : σ → ρ → Option (ℓ × σ)) :
    σ → List ρ → Option (List ℓ × σ)
  | s, [] => some ([], s)
  | s, request :: requests =>
      match perform s request with
      | some (label, s₁) =>
          match performAll perform s₁ requests with
          | some (labels, s') => some (label :: labels, s')
          | none => none
      | none => none

/-- What is performed is a run if every request is performed as a step. -/
theorem Run.of_performAll
    {σ ρ ℓ : Type} {step : σ → ℓ → σ → Prop}
    {perform : σ → ρ → Option (ℓ × σ)}
    (sound : ∀ s request label s',
      perform s request = some (label, s') → step s label s')
    {s s' : σ} {requests : List ρ} {labels : List ℓ}
    (performed : performAll perform s requests = some (labels, s')) :
    Run step s labels s' := by
  induction requests generalizing s labels with
  | nil =>
      obtain ⟨rfl, rfl⟩ := Prod.mk.inj (Option.some.inj performed)
      exact .nil
  | cons request requests inductionHypothesis =>
      rw [performAll] at performed
      split at performed
      · rename_i label s₁ first
        split at performed
        · rename_i later s₂ rest
          obtain ⟨rfl, rfl⟩ := Prod.mk.inj (Option.some.inj performed)
          exact (Run.single (sound _ _ _ _ first)).append
            (inductionHypothesis rest)
        · cases performed
      · cases performed

/-- What a performed run shows of its labels and its last state. -/
theorem Run.of_shown
    {σ ρ ℓ : Type} {step : σ → ℓ → σ → Prop}
    {perform : σ → ρ → Option (ℓ × σ)}
    (sound : ∀ s request label s',
      perform s request = some (label, s') → step s label s')
    {initial : σ} {requests : List ρ} {shows : List ℓ → σ → Bool}
    (shown :
      (performAll perform initial requests).any
          (fun performed => shows performed.1 performed.2) = true) :
    ∃ labels s, Run step initial labels s ∧ shows labels s = true := by
  obtain ⟨⟨labels, s⟩, performed, holds⟩ :=
    (Option.any_eq_true _ _).mp shown
  exact ⟨labels, s, Run.of_performAll sound performed, holds⟩

/-- The steps of a system that start where `condition` holds of the label. -/
def Guarded
    {σ ℓ : Type}
    (step : σ → ℓ → σ → Prop)
    (condition : σ → ℓ → Prop)
    (s : σ) (label : ℓ) (s' : σ) : Prop :=
  step s label s' ∧ condition s label

/-- Perform a request that passes a check. -/
def performIf
    {σ ρ ℓ : Type} (check : σ → ρ → Bool)
    (perform : σ → ρ → Option (ℓ × σ)) (s : σ) (request : ρ) :
    Option (ℓ × σ) :=
  if check s request then perform s request else none

/-- What is performed after a check is a step under its condition. -/
theorem guarded_performIf
    {σ ρ ℓ : Type} {step : σ → ℓ → σ → Prop}
    {condition : σ → ℓ → Prop} {check : σ → ρ → Bool}
    {perform : σ → ρ → Option (ℓ × σ)}
    (sound : ∀ s request label s',
      perform s request = some (label, s') → step s label s')
    (checked : ∀ s request label s',
      perform s request = some (label, s') →
      check s request = true → condition s label)
    (s : σ) (request : ρ) (label : ℓ) (s' : σ)
    (performed : performIf check perform s request = some (label, s')) :
    Guarded step condition s label s' := by
  unfold performIf at performed
  split at performed
  · rename_i passes
    exact ⟨sound _ _ _ _ performed, checked _ _ _ _ performed passes⟩
  · cases performed
