import Kcn.Library.Program
import Kcn.Library.Run
import Mathlib.Data.Multiset.AddSub
import Mathlib.Data.Multiset.ZeroCons
import Mathlib.Logic.Function.Basic

/-!
# Descriptors that processes share

A kernel hands out numbers for what is opened and takes them back when they are
closed.  It does not ask who opened what it is told to close.  Where every
process closes only what it has opened, in any interleaving nothing is closed
under another one's feet.
-/

/-- What a process does with a number. -/
inductive FdOp where
  | opened (fd : Nat)
  | closed (fd : Nat)
  deriving DecidableEq

/--
A process that has `held` open and works as told closes only what it has open,
and has `held'` open in the end.
-/
inductive Owns : Multiset Nat → List FdOp → Multiset Nat → Prop where
  | nil (held : Multiset Nat) :
      Owns held [] held
  | opened
      {held held' : Multiset Nat} {fd : Nat} {ops : List FdOp} :
      Owns (fd ::ₘ held) ops held' →
      Owns held (.opened fd :: ops) held'
  | closed
      {held left held' : Multiset Nat} {fd : Nat} {ops : List FdOp} :
      held = fd ::ₘ left →
      Owns left ops held' →
      Owns held (.closed fd :: ops) held'

namespace Owns

variable
  {held middle held' : Multiset Nat} {ops later : List FdOp} {fd : Nat}

theorem append
    (owns : Owns held ops middle) (owns' : Owns middle later held') :
    Owns held (ops ++ later) held' := by
  induction owns with
  | nil =>
      exact owns'
  | opened _ inductionHypothesis =>
      exact .opened (inductionHypothesis owns')
  | closed split _ inductionHypothesis =>
      exact .closed split (inductionHypothesis owns')

theorem single_opened (fd : Nat) (held : Multiset Nat) :
    Owns held [.opened fd] (fd ::ₘ held) :=
  .opened (.nil _)

theorem single_closed (fd : Nat) (held : Multiset Nat) :
    Owns (fd ::ₘ held) [.closed fd] held :=
  .closed rfl (.nil _)

end Owns

/-! ### Programs that open and close -/

namespace Program

variable {ε σ α β : Type}

/--
The program adds what it does to a log.  From `held` open it comes to have open
what `held'` says of its value.
-/
def Moves
    (log : σ → List FdOp) (halt : ε → Prop) (held : Multiset Nat)
    (program : Program ε σ α) (held' : α → Multiset Nat) : Prop :=
  ∀ s, wp program
    (fun value s' =>
      ∃ ops, log s' = log s ++ ops ∧ Owns held ops (held' value))
    halt s

namespace Moves

variable
  {log : σ → List FdOp} {halt : ε → Prop}
  {held : Multiset Nat} {held' : α → Multiset Nat}
  {program : Program ε σ α}

theorem pure (value : α) (same : held = held' value) :
    Moves log halt held (Pure.pure value) held' := by
  intro s
  refine ⟨[], (List.append_nil (log s)).symm, ?_⟩
  rw [same]
  exact .nil _

theorem stop {reason : ε} (allowed : halt reason) :
    Moves log halt held (Program.stop reason) held' :=
  fun _ => allowed

/-- What is known of the first value can be used for what follows. -/
theorem bind_of
    {next : α → Program ε σ β} {last : β → Multiset Nat}
    {fine : α → Prop}
    (first : Moves log halt held program held')
    (yields : ∀ s, wp program (fun value _ => fine value)
      (fun _ => True) s)
    (later : ∀ value, fine value →
      Moves log halt (held' value) (next value) last) :
    Moves log halt held (program >>= next) last := by
  intro s
  have both := wp_mono (wp_and (first s) (yields s)) (fun _ _ => id)
    fun _ stops => stops.1
  refine wp_seq both ?_
  rintro value s' ⟨⟨ops, logEq, owns⟩, isFine⟩
  apply wp_imp (later value isFine s')
  rintro _ s'' ⟨ops', logEq', owns'⟩
  refine ⟨ops ++ ops', ?_, owns.append owns'⟩
  rw [logEq', logEq, List.append_assoc]

theorem bind
    {next : α → Program ε σ β} {last : β → Multiset Nat}
    (first : Moves log halt held program held')
    (later : ∀ value, Moves log halt (held' value) (next value) last) :
    Moves log halt held (program >>= next) last :=
  first.bind_of (fun _ => wp_of_ok fun _ _ _ => trivial)
    fun value _ => later value

theorem opens
    {update : σ → σ} {fd : Nat}
    (logEq : ∀ s, log (update s) = log s ++ [.opened fd]) :
    Moves log halt held (Program.modify update) fun _ => {fd} + held := by
  intro s
  refine ⟨[.opened fd], logEq s, ?_⟩
  rw [Multiset.singleton_add]
  exact .single_opened fd held

theorem closes
    {update : σ → σ} {fd : Nat}
    (logEq : ∀ s, log (update s) = log s ++ [.closed fd]) :
    Moves log halt ({fd} + held) (Program.modify update)
      fun _ => held := by
  intro s
  refine ⟨[.closed fd], logEq s, ?_⟩
  rw [Multiset.singleton_add]
  exact .single_closed fd held

/-- What a returning run has done. -/
theorem ok
    (moves : Moves log halt held program held')
    {s s' : σ} {value : α}
    (fresh : log s = [])
    (returns : program s = .ok (value, s')) :
    Owns held (log s') (held' value) := by
  obtain ⟨ops, logEq, owns⟩ := wp_ok (moves s) returns
  rw [logEq, fresh]
  exact owns

end Moves

end Program

/-! ### Processes that share the numbers -/

/-- Who has opened what, and what each process is still going to do. -/
structure Fds (κ : Type) where
  owner : Nat → Option κ
  todo : κ → List FdOp

namespace Fds

variable {κ : Type}

/-- Nothing is open. -/
def start (logs : κ → List FdOp) : Fds κ where
  owner _ := none
  todo := logs

/--
A process does what it is to do next.  A number that is opened is free, one that
is closed may belong to anyone.
-/
inductive Step [DecidableEq κ] (s : Fds κ) :
    κ × FdOp → Fds κ → Prop where
  | opened (k : κ) (fd : Nat) (ops : List FdOp) :
      s.todo k = .opened fd :: ops →
      s.owner fd = none →
      Step s (k, .opened fd) {
        owner := Function.update s.owner fd (some k)
        todo := Function.update s.todo k ops
      }
  | closed (k : κ) (fd : Nat) (ops : List FdOp) :
      s.todo k = .closed fd :: ops →
      Step s (k, .closed fd) {
        owner := Function.update s.owner fd none
        todo := Function.update s.todo k ops
      }

/-- Let a process do what it is to do next, if it can. -/
def perform [DecidableEq κ] (s : Fds κ) (k : κ) :
    Option ((κ × FdOp) × Fds κ) :=
  match s.todo k with
  | [] => none
  | .opened fd :: ops =>
      if s.owner fd = none then
        some ((k, .opened fd), {
          owner := Function.update s.owner fd (some k)
          todo := Function.update s.todo k ops
        })
      else
        none
  | .closed fd :: ops =>
      some ((k, .closed fd), {
        owner := Function.update s.owner fd none
        todo := Function.update s.todo k ops
      })

theorem step_perform
    [DecidableEq κ] (s : Fds κ) (k : κ) (label : κ × FdOp) (s' : Fds κ)
    (performed : s.perform k = some (label, s')) :
    s.Step label s' := by
  unfold perform at performed
  split at performed
  · cases performed
  · rename_i fd ops next
    split at performed
    · rename_i free
      obtain ⟨rfl, rfl⟩ := Prod.mk.inj (Option.some.inj performed)
      exact .opened k fd ops next free
    · cases performed
  · rename_i fd ops next
    obtain ⟨rfl, rfl⟩ := Prod.mk.inj (Option.some.inj performed)
    exact .closed k fd ops next

/-- A process that has open what belongs to it closes only that. -/
def Careful (s : Fds κ) (last : κ → Multiset Nat) (k : κ) : Prop :=
  ∃ held : Multiset Nat, held.Nodup ∧
    Owns held (s.todo k) (last k) ∧ ∀ fd, fd ∈ held ↔ s.owner fd = some k

variable {s s' : Fds κ} {last : κ → Multiset Nat} {logs : κ → List FdOp}

/-- What a careful process closes belongs to it. -/
theorem Careful.closes
    {k : κ} {fd : Nat} {ops : List FdOp}
    (careful : s.Careful last k) (next : s.todo k = .closed fd :: ops) :
    s.owner fd = some k := by
  obtain ⟨held, _, owns, owners⟩ := careful
  rw [next] at owns
  cases owns with
  | closed split _ =>
      refine (owners fd).mp ?_
      rw [split]
      exact Multiset.mem_cons_self fd _

/-- A process that is done has open what it was to leave open. -/
theorem Careful.done
    {k : κ} (careful : s.Careful last k) (done : s.todo k = []) :
    ∀ fd, fd ∈ last k ↔ s.owner fd = some k := by
  obtain ⟨held, _, owns, owners⟩ := careful
  rw [done] at owns
  cases owns with
  | nil =>
      exact owners

variable [DecidableEq κ]

/-- Where all are careful, all stay so. -/
theorem Step.careful
    {label : κ × FdOp} (step : s.Step label s')
    (careful : ∀ k, s.Careful last k) :
    ∀ k, s'.Careful last k := by
  intro k
  obtain ⟨held, nodup, owns, owners⟩ := careful k
  cases step with
  | opened j fd ops next free =>
      by_cases own : k = j
      · subst own
        rw [next] at owns
        cases owns with
        | opened owns =>
            have fresh : fd ∉ held := by
              intro member
              rw [(owners fd).mp member] at free
              cases free
            refine ⟨fd ::ₘ held, Multiset.nodup_cons.mpr ⟨fresh, nodup⟩,
              ?_, ?_⟩
            · simpa using owns
            · intro other
              by_cases same : other = fd
              · simp [same]
              · simp [same, owners other]
      · refine ⟨held, nodup, ?_, ?_⟩
        · simpa [own] using owns
        · intro other
          by_cases same : other = fd
          · have foreign : fd ∉ held := by
              intro member
              rw [(owners fd).mp member] at free
              cases free
            simp [same, foreign, Ne.symm own]
          · simp [same, owners other]
  | closed j fd ops next =>
      by_cases own : k = j
      · subst own
        rw [next] at owns
        cases owns with
        | @closed _ left _ _ _ split owns =>
            rw [split] at nodup
            obtain ⟨fresh, nodup⟩ := Multiset.nodup_cons.mp nodup
            refine ⟨left, nodup, ?_, ?_⟩
            · simpa using owns
            · intro other
              by_cases same : other = fd
              · simp [same, fresh]
              · have mem := owners other
                rw [split, Multiset.mem_cons] at mem
                simpa [same] using mem
      · have belongs := (careful j).closes next
        refine ⟨held, nodup, ?_, ?_⟩
        · simpa [own] using owns
        · intro other
          by_cases same : other = fd
          · have foreign : fd ∉ held := by
              intro member
              rw [(owners fd).mp member] at belongs
              exact own (Option.some.inj belongs)
            simp [same, foreign]
          · simp [same, owners other]

/-- Processes that close only what they opened never disturb each other. -/
theorem careful_run
    (owns : ∀ k, Owns 0 (logs k) (last k))
    {labels : List (κ × FdOp)}
    (run : Run Step (start logs) labels s) :
    ∀ k, s.Careful last k := by
  have first : ∀ k, (start logs).Careful last k := by
    intro k
    exact ⟨0, Multiset.nodup_zero, owns k, fun fd => by simp [start]⟩
  have step :
      ∀ (_ : List (κ × FdOp)) (s : Fds κ) label s',
        (∀ k, s.Careful last k) → s.Step label s' →
        ∀ k, s'.Careful last k :=
    fun _ _ _ _ careful step => step.careful careful
  exact run.invariant first step

end Fds
