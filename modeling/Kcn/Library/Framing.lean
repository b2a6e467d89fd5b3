import Kcn.Library.Program

/-!
# Messages in a stream that arrives in pieces

A framer looks at the bytes that have arrived and not been used: it waits for
more, refuses them, or takes a message off them.  Bytes that arrive later do
not change what it makes of the earlier ones.  Handling the messages of a
stream as they arrive is then the same as handling those of the whole stream.
-/

namespace Framing

open Program

/-- What a framer makes of the bytes it has. -/
inductive Cut (α μ ζ : Type) where
  | wait
  | refuse (error : ζ)
  | take (message : μ) (rest : List α)

/-- What is made of some bytes, when more bytes follow them. -/
def Cut.later {α μ ζ : Type} (more : List α) : Cut α μ ζ → Cut α μ ζ
  | .wait => .wait
  | .refuse error => .refuse error
  | .take message rest => .take message (rest ++ more)

/-- A framer, with the laws that make the arrival of its input irrelevant. -/
structure Framer (α μ ζ : Type) where
  cut : List α → Cut α μ ζ
  shrinks : ∀ bytes message rest,
    cut bytes = .take message rest → rest.length < bytes.length
  take_append : ∀ bytes message rest more,
    cut bytes = .take message rest →
      cut (bytes ++ more) = .take message (rest ++ more)
  refuse_append : ∀ bytes error more,
    cut bytes = .refuse error → cut (bytes ++ more) = .refuse error

/-- How the handling of the bytes that have arrived ends. -/
inductive Handled (α ζ : Type) where
  | waiting (rest : List α)
  | ended (error : ζ)

namespace Framer

/-- A framer, from one law for the bytes that it does not wait on. -/
def ofLater
    {α μ ζ : Type} (cut : List α → Cut α μ ζ)
    (shrinks : ∀ bytes message rest,
      cut bytes = .take message rest → rest.length < bytes.length)
    (later : ∀ bytes more,
      cut bytes ≠ .wait → cut (bytes ++ more) = (cut bytes).later more) :
    Framer α μ ζ where
  cut := cut
  shrinks := shrinks
  take_append := by
    intro bytes message rest more takes
    have decided : cut bytes ≠ .wait := by
      rw [takes]
      exact nofun
    rw [later bytes more decided, takes]
    rfl
  refuse_append := by
    intro bytes error more refuses
    have decided : cut bytes ≠ .wait := by
      rw [refuses]
      exact nofun
    rw [later bytes more decided, refuses]
    rfl

/-- Taking the messages off some bytes leaves `rest`. -/
inductive Takes {α μ ζ : Type} (framer : Framer α μ ζ) :
    List α → List μ → List α → Prop where
  | nil (bytes : List α) :
      framer.Takes bytes [] bytes
  | cons {bytes later rest : List α} {message : μ} {messages : List μ} :
      framer.cut bytes = .take message later →
      framer.Takes later messages rest →
      framer.Takes bytes (message :: messages) rest

namespace Takes

variable
  {α μ ζ : Type} {framer : Framer α μ ζ}
  {bytes middle rest : List α} {first second : List μ}

/-- What is taken stays the same when more bytes follow. -/
theorem more
    (takes : framer.Takes bytes first rest) (more : List α) :
    framer.Takes (bytes ++ more) first (rest ++ more) := by
  induction takes with
  | nil bytes =>
      exact .nil _
  | cons cut _ inductionHypothesis =>
      exact .cons (framer.take_append _ _ _ more cut) inductionHypothesis

theorem append
    (takes : framer.Takes bytes first middle)
    (later : framer.Takes middle second rest) :
    framer.Takes bytes (first ++ second) rest := by
  induction takes with
  | nil bytes =>
      exact later
  | cons cut _ inductionHypothesis =>
      exact .cons cut (inductionHypothesis later)

/-- One more message is taken. -/
theorem snoc
    {message : μ}
    (takes : framer.Takes bytes first middle)
    (cut : framer.cut middle = .take message rest) :
    framer.Takes bytes (first ++ [message]) rest :=
  takes.append (.cons cut (.nil rest))

/-- What is left is not longer. -/
theorem length_le (takes : framer.Takes bytes first rest) :
    rest.length ≤ bytes.length := by
  induction takes with
  | nil bytes =>
      exact Nat.le_refl _
  | cons cut _ inductionHypothesis =>
      have shorter := framer.shrinks _ _ _ cut
      omega

/-- What is taken off encoded items are the first of them. -/
theorem of_items
    {ι : Type} {encode : ι → List α} {decode : ι → μ}
    (cut : ∀ item rest,
      framer.cut (encode item ++ rest) = .take (decode item) rest)
    {items : List ι}
    (takes : framer.Takes (items.map encode).flatten first rest) :
    ∃ count, first = (items.take count).map decode ∧
      rest = ((items.drop count).map encode).flatten := by
  induction first generalizing items with
  | nil =>
      cases takes with
      | nil =>
          exact ⟨0, rfl, rfl⟩
  | cons message later inductionHypothesis =>
      cases takes with
      | cons taken takes =>
          cases items with
          | nil =>
              have shorter := framer.shrinks _ _ _ taken
              exact absurd shorter (Nat.not_lt_zero _)
          | cons item items =>
              rw [List.map_cons, List.flatten_cons, cut] at taken
              cases taken
              obtain ⟨count, rfl, rfl⟩ := inductionHypothesis takes
              exact ⟨count + 1, rfl, rfl⟩

end Takes

/-- The messages that some bytes begin with; each round takes one off. -/
def messagesFrom {α μ ζ : Type} (framer : Framer α μ ζ) :
    Nat → List α → List μ
  | 0, _ => []
  | rounds + 1, bytes =>
      match framer.cut bytes with
      | .take message later => message :: messagesFrom framer rounds later
      | .wait | .refuse _ => []

/-- The messages that some bytes begin with. -/
def messages {α μ ζ : Type} (framer : Framer α μ ζ) (bytes : List α) :
    List μ :=
  messagesFrom framer bytes.length bytes

/-- What is taken off some bytes is among the messages they begin with. -/
theorem Takes.prefix_messages
    {α μ ζ : Type} {framer : Framer α μ ζ} {bytes rest : List α}
    {taken : List μ} (takes : framer.Takes bytes taken rest) :
    taken <+: framer.messages bytes := by
  have inside (rounds : Nat) (enough : bytes.length ≤ rounds) :
      taken <+: framer.messagesFrom rounds bytes := by
    induction takes generalizing rounds with
    | nil bytes =>
        exact List.nil_prefix
    | cons cut _ inductionHypothesis =>
        have shorter := framer.shrinks _ _ _ cut
        cases rounds with
        | zero =>
            omega
        | succ rounds =>
            rw [messagesFrom, cut]
            exact List.cons_prefix_cons.mpr
              ⟨rfl, inductionHypothesis rounds (by omega)⟩
  exact inside bytes.length (Nat.le_refl _)

variable
  {α μ ζ ε σ : Type}
  (framer : Framer α μ ζ)
  (handle : μ → Program ε σ (Option ζ))

/-- Go on after a handler, unless it returned an error. -/
def goOn (later : Program ε σ (Handled α ζ)) :
    Option ζ → Program ε σ (Handled α ζ)
  | none => later
  | some error => pure (.ended error)

/-- Handle one message after the other; a handler can end it with an error. -/
def run (bytes : List α) : Program ε σ (Handled α ζ) :=
  match _shape : framer.cut bytes with
  | .wait => pure (.waiting bytes)
  | .refuse error => pure (.ended error)
  | .take message rest => handle message >>= goOn (run rest)
termination_by bytes.length
decreasing_by exact framer.shrinks _ _ _ _shape

/-- Go on with the rest when more bytes arrive. -/
def resume (more : List α) :
    Handled α ζ → Program ε σ (Handled α ζ)
  | .waiting rest => framer.run handle (rest ++ more)
  | .ended error => pure (.ended error)

variable {framer} {handle} {bytes : List α}

theorem run_wait (waits : framer.cut bytes = .wait) :
    framer.run handle bytes = pure (.waiting bytes) := by
  rw [run]
  split
  · rfl
  · rename_i refused
    rw [waits] at refused
    cases refused
  · rename_i taken
    rw [waits] at taken
    cases taken

theorem run_refuse
    {error : ζ} (refuses : framer.cut bytes = .refuse error) :
    framer.run handle bytes = pure (.ended error) := by
  rw [run]
  split
  · rename_i waits
    rw [refuses] at waits
    cases waits
  · rename_i refused
    rw [refuses] at refused
    cases refused
    rfl
  · rename_i taken
    rw [refuses] at taken
    cases taken

theorem run_take
    {message : μ} {rest : List α}
    (takes : framer.cut bytes = .take message rest) :
    framer.run handle bytes =
      handle message >>= goOn (framer.run handle rest) := by
  rw [run]
  split
  · rename_i waits
    rw [takes] at waits
    cases waits
  · rename_i refused
    rw [takes] at refused
    cases refused
  · rename_i taken
    rw [takes] at taken
    cases taken
    rfl

/-- Bytes can be handled as they arrive. -/
theorem run_append (bytes more : List α) :
    framer.run handle (bytes ++ more) =
      framer.run handle bytes >>= framer.resume handle more := by
  induction size : bytes.length using Nat.strongRecOn
    generalizing bytes with
  | ind size inductionHypothesis =>
      cases shape : framer.cut bytes with
      | wait =>
          rw [run_wait shape]
          rfl
      | refuse error =>
          rw [run_refuse shape,
            run_refuse (framer.refuse_append _ _ more shape)]
          rfl
      | take message rest =>
          have smaller := framer.shrinks _ _ _ shape
          have later :=
            inductionHypothesis rest.length (size ▸ smaller) rest rfl
          rw [run_take shape,
            run_take (framer.take_append _ _ _ more shape), later,
            bind_bind]
          congr 1
          funext result
          cases result with
          | none =>
              rfl
          | some error =>
              rfl

/-- What is left waits for more. -/
theorem run_waiting {s s' : σ} {rest : List α}
    (runs : framer.run handle bytes s = .ok (.waiting rest, s')) :
    framer.cut rest = .wait := by
  induction size : bytes.length using Nat.strongRecOn
    generalizing bytes s with
  | ind size inductionHypothesis =>
      cases shape : framer.cut bytes with
      | wait =>
          rw [run_wait shape] at runs
          cases runs
          exact shape
      | refuse error =>
          rw [run_refuse shape] at runs
          cases runs
      | take message later =>
          rw [run_take shape] at runs
          obtain ⟨result, between, _, went⟩ := bind_ok runs
          cases result with
          | none =>
              have smaller := framer.shrinks _ _ _ shape
              exact inductionHypothesis later.length (size ▸ smaller)
                went rfl
          | some error =>
              cases went

/-- A run that returns leaves bytes that wait for more. -/
theorem wp_run_waiting
    {post : Handled α ζ → σ → Prop} {halt : ε → Prop} {s : σ}
    (established : wp (framer.run handle bytes) post halt s) :
    wp (framer.run handle bytes)
      (fun handled s' => post handled s' ∧
        ∀ rest, handled = .waiting rest → framer.cut rest = .wait)
      halt s := by
  unfold wp at established ⊢
  cases runs : framer.run handle bytes s with
  | ok result =>
      rw [runs] at established
      refine ⟨established, ?_⟩
      rintro rest waits
      have shape : result = (.waiting rest, result.2) :=
        Prod.ext waits rfl
      rw [shape] at runs
      exact run_waiting runs
  | error reason =>
      rw [runs] at established
      exact established

/-- The errors a run can end with are those of the framer and the handler. -/
theorem wp_run_ended
    {fine : ζ → Prop} {halt : ε → Prop}
    (refuses : ∀ bytes error,
      framer.cut bytes = .refuse error → fine error)
    (handles : ∀ message s,
      wp (handle message)
        (fun result _ => ∀ error, result = some error → fine error)
        halt s)
    (bytes : List α) (s : σ) :
    wp (framer.run handle bytes)
      (fun handled _ => ∀ error, handled = .ended error → fine error)
      halt s := by
  induction size : bytes.length using Nat.strongRecOn
    generalizing bytes s with
  | ind size inductionHypothesis =>
      cases shape : framer.cut bytes with
      | wait =>
          rw [run_wait shape]
          exact nofun
      | refuse error =>
          rw [run_refuse shape]
          rintro error' same
          cases same
          exact refuses bytes _ shape
      | take message rest =>
          have smaller := framer.shrinks _ _ _ shape
          rw [run_take shape]
          refine wp_seq (handles message s) ?_
          intro result s' ended
          cases result with
          | none =>
              exact inductionHypothesis rest.length (size ▸ smaller) rest
                s' rfl
          | some error =>
              rintro error' same
              cases same
              exact ended _ rfl

end Framer

/-! ### Items in a row -/

/-- The items at their positions lie one behind the other up to an end. -/
inductive Laid {μ : Type} (size : μ → Nat) :
    Nat → List (Nat × μ) → Nat → Prop where
  | nil (pos : Nat) :
      Laid size pos [] pos
  | cons {pos last : Nat} {item : μ} {later : List (Nat × μ)} :
      Laid size (pos + size item) later last →
      Laid size pos ((pos, item) :: later) last

namespace Laid

variable
  {μ : Type} {size other : μ → Nat} {pos last : Nat}
  {items : List (Nat × μ)}

/-- One more item at the end. -/
theorem snoc (laid : Laid size pos items last) (item : μ) :
    Laid size pos (items ++ [(last, item)]) (last + size item) := by
  induction laid with
  | nil pos =>
      exact .cons (.nil _)
  | cons _ inductionHypothesis =>
      exact .cons inductionHypothesis

/-- Where the items begin and end does not depend on their sizes. -/
theorem start_eq (laid : Laid size pos items last)
    {start : Nat} (laid' : Laid other start items last) :
    start = pos := by
  cases laid with
  | nil =>
      cases laid' with
      | nil =>
          rfl
  | cons _ =>
      cases laid' with
      | cons _ =>
          rfl

/-- Items that are laid out with one size are so with no other. -/
theorem iff_size (laid : Laid size pos items last) :
    Laid other pos items last ↔
      ∀ item ∈ items, other item.2 = size item.2 := by
  constructor
  · intro laid'
    induction laid with
    | nil pos =>
        exact nofun
    | @cons pos last item later rest inductionHypothesis =>
        cases laid' with
        | cons rest' =>
            have same : pos + other item = pos + size item :=
              rest.start_eq rest'
            rw [same] at rest'
            intro item' member
            rcases List.mem_cons.mp member with rfl | inside
            · exact Nat.add_left_cancel same
            · exact inductionHypothesis rest' item' inside
  · intro same
    induction laid with
    | nil pos =>
        exact .nil pos
    | @cons pos last item later rest inductionHypothesis =>
        have here := same _ List.mem_cons_self
        refine .cons ?_
        rw [here]
        exact inductionHypothesis fun item' member =>
          same item' (List.mem_cons_of_mem _ member)

end Laid

end Framing
