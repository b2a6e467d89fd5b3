import Kcn.Library.Bytes
import Kcn.Keyword

namespace Kcn

open Program Words Bytes

/-!
# Tokens in place

`kcn_token` walks over a string and gives the places of its tokens.  They are
the keywords of `kcn_key_split`.
-/

/-- `struct kcn_token`, with the memory from the start of the string on. -/
structure KcnToken where
  s : List UInt8
  ktSp : Nat
  ktEp : Nat
  deriving Repr, DecidableEq

namespace KcnToken

/-- `kcn_token_new` -/
def new (s : List UInt8) : KcnToken where
  s := s
  ktSp := 0
  ktEp := 0

/-- `isblank` -/
def isblank (c : UInt8) : Bool :=
  c = 0x20 || c = 0x09

/-- Programs on a token. -/
abbrev TokenOp (α : Type) : Type :=
  Program Stop KcnToken α

/-- The first loop of `kcn_token_get`, on the memory from `cp` on. -/
def skipBlank (cp : Nat) : List UInt8 → TokenOp Nat
  | [] => stop .wild
  | c :: later =>
      if isblank c then skipBlank (cp + 1) later else pure cp

/-- The second loop of `kcn_token_get`. -/
def skipToken (cp : Nat) : List UInt8 → TokenOp Nat
  | [] => stop .wild
  | c :: later =>
      if c ≠ 0 ∧ ! isblank c then skipToken (cp + 1) later else pure cp

/-- `kcn_token_get`: the place of the token and its length, or NULL. -/
def get : TokenOp (Option (Nat × Nat)) := do
  let kt ← gets id
  let cp ← skipBlank kt.ktEp (kt.s.drop kt.ktEp)
  modify fun kt => { kt with ktSp := cp }
  let cp ← skipToken cp (kt.s.drop cp)
  modify fun kt => { kt with ktEp := cp }
  let kt ← gets id
  let tlen := kt.ktEp - kt.ktSp
  if tlen ≠ 0 then
    pure (some (kt.ktSp, tlen))
  else
    pure none

/-- Calls of `kcn_token_get`, one after the other. -/
def getAll : Nat → TokenOp (List (Option (Nat × Nat)))
  | 0 => pure []
  | calls + 1 => do
      let first ← get
      let later ← getAll calls
      pure (first :: later)

/-! ### One call -/

variable {kt : KcnToken} {text : List UInt8}

theorem isblank_eq (c : UInt8) : isblank c = separates c :=
  rfl

/-- Blanks before a byte that is none are skipped. -/
theorem skipBlank_eq
    {blanks rest : List UInt8} {c : UInt8}
    (blank : ∀ d ∈ blanks, separates d = true)
    (plain : separates c = false) (cp : Nat) :
    skipBlank cp (blanks ++ c :: rest) kt =
      .ok (cp + blanks.length, kt) := by
  induction blanks generalizing cp with
  | nil =>
      rw [List.nil_append, skipBlank, isblank_eq, plain]
      rfl
  | cons d later inductionHypothesis =>
      have here := blank d List.mem_cons_self
      have others : ∀ e ∈ later, separates e = true :=
        fun e member => blank e (List.mem_cons_of_mem _ member)
      rw [List.cons_append, skipBlank, isblank_eq, here, if_pos rfl,
        inductionHypothesis others, List.length_cons, Nat.add_assoc,
        Nat.add_comm 1]

/-- A token before a NUL or a blank is skipped. -/
theorem skipToken_eq
    {token rest : List UInt8} {c : UInt8}
    (noNul : (0 : UInt8) ∉ token) (isPure : Pure separates token)
    (ends : c = 0 ∨ separates c = true) (cp : Nat) :
    skipToken cp (token ++ c :: rest) kt =
      .ok (cp + token.length, kt) := by
  induction token generalizing cp with
  | nil =>
      have stops : ¬ (c ≠ 0 ∧ (! isblank c) = true) := by
        rintro ⟨some, plain⟩
        rcases ends with nul | isSep
        · exact some nul
        · rw [isblank_eq, isSep] at plain
          cases plain
      rw [List.nil_append, skipToken, if_neg stops]
      rfl
  | cons d later inductionHypothesis =>
      have goes : d ≠ 0 ∧ (! isblank d) = true := by
        constructor
        · rintro rfl
          exact noNul List.mem_cons_self
        · rw [isblank_eq, isPure d List.mem_cons_self]
          rfl
      have noNul' : (0 : UInt8) ∉ later :=
        fun inside => noNul (List.mem_cons_of_mem _ inside)
      have isPure' : Pure separates later :=
        fun e member => isPure e (List.mem_cons_of_mem _ member)
      rw [List.cons_append, skipToken, if_pos goes,
        inductionHypothesis noNul' isPure', List.length_cons,
        Nat.add_assoc, Nat.add_comm 1]

/-- The memory holds the string and a NUL, and the token is inside. -/
structure Walks (text : List UInt8) (kt : KcnToken) : Prop where
  memory_eq : ∃ tail, kt.s = text ++ 0 :: tail
  noNul : (0 : UInt8) ∉ text
  inside : kt.ktEp ≤ text.length

/-- Where `kcn_token_get` leaves the token. -/
def moved (kt : KcnToken) (sp ep : Nat) : KcnToken :=
  { kt with ktSp := sp, ktEp := ep }

/-- A call skips blanks, and gives the token behind them. -/
theorem get_token
    {before blanks token rest : List UInt8} {t c : UInt8}
    (memory : kt.s = before ++ (blanks ++ (t :: token ++ c :: rest)))
    (start : kt.ktEp = before.length)
    (blank : ∀ d ∈ blanks, separates d = true)
    (noNul : (0 : UInt8) ∉ t :: token)
    (isPure : Pure separates (t :: token))
    (ends : c = 0 ∨ separates c = true) :
    get kt = .ok
      (some (before.length + blanks.length, (t :: token).length),
        kt.moved (before.length + blanks.length)
          (before.length + blanks.length + (t :: token).length)) := by
  have plain := isPure t List.mem_cons_self
  have first : skipBlank kt.ktEp (kt.s.drop kt.ktEp) kt =
      .ok (before.length + blanks.length, kt) := by
    rw [memory, start, List.drop_left, List.cons_append]
    exact skipBlank_eq blank plain _
  have second (kt' : KcnToken) :
      skipToken (before.length + blanks.length)
          (kt.s.drop (before.length + blanks.length)) kt' =
        .ok (before.length + blanks.length + (t :: token).length,
          kt') := by
    rw [memory, ← List.append_assoc, ← List.length_append,
      List.drop_left]
    exact skipToken_eq noNul isPure ends _
  have length : before.length + blanks.length + (t :: token).length -
      (before.length + blanks.length) = (t :: token).length :=
    Nat.add_sub_cancel_left ..
  have some : (t :: token).length ≠ 0 := by simp
  rw [get, bind_of_ok (show gets id kt = _ from rfl)]
  rw [id, bind_of_ok first, bind_of_ok (show modify _ kt = _ from rfl),
    bind_of_ok (second _), bind_of_ok (show modify _ _ = _ from rfl),
    bind_of_ok (show gets id _ = _ from rfl)]
  simp only [id, length, ne_eq, some, not_false_eq_true, if_true]
  rfl

/-- A call that finds only blanks gives NULL. -/
theorem get_null
    {before blanks rest : List UInt8}
    (memory : kt.s = before ++ (blanks ++ 0 :: rest))
    (start : kt.ktEp = before.length)
    (blank : ∀ d ∈ blanks, separates d = true) :
    get kt = .ok
      (none,
        kt.moved (before.length + blanks.length)
          (before.length + blanks.length)) := by
  have first : skipBlank kt.ktEp (kt.s.drop kt.ktEp) kt =
      .ok (before.length + blanks.length, kt) := by
    rw [memory, start, List.drop_left]
    exact skipBlank_eq blank rfl _
  have second (kt' : KcnToken) :
      skipToken (before.length + blanks.length)
          (kt.s.drop (before.length + blanks.length)) kt' =
        .ok (before.length + blanks.length, kt') := by
    rw [memory, ← List.append_assoc, ← List.length_append,
      List.drop_left]
    rfl
  rw [get, bind_of_ok (show gets id kt = _ from rfl)]
  rw [id, bind_of_ok first, bind_of_ok (show modify _ kt = _ from rfl),
    bind_of_ok (second _), bind_of_ok (show modify _ _ = _ from rfl),
    bind_of_ok (show gets id _ = _ from rfl)]
  simp only [id, Nat.sub_self, ne_eq, not_true_eq_false, if_false]
  rfl

/--
One call: either only blanks are left, or the next word is at the place that
the call gives, and the further words are behind it.
-/
theorem get_cases (walks : Walks text kt) :
    (words separates (text.drop kt.ktEp) = [] ∧
      ∃ kt', get kt = .ok (none, kt') ∧ Walks text kt' ∧
        words separates (text.drop kt'.ktEp) = []) ∨
      ∃ p l kt', get kt = .ok (some (p, l), kt') ∧ Walks text kt' ∧
        words separates (text.drop kt.ktEp) =
          slice text p l :: words separates (text.drop kt'.ktEp) ∧
        kt.ktEp ≤ p ∧ 0 < l ∧ kt'.ktEp = p + l := by
  obtain ⟨tail, memory⟩ := walks.memory_eq
  let before := text.take kt.ktEp
  let left := text.drop kt.ktEp
  let blanks := left.takeWhile separates
  have start : kt.ktEp = before.length := by
    rw [List.length_take, Nat.min_eq_left walks.inside]
  have whole : text = before ++ left :=
    (List.take_append_drop kt.ktEp text).symm
  have split : left = blanks ++ left.dropWhile separates :=
    List.takeWhile_append_dropWhile.symm
  have blank : ∀ d ∈ blanks, separates d = true :=
    fun d member => List.mem_takeWhile_imp member
  have skipped : words separates (left.dropWhile separates) =
      words separates left :=
    words_dropWhile left
  cases shape : left.dropWhile separates with
  | nil =>
      apply Or.inl
      rw [shape] at split skipped
      rw [List.append_nil] at split
      have memory' : kt.s = before ++ (blanks ++ 0 :: tail) := by
        rw [memory, whole, ← split, List.append_assoc]
      have ends : before.length + blanks.length = text.length := by
        rw [whole, ← split, List.length_append]
      refine ⟨skipped.symm, _, get_null memory' start blank, ?_, ?_⟩
      · exact ⟨⟨tail, memory⟩, walks.noNul, Nat.le_of_eq ends⟩
      · rw [moved, ends, List.drop_length]
        rfl
  | cons t later =>
      apply Or.inr
      have plain : separates t = false := by
        have head := List.head?_dropWhile_not separates left
        rw [shape] at head
        simpa using head
      let token := later.takeWhile (! separates ·)
      let rest := (t :: later).dropWhile (! separates ·)
      have tokenEq : (t :: later).takeWhile (! separates ·) =
          t :: token :=
        List.takeWhile_cons_of_pos (by simp [plain])
      have pieces : t :: later = t :: token ++ rest := by
        rw [← tokenEq]
        exact List.takeWhile_append_dropWhile.symm
      rw [shape] at split skipped
      have wholeEq : text = before ++ (blanks ++ (t :: token ++ rest)) := by
        rw [← pieces, ← split, ← whole]
      have isPure : Pure separates (t :: token) := by
        rw [← tokenEq]
        intro d member
        simpa using List.mem_takeWhile_imp member
      have noNul : (0 : UInt8) ∉ t :: token := by
        intro inside
        apply walks.noNul
        rw [wholeEq]
        exact List.mem_append_right _ (List.mem_append_right _
          (List.mem_append_left _ inside))
      obtain ⟨c, more, next, ends⟩ :
          ∃ c more, rest ++ 0 :: tail = c :: more ∧
            (c = 0 ∨ separates c = true) := by
        cases restShape : rest with
        | nil =>
            exact ⟨0, tail, rfl, Or.inl rfl⟩
        | cons d more =>
            refine ⟨d, more ++ 0 :: tail, rfl, Or.inr ?_⟩
            have head :=
              List.head?_dropWhile_not (! separates ·) (t :: later)
            rw [show (t :: later).dropWhile (! separates ·) = d :: more
              from restShape] at head
            simpa using head
      have memory' :
          kt.s = before ++ (blanks ++ (t :: token ++ c :: more)) := by
        rw [memory, wholeEq, ← next]
        simp only [List.append_assoc]
      have behind : text.drop
          (before.length + blanks.length + (t :: token).length) =
            rest := by
        rw [wholeEq, ← List.append_assoc, ← List.append_assoc,
          ← List.length_append, ← List.length_append, List.drop_left]
      have length := congrArg List.length wholeEq
      simp only [List.length_append] at length
      refine ⟨_, _, _,
        get_token memory' start blank noNul isPure ends, ?_, ?_, ?_, ?_, rfl⟩
      · refine ⟨⟨tail, memory⟩, walks.noNul, ?_⟩
        rw [moved]
        simp only
        omega
      · rw [← show _ = words separates left from skipped,
          words_takeWhile plain, tokenEq, moved]
        simp only
        rw [behind]
        congr 1
        rw [slice, wholeEq, ← List.append_assoc, ← List.length_append,
          List.drop_left, List.take_left]
      · omega
      · simp

/-! ### All calls -/

/-- The places lie behind each other in the string. -/
def InOrder (low high : Nat) : List (Nat × Nat) → Prop
  | [] => low ≤ high
  | (p, l) :: later => low ≤ p ∧ 0 < l ∧ InOrder (p + l) high later

/-- After the last word all calls give NULL. -/
theorem getAll_null
    (walks : Walks text kt)
    (none : words separates (text.drop kt.ktEp) = []) (calls : Nat) :
    ∃ kt', getAll calls kt = .ok (List.replicate calls .none, kt') := by
  induction calls generalizing kt with
  | zero =>
      exact ⟨kt, rfl⟩
  | succ calls inductionHypothesis =>
      rcases get_cases walks with
        ⟨_, kt₁, ran, walks₁, none₁⟩ | ⟨_, _, _, _, _, some, _⟩
      · obtain ⟨kt', later⟩ := inductionHypothesis walks₁ none₁
        refine ⟨kt', ?_⟩
        rw [getAll, bind_of_ok ran, bind_of_ok later]
        rfl
      · rw [none] at some
        cases some

/-- The calls give the places of the words in order, and then NULL. -/
theorem getAll_words
    {keyv : List (List UInt8)} (walks : Walks text kt)
    (left : words separates (text.drop kt.ktEp) = keyv) :
    ∃ places : List (Nat × Nat),
      places.map (fun (p, l) => slice text p l) = keyv ∧
        InOrder kt.ktEp text.length places ∧
        ∀ more, ∃ kt', getAll (places.length + more) kt =
          .ok (places.map some ++ List.replicate more none, kt') := by
  induction keyv generalizing kt with
  | nil =>
      refine ⟨[], rfl, walks.inside, ?_⟩
      intro more
      rw [List.length_nil, Nat.zero_add]
      exact getAll_null walks left more
  | cons key keyv inductionHypothesis =>
      rcases get_cases walks with
        ⟨none, _⟩ | ⟨p, l, kt₁, ran, walks₁, split, above, some, ep⟩
      · rw [left] at none
        cases none
      · rw [left] at split
        obtain ⟨rfl, rest⟩ := List.cons.inj split
        obtain ⟨places, same, inOrder, calls⟩ :=
          inductionHypothesis walks₁ rest.symm
        rw [ep] at inOrder
        refine ⟨(p, l) :: places, ?_, ⟨above, some, inOrder⟩, ?_⟩
        · rw [List.map_cons, same]
        · intro more
          obtain ⟨kt', later⟩ := calls more
          refine ⟨kt', ?_⟩
          have count : ((p, l) :: places).length + more =
              places.length + more + 1 := by
            rw [List.length_cons]
            omega
          rw [count, getAll, bind_of_ok ran, bind_of_ok later]
          rfl

/--
For every string the calls give the places of the keywords that
`kcn_key_split` gives, behind each other, and after them NULL.
-/
theorem tokenisers_agree
    {text : List UInt8} (noNul : (0 : UInt8) ∉ text)
    (behind : List UInt8) :
    ∃ places : List (Nat × Nat),
      places.map (fun (p, l) => slice text p l) = kcnKeySplit text ∧
        InOrder 0 text.length places ∧
        ∀ more, ∃ kt',
          getAll (places.length + more) (new (text ++ 0 :: behind)) =
            .ok (places.map some ++ List.replicate more none, kt') := by
  have walks : Walks text (new (text ++ 0 :: behind)) :=
    ⟨⟨behind, rfl⟩, noNul, Nat.zero_le _⟩
  rw [kcnKeySplit_eq]
  exact getAll_words walks rfl

/-- Two words between blanks. -/
theorem tokenisers_agree_two :
    ∃ places : List (Nat × Nat),
      places.map (fun (p, l) => slice [0x20, 0x61, 0x09, 0x20, 0x62] p l) =
        kcnKeySplit [0x20, 0x61, 0x09, 0x20, 0x62] := by
  obtain ⟨places, same, _⟩ :=
    @tokenisers_agree [0x20, 0x61, 0x09, 0x20, 0x62] (by decide) []
  exact ⟨places, same⟩

end KcnToken

end Kcn
