import Kcn.Bulk

namespace Kcn

open Program Bytes KcnBuf

/-!
# The lines of a file

What the parser makes of a line, of the head of a line and of a line whose
first separator it has already overwritten.
-/

/-- A byte of a word: printed and no blank. -/
def isgraph (c : UInt8) : Bool :=
  isprint c && !isspace c

/-- Digits can be part of a word. -/
theorem isgraph_of_isdigit {c : UInt8} (digit : isdigit c = true) :
    isgraph c = true := by
  unfold isgraph
  rw [isprint_of_isdigit digit, isspace_of_isdigit digit]
  rfl

/-- A decimal number below 2^63. -/
structure Number where
  digits : List UInt8
  nonempty : digits ≠ []
  all : ∀ c ∈ digits, isdigit c = true
  fits : decimal digits < 2 ^ 63

namespace Number

/-- The value that the code reads. -/
def value (number : Number) : UInt64 :=
  UInt64.ofNat (decimal number.digits)

theorem graph (number : Number) : ∀ c ∈ number.digits, isgraph c = true :=
  fun c member => isgraph_of_isdigit (number.all c member)

end Number

/-- A blank: a space or a tab. -/
def isblank (c : UInt8) : Bool :=
  c = 0x20 || c = 0x09

theorem isspace_of_isblank {c : UInt8} (blank : isblank c = true) :
    isspace c = true := by
  simp [isblank] at blank
  rcases blank with rfl | rfl <;> decide

/-- A line of a file, without what ends it. -/
structure Line where
  time : Number
  val : Number
  loc : List UInt8
  first : UInt8
  second : UInt8
  first_blank : isblank first = true
  second_blank : isblank second = true
  loc_nonempty : loc ≠ []
  loc_graph : ∀ c ∈ loc, isgraph c = true
  loc_le : loc.length ≤ kcnMsgMaxlocsiz

namespace Line

/-- The bytes of a line. -/
def text (line : Line) : List UInt8 :=
  line.time.digits ++
    line.first :: (line.val.digits ++ line.second :: line.loc)

/-- The newline. -/
def newline : UInt8 := 0x0a

/-- The bytes of a line and its newline. -/
def full (line : Line) : List UInt8 :=
  line.text ++ [newline]

/-- The message that is to be sent for a line. -/
def add (line : Line) (type : Nat) : KcnMsgAdd where
  kmaType := type
  kmaTime := line.time.value
  kmaVal := line.val.value
  kmaLoc := line.loc

theorem length_full (line : Line) :
    line.full.length = line.text.length + 1 := by
  rw [full, List.length_append, List.length_singleton]

/-- The timestamp is not the whole line. -/
theorem length_time_lt (line : Line) :
    line.time.digits.length < line.text.length := by
  unfold text
  rw [List.length_append, List.length_cons]
  omega

end Line

namespace KcndbctlFile

variable
  {size sp : Nat} {before after word : List UInt8} {kb : KcnBuf}
  {halt : Stop → Prop}

/-! ### One field -/

/-- The memory behind a part of the data starts with the rest of it. -/
theorem drop_bytes
    {here : List UInt8} (holds : kb.Holds size sp (before ++ here) after) :
    ∃ tail, kb.bytes.drop (sp + before.length) = here ++ tail := by
  have whole := holds.slice_data
  unfold slice at whole
  have split :=
    List.take_append_drop ((before ++ here).length + after.length)
      (kb.bytes.drop sp)
  rw [whole, List.append_assoc, List.append_assoc] at split
  rw [← List.drop_drop, ← split, List.drop_left]
  exact ⟨_, rfl⟩

/-- What `forward` does with the data behind the cursor. -/
inductive Forward (before : List UInt8) :
    List UInt8 → Option Errno → List UInt8 → List UInt8 → Prop where
  | passed {word rest : List UInt8} {c : UInt8} :
      (∀ d ∈ word, isgraph d = true) →
      isspace c = true →
      Forward before (word ++ c :: rest) none
        (before ++ (word ++ [c])) rest
  | ended {word : List UInt8} :
      (∀ d ∈ word, isgraph d = true) →
      Forward before word (some Errno.eagain) (before ++ word) []
  | refused {word rest : List UInt8} {c : UInt8} :
      (∀ d ∈ word, isgraph d = true) →
      isspace c = false →
      isprint c = false →
      Forward before (word ++ c :: rest) (some Errno.einval)
        (before ++ (word ++ [c])) rest

/-- A byte of a word is printed and no blank. -/
theorem of_isgraph {c : UInt8} (graph : isgraph c = true) :
    isspace c = false ∧ isprint c = true := by
  unfold isgraph at graph
  rw [Bool.and_eq_true, Bool.not_eq_true'] at graph
  exact ⟨graph.2, graph.1⟩

/-- The first byte is that of a word, or the last that is taken. -/
theorem Forward.head
    {c : UInt8} {result : Option Errno} {before' after' : List UInt8}
    (forward : Forward before (c :: after) result before' after') :
    isspace c = true ∧ result = none ∧ before' = before ++ [c] ∧
        after' = after ∨
      isspace c = false ∧ isprint c = false ∧
        result = some Errno.einval ∧ before' = before ++ [c] ∧
        after' = after ∨
      isgraph c = true ∧
        Forward (before ++ [c]) after result before' after' := by
  generalize whole : c :: after = bytes at forward
  cases forward with
  | @passed word _ d graphs space =>
      cases word with
      | nil =>
          cases whole
          exact Or.inl ⟨space, rfl, rfl, rfl⟩
      | cons first word =>
          cases whole
          apply Or.inr
          apply Or.inr
          refine ⟨graphs c List.mem_cons_self, ?_⟩
          have passed :
              Forward (before ++ [c]) (word ++ d :: after') none
                ((before ++ [c]) ++ (word ++ [d])) after' :=
            .passed
              (fun e member => graphs e (List.mem_cons_of_mem _ member))
              space
          rw [List.append_assoc] at passed
          exact passed
  | ended graphs =>
      cases whole
      apply Or.inr
      apply Or.inr
      refine ⟨graphs c List.mem_cons_self, ?_⟩
      have ended :
          Forward (before ++ [c]) after (some Errno.eagain)
            ((before ++ [c]) ++ after) [] :=
        .ended fun e member => graphs e (List.mem_cons_of_mem _ member)
      rw [List.append_assoc] at ended
      exact ended
  | @refused word _ d graphs noSpace noPrint =>
      cases word with
      | nil =>
          cases whole
          exact Or.inr (Or.inl ⟨noSpace, noPrint, rfl, rfl, rfl⟩)
      | cons first word =>
          cases whole
          apply Or.inr
          apply Or.inr
          refine ⟨graphs c List.mem_cons_self, ?_⟩
          have refused :
              Forward (before ++ [c]) (word ++ d :: after')
                (some Errno.einval) ((before ++ [c]) ++ (word ++ [d]))
                after' :=
            .refused
              (fun e member => graphs e (List.mem_cons_of_mem _ member))
              noSpace noPrint
          rw [List.append_assoc] at refused
          exact refused

/-- The loop of `forward` violates no assertion. -/
theorem wp_forwardLoop
    {post : Option Errno → KcnBuf → Prop} {rounds : Nat}
    {result : Option Errno} {before' after' : List UInt8}
    (holds : kb.Holds size sp before after)
    (forwards : Forward before after result before' after')
    (bound : after.length < rounds)
    (next : ∀ kb', kb'.Holds size sp before' after' → post result kb') :
    wp (forwardLoop rounds) post halt kb := by
  induction rounds generalizing before after kb with
  | zero =>
      exact absurd bound (Nat.not_lt_zero _)
  | succ rounds inductionHypothesis =>
      unfold forwardLoop
      rw [wp_bind, wp_gets, holds.trailingdata_eq]
      cases after with
      | nil =>
          rw [if_pos List.length_nil]
          generalize whole : ([] : List UInt8) = bytes at forwards
          cases forwards with
          | @passed word _ _ _ _ | @refused word _ _ _ _ _ =>
              cases word <;> cases whole
          | ended graphs =>
              cases whole
              rw [List.append_nil] at next
              exact next _ holds
      | cons c rest =>
          rw [List.length_cons, if_neg (Nat.succ_ne_zero _), wp_bind]
          unfold get8
          rw [wp_bind]
          apply wp_fetch holds
          · intro _ kb' holds'
            have taken : kb'.Holds size sp (before ++ [c]) rest := holds'
            show
              wp
                (if isspace c then pure none
                  else if ¬ isprint c then pure (some Errno.einval)
                  else forwardLoop rounds)
                post halt kb'
            rcases forwards.head with
              ⟨space, rfl, rfl, rfl⟩ |
              ⟨noSpace, noPrint, rfl, rfl, rfl⟩ | ⟨graph, later⟩
            · rw [if_pos space]
              exact next _ taken
            · rw [noSpace, noPrint, if_neg Bool.false_ne_true,
                if_pos Bool.false_ne_true]
              exact next _ taken
            · obtain ⟨noSpace, isPrint⟩ := of_isgraph graph
              rw [noSpace, isPrint, if_neg Bool.false_ne_true,
                if_neg (not_not.mpr rfl)]
              exact inductionHypothesis taken later
                (Nat.lt_of_succ_lt_succ bound)
          · intro short
            exact absurd short (by simp)

theorem wp_forward
    {post : Option Errno → KcnBuf → Prop}
    {result : Option Errno} {before' after' : List UInt8}
    (holds : kb.Holds size sp before after)
    (forwards : Forward before after result before' after')
    (next : ∀ kb', kb'.Holds size sp before' after' → post result kb') :
    wp forward post halt kb := by
  unfold forward
  rw [wp_bind, wp_gets, holds.trailingdata_eq]
  exact wp_forwardLoop holds forwards (Nat.lt_succ_self _) next

/-- `get64` of a word and the blank that ends it, which it overwrites. -/
theorem wp_get64_word
    {post : Except Errno UInt64 → KcnBuf → Prop} {c : UInt8}
    (graphs : ∀ d ∈ word, isgraph d = true)
    (space : isspace c = true)
    (holds : kb.Holds size sp before (word ++ c :: after))
    (next : ∀ kb',
      kb'.Holds size sp (before ++ (word ++ [0])) after →
      post (kcnStrtoull word 0 ullongMax) kb') :
    wp get64 post halt kb := by
  unfold get64
  rw [wp_bind, wp_gets, wp_bind]
  apply wp_forward holds (.passed graphs space)
  intro kb₁ holds₁
  rw [← List.append_assoc] at holds₁
  simp only [wp_bind]
  apply wp_backward holds₁
  intro kb₂ holds₂
  unfold put8
  apply wp_store holds₂
  · intro _ kb₃ holds₃
    rw [wp_gets, wp_pure]
    have settled :
        kb₃.Holds size sp (before ++ (word ++ [0])) after := by
      rw [← List.append_assoc]
      exact holds₃
    obtain ⟨tail, memory⟩ := drop_bytes settled
    have string :
        (kb₃.bytes.drop kb.cp).takeWhile (· ≠ 0) = word := by
      rw [holds.cp_eq, memory, List.append_assoc, List.singleton_append,
        List.takeWhile_append_of_pos]
      · rw [List.takeWhile_cons_of_neg (by decide), List.append_nil]
      · intro d member
        rw [decide_eq_true_eq]
        rintro rfl
        cases graphs 0 member
    rw [string]
    exact next kb₃ settled
  · intro full
    have room := holds₂.le_size
    have one : ([c] ++ after).length = 1 + after.length := by
      rw [List.length_append, List.length_singleton]
    rw [one] at room
    rw [List.length_singleton] at full
    omega

/-- `get64` of a number. -/
theorem wp_get64
    {post : Except Errno UInt64 → KcnBuf → Prop} {c : UInt8}
    (number : Number)
    (space : isspace c = true)
    (holds : kb.Holds size sp before (number.digits ++ c :: after))
    (next : ∀ kb',
      kb'.Holds size sp (before ++ (number.digits ++ [0])) after →
      post (.ok number.value) kb') :
    wp get64 post halt kb := by
  apply wp_get64_word number.graph space holds
  intro kb' holds'
  rw [kcnStrtoull_decimal number.nonempty number.all number.fits]
  exact next kb' holds'

/-- `get64` of a number that is not complete. -/
theorem wp_get64_again
    {post : Except Errno UInt64 → KcnBuf → Prop}
    (graphs : ∀ d ∈ after, isgraph d = true)
    (holds : kb.Holds size sp before after)
    (next : ∀ kb', kb'.Holds size sp (before ++ after) [] →
      post (.error Errno.eagain) kb') :
    wp get64 post halt kb := by
  unfold get64
  rw [wp_bind, wp_gets, wp_bind]
  apply wp_forward holds (.ended graphs)
  exact next

/-- `get64` of a word that is followed by a NUL. -/
theorem wp_get64_nul
    {post : Except Errno UInt64 → KcnBuf → Prop}
    (graphs : ∀ d ∈ word, isgraph d = true)
    (holds : kb.Holds size sp before (word ++ 0 :: after))
    (next : ∀ kb', post (.error Errno.einval) kb') :
    wp get64 post halt kb := by
  unfold get64
  rw [wp_bind, wp_gets, wp_bind]
  apply wp_forward holds (.refused graphs (by decide) (by decide))
  intro kb' _
  exact next kb'

/-- `getstr` of a locator and the blank that ends it. -/
theorem wp_getstr
    {post : Except Errno (List UInt8) → KcnBuf → Prop} {c : UInt8}
    (graphs : ∀ d ∈ word, isgraph d = true)
    (fits : word.length ≤ kcnMsgMaxlocsiz)
    (space : isspace c = true)
    (holds : kb.Holds size sp before (word ++ c :: after))
    (next : ∀ kb', kb'.Holds size sp (before ++ (word ++ [c])) after →
      post (.ok word) kb') :
    wp getstr post halt kb := by
  unfold getstr
  rw [wp_bind, wp_gets, wp_bind]
  apply wp_forward holds (.passed graphs space)
  intro kb₁ holds₁
  have slen : kb₁.cp - kb.cp - 1 = word.length := by
    rw [holds₁.cp_eq, holds.cp_eq, List.length_append,
      List.length_append, List.length_singleton]
    omega
  obtain ⟨tail, memory⟩ := drop_bytes holds₁
  have loc : slice kb₁.bytes kb.cp word.length = word := by
    rw [holds.cp_eq, slice, memory, List.append_assoc, List.take_left]
  show
    wp
      (do
        let slen ← gets fun kb' => kb'.cp - kb.cp - 1
        if slen > kcnMsgMaxlocsiz then
          pure (.error Errno.e2big)
        else
          let loc ← gets fun kb' => slice kb'.bytes kb.cp slen
          pure (.ok loc))
      post halt kb₁
  rw [wp_bind, wp_gets, slen, if_neg (Nat.not_lt.mpr fits), wp_bind,
    wp_gets, loc]
  exact next kb₁ holds₁

/-- `getstr` of a locator that is not complete. -/
theorem wp_getstr_again
    {post : Except Errno (List UInt8) → KcnBuf → Prop}
    (graphs : ∀ d ∈ after, isgraph d = true)
    (holds : kb.Holds size sp before after)
    (next : ∀ kb', kb'.Holds size sp (before ++ after) [] →
      post (.error Errno.eagain) kb') :
    wp getstr post halt kb := by
  unfold getstr
  rw [wp_bind, wp_gets, wp_bind]
  apply wp_forward holds (.ended graphs)
  exact next

/-! ### One line -/

/-- The head of two words with a byte between them. -/
theorem prefix_append_cases
    {whole first second : List UInt8} {c : UInt8}
    (isPrefix : whole <+: first ++ c :: second) :
    whole <+: first ∨
      ∃ rest, whole = first ++ c :: rest ∧ rest <+: second := by
  obtain ⟨tail, same⟩ := isPrefix
  rcases List.append_eq_append_iff.mp same with
    ⟨rest, firstEq, _⟩ | ⟨rest, wholeEq, secondEq⟩
  · exact Or.inl ⟨rest, firstEq.symm⟩
  · cases rest with
    | nil =>
        rw [List.append_nil] at wholeEq
        exact Or.inl (wholeEq ▸ List.prefix_refl _)
    | cons d rest =>
        obtain ⟨rfl, restEq⟩ := List.cons.inj secondEq
        exact Or.inr ⟨rest, wholeEq, tail, restEq.symm⟩

/-- The fields of a line that is complete. -/
theorem wp_fields
    {post : Except Errno KcnMsgAdd → KcnBuf → Prop}
    (line : Line) (type : Nat)
    (holds : kb.Holds size sp [] (line.full ++ after))
    (next : ∀ taken kb',
      taken.length = line.full.length →
      kb'.Holds size sp taken after →
      post (.ok (line.add type)) kb') :
    wp (fields type) post halt kb := by
  have shape :
      line.full ++ after =
        line.time.digits ++ line.first ::
          (line.val.digits ++ line.second ::
            (line.loc ++ Line.newline :: after)) := by
    simp [Line.full, Line.text]
  rw [shape] at holds
  unfold fields
  rw [wp_bind]
  apply wp_get64 line.time (isspace_of_isblank line.first_blank) holds
  intro kb₁ holds₁
  simp only [wp_bind]
  apply wp_get64 line.val (isspace_of_isblank line.second_blank) holds₁
  intro kb₂ holds₂
  simp only [wp_bind]
  apply wp_getstr line.loc_graph line.loc_le (by decide) holds₂
  intro kb₃ holds₃
  apply next _ kb₃ _ holds₃
  simp [Line.full, Line.text]

/-- What the parser leaves of the head of a line. -/
inductive Cut (line : Line) (bytes : List UInt8) : List UInt8 → Prop where
  | whole : bytes <+: line.time.digits → Cut line bytes bytes
  | spoiled (rest : List UInt8) :
      Cut line bytes (line.time.digits ++ 0 :: rest)

/-- The fields of a line that is not complete. -/
theorem wp_fields_again
    {post : Except Errno KcnMsgAdd → KcnBuf → Prop}
    {line : Line} (type : Nat)
    (isPrefix : after <+: line.text)
    (holds : kb.Holds size sp [] after)
    (next : ∀ left kb',
      Cut line after left →
      left.length = after.length →
      kb'.Holds size sp left [] →
      post (.error Errno.eagain) kb') :
    wp (fields type) post halt kb := by
  have graphOf {word all : List UInt8} (inside : word <+: all)
      (graphs : ∀ d ∈ all, isgraph d = true) :
      ∀ d ∈ word, isgraph d = true :=
    fun d member => graphs d (inside.subset member)
  unfold fields
  rw [wp_bind]
  rcases prefix_append_cases isPrefix with inTime | ⟨rest, rfl, inRest⟩
  · apply wp_get64_again (graphOf inTime line.time.graph) holds
    intro kb' holds'
    exact next after kb' (.whole inTime) rfl holds'
  · rcases prefix_append_cases inRest with inVal | ⟨rest', rfl, inLoc⟩
    · apply wp_get64 line.time (isspace_of_isblank line.first_blank)
        holds
      intro kb₁ holds₁
      simp only [wp_bind]
      apply wp_get64_again (graphOf inVal line.val.graph) holds₁
      intro kb₂ holds₂
      rw [List.nil_append, List.append_assoc] at holds₂
      apply next _ kb₂ (.spoiled rest) _ holds₂
      simp
    · apply wp_get64 line.time (isspace_of_isblank line.first_blank)
        holds
      intro kb₁ holds₁
      simp only [wp_bind]
      apply wp_get64 line.val (isspace_of_isblank line.second_blank)
        holds₁
      intro kb₂ holds₂
      simp only [wp_bind]
      apply wp_getstr_again (graphOf inLoc line.loc_graph) holds₂
      intro kb₃ holds₃
      rw [List.nil_append, List.append_assoc, List.append_assoc]
        at holds₃
      apply next _ kb₃
        (.spoiled (line.val.digits ++ [0] ++ rest')) _ _
      · simp
      · exact holds₃

/-- The fields of a line whose first separator is overwritten. -/
theorem wp_fields_spoiled
    {post : Except Errno KcnMsgAdd → KcnBuf → Prop}
    (line : Line) (type : Nat)
    (holds : kb.Holds size sp [] (line.time.digits ++ 0 :: after))
    (next : ∀ kb', post (.error Errno.einval) kb') :
    wp (fields type) post halt kb := by
  unfold fields
  rw [wp_bind]
  apply wp_get64_nul line.time.graph holds
  exact next

/-- There is nothing to parse. -/
theorem wp_fields_nil
    {post : Except Errno KcnMsgAdd → KcnBuf → Prop}
    (type : Nat)
    (holds : kb.Holds size sp [] [])
    (next : ∀ kb', kb'.Holds size sp [] [] →
      post (.error Errno.eagain) kb') :
    wp (fields type) post halt kb := by
  unfold fields
  rw [wp_bind]
  apply wp_get64_again (by exact nofun) holds
  exact next

end KcndbctlFile

end Kcn
