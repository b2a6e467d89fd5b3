import Mathlib.Data.List.Basic
import Kcn.Keyword

namespace Kcn

open Program

/-!
# Building a URI

`kcn_uri`, with the memory blocks it writes and the allocator that grants them.
-/

/-- The allocator: the requests it grants and what new memory holds. -/
structure Heap where
  granted : Nat → Bool
  fresh : Nat → Nat → UInt8
  asked : Nat

/-- `malloc` and `realloc`; whether the request is granted. -/
def Heap.malloc : Program Stop Heap Bool := do
  let heap ← gets id
  modify fun heap => { heap with asked := heap.asked + 1 }
  pure (heap.granted heap.asked)

/-- Every request is granted. -/
def Heap.Grants (heap : Heap) : Prop :=
  ∀ request, heap.granted request = true

/-- An allocator that grants every request. -/
def Heap.granting : Heap where
  granted := fun _ => true
  fresh := fun _ _ => 0
  asked := 0

theorem Heap.grants_granting : Heap.granting.Grants :=
  fun _ => rfl

/-- What a request of memory leaves of the allocator. -/
def Heap.Later (heap heap' : Heap) : Prop :=
  heap'.granted = heap.granted

theorem Heap.Later.trans
    {heap heap' heap'' : Heap} (earlier : Heap.Later heap heap')
    (later : Heap.Later heap' heap'') : Heap.Later heap heap'' :=
  Eq.trans later earlier

/-- An allocator that refuses later refuses some requests. -/
theorem Heap.Later.refuses
    {heap heap' : Heap} (later : Heap.Later heap heap')
    (refusing : ¬ heap'.Grants) : ¬ heap.Grants := by
  unfold Heap.Grants at refusing ⊢
  rwa [later] at refusing

/-- Later requests are granted too. -/
theorem Heap.Later.grants
    {heap heap' : Heap} (later : Heap.Later heap heap')
    (grants : heap.Grants) : heap'.Grants := by
  intro request
  rw [later]
  exact grants request

/-- A request is granted or refused. -/
theorem Heap.wp_malloc
    {heap : Heap} {post : Bool → Heap → Prop} {halt : Stop → Prop}
    (refused : ∀ heap',
      Heap.Later heap heap' → ¬ heap.Grants → post false heap')
    (granted : ∀ heap', Heap.Later heap heap' → post true heap') :
    wp Heap.malloc post halt heap := by
  simp only [Heap.malloc, wp_bind, wp_gets, wp_modify, wp_pure, id]
  cases answer : heap.granted heap.asked with
  | false =>
      refine refused _ rfl ?_
      intro grants
      rw [grants] at answer
      cases answer
  | true =>
      exact granted _ rfl

/-- `struct kcn_uri`; `kuUri` is the whole block. -/
structure KcnUri where
  kuUrilen : Nat
  kuUri : List UInt8
  deriving Repr, DecidableEq

/-- A URI and the allocator. -/
structure UriCtx where
  ku : KcnUri
  heap : Heap

namespace UriCtx

/-- The allocator as a part of the state. -/
def heapLens : Lens UriCtx Heap where
  get ctx := ctx.heap
  set ctx heap := { ctx with heap := heap }

/-- Change the block. -/
def setUri (uri : List UInt8) (ctx : UriCtx) : UriCtx :=
  { ctx with ku := { ctx.ku with kuUri := uri } }

@[simp] theorem setUri_uri (uri : List UInt8) (ctx : UriCtx) :
    (setUri uri ctx).ku.kuUri = uri :=
  rfl

@[simp] theorem setUri_setUri (uri uri' : List UInt8) (ctx : UriCtx) :
    setUri uri (setUri uri' ctx) = setUri uri ctx :=
  rfl

@[simp] theorem setUri_self (ctx : UriCtx) :
    setUri ctx.ku.kuUri ctx = ctx :=
  rfl

/-- Write a byte of the block. -/
def poke (i : Nat) (c : UInt8) : Program Stop UriCtx Unit := do
  let ctx ← gets id
  if i < ctx.ku.kuUri.length then
    modify (setUri (ctx.ku.kuUri.set i c))
  else
    stop .wild

/-- Write consecutive bytes of the block. -/
def pokes : Nat → List UInt8 → Program Stop UriCtx Unit
  | _, [] => pure ()
  | i, c :: s => do
      poke i c
      pokes (i + 1) s

/-- Assign the length. -/
def setUrilen (len : Nat) : Program Stop UriCtx Unit :=
  modify fun ctx => { ctx with ku := { ctx.ku with kuUrilen := len } }

end UriCtx

namespace KcnUri

open UriCtx

/-- `isalnum` -/
def isalnum (c : UInt8) : Bool :=
  isdigit c || (0x41 ≤ c && c ≤ 0x5a) || (0x61 ≤ c && c ≤ 0x7a)

/-- `kcn_uri_str_isnormal` -/
def isnormal (c : UInt8) : Bool :=
  isalnum c || c = 0x2e || c = 0x2d || c = 0x5f

/-- `KCN_URI_ENCODING_FACTOR` -/
def encodingFactor : Nat := 3

/-- `kcn_uri_str_len` -/
def strLen (s : List UInt8) (isencoding : Bool) : Nat :=
  match s with
  | [] => 0
  | c :: later =>
      if isencoding && ! isnormal c && c ≠ 0x20 then
        strLen later isencoding + encodingFactor
      else
        strLen later isencoding + 1

/-- `kcn_uri_len` -/
def len (ku : KcnUri) : Nat :=
  ku.kuUrilen

/-- The string that `kcn_uri` gives. -/
def uri (ku : KcnUri) : List UInt8 :=
  ku.kuUri.takeWhile (· ≠ 0)

/-- `kcn_uri_new`, without the URI where an allocation fails. -/
def new (base : List UInt8) : Program Stop Heap (Option KcnUri) := do
  if ← Heap.malloc then
    if ← Heap.malloc then
      pure (some {
        kuUrilen := strLen base false
        kuUri := (base ++ [0]).take (strLen base false + 1)
      })
    else
      pure none
  else
    pure none

/-- `kcn_uri_ensure_trailing_space` -/
def ensureTrailingSpace (tlen : Nat) : Program Stop UriCtx Bool := do
  let ctx ← gets id
  let nlen := ctx.ku.kuUrilen + tlen
  if ← zoom heapLens Heap.malloc then
    let size := ctx.ku.kuUri.length
    let fresh := ctx.heap.fresh ctx.heap.asked
    modify (setUri (ctx.ku.kuUri.take (nlen + 1) ++
      (List.range (nlen + 1 - size)).map fresh))
    poke nlen 0
    pure true
  else
    pure false

/-- `kcn_uri_resize` -/
def resize (len : Nat) : Program Stop UriCtx Unit := do
  let ctx ← gets id
  if len ≤ ctx.ku.kuUrilen then
    setUrilen len
    poke len 0
  else
    stop .uriAssertion

/-- `hexstr` -/
def hexstr : List UInt8 := ascii "0123456789ABCDEF"

/-- The bytes of the encoding of one byte. -/
def encoded (c : UInt8) : List UInt8 :=
  if isnormal c then
    [c]
  else if c = 0x20 then
    [0x2b]
  else
    [0x25, hexstr.getD (c.toNat / 16) 0, hexstr.getD (c.toNat % 16) 0]

/-- The loop of `kcn_uri_encputs`; `d` is where it writes. -/
def encLoop : List UInt8 → Nat → Program Stop UriCtx Nat
  | [], d => pure d
  | c :: s, d => do
      pokes d (encoded c)
      encLoop s (d + (encoded c).length)

/-- `kcn_uri_encputs` -/
def encputs (s : List UInt8) : Program Stop UriCtx Bool := do
  if ← ensureTrailingSpace (strLen s true) then
    let start ← gets fun ctx => ctx.ku.kuUrilen
    let d ← encLoop s start
    setUrilen d
    pure true
  else
    pure false

/-- `kcn_uri_puts` -/
def puts (s : List UInt8) : Program Stop UriCtx Bool := do
  let slen := strLen s false
  if ← ensureTrailingSpace slen then
    let start ← gets fun ctx => ctx.ku.kuUrilen
    pokes start (s.take slen)
    setUrilen (start + slen)
    pure true
  else
    pure false

/-- `kcn_uri_param_puts`; a NULL value is none. -/
def paramPuts
    (param : List UInt8) (val : Option (List UInt8)) :
    Program Stop UriCtx Bool := do
  match val with
  | none => pure true
  | some val =>
      if ← puts (ascii "&") then
        if ← puts param then
          if ← puts (ascii "=") then
            encputs val
          else
            pure false
        else
          pure false
      else
        pure false

/-! ### What the operations do -/

/-- The bytes that stand for a value. -/
def encode (s : List UInt8) : List UInt8 :=
  s.flatMap encoded

/-- The bytes that a parameter adds. -/
def field (param : List UInt8) (val : Option (List UInt8)) :
    List UInt8 :=
  match val with
  | none => []
  | some val => ascii "&" ++ param ++ ascii "=" ++ encode val

/-- The block holds the text, a NUL and further bytes. -/
structure Holds (ku : KcnUri) (text : List UInt8) : Prop where
  len_eq : ku.kuUrilen = text.length
  block_eq : ∃ tail, ku.kuUri = text ++ 0 :: tail
  noNul : (0 : UInt8) ∉ text

/-- The string is the text. -/
theorem Holds.uri_eq
    {ku : KcnUri} {text : List UInt8} (holds : Holds ku text) :
    ku.uri = text := by
  obtain ⟨tail, block⟩ := holds.block_eq
  have all : ∀ c ∈ text, decide (c ≠ 0) = true := by
    intro c member
    rw [decide_eq_true_iff]
    rintro rfl
    exact holds.noNul member
  rw [uri, block, List.takeWhile_append_of_pos all]
  simp

/-- Without encoding the length is that of the string. -/
theorem strLen_plain (s : List UInt8) : strLen s false = s.length := by
  induction s with
  | nil =>
      rfl
  | cons c later inductionHypothesis =>
      simp [strLen, inductionHypothesis]

/-- With encoding the length is that of the encoded string. -/
theorem strLen_encoding (s : List UInt8) :
    strLen s true = (encode s).length := by
  induction s with
  | nil =>
      rfl
  | cons c later inductionHypothesis =>
      rw [strLen, encode, List.flatMap_cons, List.length_append,
        inductionHypothesis, encode]
      unfold encoded
      by_cases normal : isnormal c = true
      · simp [normal]
        omega
      · by_cases blank : c = 0x20
        · subst blank
          simp [isnormal, isalnum, isdigit]
          omega
        · simp [normal, blank, encodingFactor]
          omega

/-- Normal bytes stand for themselves. -/
theorem encode_normal
    {s : List UInt8} (normal : ∀ c ∈ s, isnormal c = true) :
    encode s = s := by
  induction s with
  | nil =>
      rfl
  | cons c later inductionHypothesis =>
      have others : ∀ d ∈ later, isnormal d = true :=
        fun d member => normal d (List.mem_cons_of_mem _ member)
      rw [encode, List.flatMap_cons, encoded,
        if_pos (normal c List.mem_cons_self)]
      exact congrArg (c :: ·) (inductionHypothesis others)

/-- What the encoded string is made of. -/
def Plain (c : UInt8) : Prop :=
  isnormal c = true ∨ c = 0x2b ∨ c = 0x25

/-- The digits of the encoding are normal bytes. -/
theorem isnormal_hexstr (n : Nat) (small : n < 16) :
    isnormal (hexstr.getD n 0) = true := by
  have all : ∀ n < 16, isnormal (hexstr.getD n 0) = true := by
    decide
  exact all n small

theorem plain_encoded (c : UInt8) : ∀ d ∈ encoded c, Plain d := by
  have range := c.toNat_lt
  unfold encoded
  split
  case isTrue normal =>
      intro d member
      rw [List.mem_singleton] at member
      subst member
      exact Or.inl normal
  case isFalse =>
      split
      · intro d member
        rw [List.mem_singleton] at member
        exact Or.inr (Or.inl member)
      · intro d member
        simp only [List.mem_cons, List.not_mem_nil, or_false] at member
        rcases member with rfl | rfl | rfl
        · exact Or.inr (Or.inr rfl)
        · exact Or.inl (isnormal_hexstr _ (by omega))
        · exact Or.inl (isnormal_hexstr _ (by omega))

theorem plain_encode (s : List UInt8) : ∀ d ∈ encode s, Plain d := by
  intro d member
  obtain ⟨c, _, inside⟩ := List.mem_flatMap.mp member
  exact plain_encoded c d inside

/-- Encoded strings have no NUL and nothing that separates parameters. -/
theorem Plain.ne
    {c : UInt8} (plain : Plain c) :
    c ≠ 0 ∧ c ≠ 0x26 ∧ c ≠ 0x3d ∧ c ≠ 0x3f := by
  rcases plain with normal | rfl | rfl
  · refine ⟨?_, ?_, ?_, ?_⟩ <;> rintro rfl <;> revert normal <;> decide
  · decide
  · decide

theorem noNul_encode (s : List UInt8) : (0 : UInt8) ∉ encode s :=
  fun inside => (plain_encode s 0 inside).ne.1 rfl

/-! ### The block -/

theorem poke_eq
    {ctx : UriCtx} {i : Nat} (inside : i < ctx.ku.kuUri.length)
    (c : UInt8) :
    poke i c ctx = .ok ((), setUri (ctx.ku.kuUri.set i c) ctx) := by
  simp [poke, bind, gets, Program.modify, inside]

/-- Writing inside the block replaces what was there. -/
theorem pokes_eq
    {ctx : UriCtx} {before old s after : List UInt8}
    (block : ctx.ku.kuUri = before ++ (old ++ after))
    (same : old.length = s.length) :
    pokes before.length s ctx =
      .ok ((), setUri (before ++ (s ++ after)) ctx) := by
  induction s generalizing ctx before old with
  | nil =>
      obtain rfl := List.eq_nil_of_length_eq_zero same
      rw [pokes, ← block]
      rfl
  | cons c later inductionHypothesis =>
      cases old with
      | nil =>
          cases same
      | cons d old =>
          have inside : before.length < ctx.ku.kuUri.length := by
            rw [block]
            simp
          rw [pokes, bind_of_ok (poke_eq inside c)]
          have next := @inductionHypothesis
            (setUri (ctx.ku.kuUri.set before.length c) ctx)
            (before ++ [c]) old
            (by simp [block]) (by simpa using same)
          simpa using next

theorem pokes_append (i : Nat) (s t : List UInt8) :
    pokes i (s ++ t) = pokes i s >>= fun _ => pokes (i + s.length) t := by
  induction s generalizing i with
  | nil =>
      rfl
  | cons c later inductionHypothesis =>
      simp only [List.cons_append, pokes, inductionHypothesis,
        List.length_cons, bind_bind]
      congr 2
      funext _
      rw [show i + 1 + later.length = i + (later.length + 1) by omega]

/-- The loop writes the encoded string. -/
theorem encLoop_eq (s : List UInt8) (d : Nat) :
    encLoop s d =
      pokes d (encode s) >>= fun _ => pure (d + (encode s).length) := by
  induction s generalizing d with
  | nil =>
      rfl
  | cons c later inductionHypothesis =>
      rw [encLoop, encode, List.flatMap_cons, pokes_append, bind_bind]
      congr 1
      funext _
      rw [inductionHypothesis, List.length_append, ← Nat.add_assoc]
      rfl

/-- The last byte of a block is set. -/
theorem set_last (text room : List UInt8) (last c : UInt8) :
    (text ++ (room ++ [last])).set (text.length + room.length) c =
      text ++ (room ++ [c]) := by
  rw [List.set_append_right _ _ (by omega), Nat.add_sub_cancel_left,
    List.set_append_right _ _ (Nat.le_refl _), Nat.sub_self]
  rfl

/-- A grown or shrunk block starts with the text. -/
theorem regrown
    {block text tail fresh : List UInt8} {tlen : Nat}
    (holds : block = text ++ 0 :: tail)
    (size : fresh.length = text.length + tlen + 1 - block.length) :
    ∃ (old : List UInt8) (last : UInt8),
      block.take (text.length + tlen + 1) ++ fresh =
        text ++ (old ++ [last]) ∧ old.length = tlen := by
  let room := (0 :: tail).take (tlen + 1) ++ fresh
  have count : room.length = tlen + 1 := by
    rw [holds] at size
    simp only [List.length_append, List.length_cons] at size
    simp only [room, List.length_append, List.length_take,
      List.length_cons]
    omega
  have some : room ≠ [] := by
    intro none
    rw [none] at count
    cases count
  refine ⟨room.dropLast, room.getLast some, ?_, ?_⟩
  · rw [List.dropLast_append_getLast, holds, Nat.add_assoc,
      List.take_length_add_append, List.append_assoc]
  · rw [List.length_dropLast, count, Nat.add_sub_cancel]

/-- Room for more bytes keeps the text. -/
theorem wp_ensureTrailingSpace
    {ctx : UriCtx} {text : List UInt8} {tlen : Nat}
    {post : Bool → UriCtx → Prop} {halt : Stop → Prop}
    (holds : Holds ctx.ku text)
    (refused : ∀ ctx' : UriCtx,
      Heap.Later ctx.heap ctx'.heap →
      ¬ ctx.heap.Grants → post false ctx')
    (granted : ∀ (ctx' : UriCtx) (old : List UInt8),
      Heap.Later ctx.heap ctx'.heap →
      ctx'.ku.kuUrilen = text.length →
      ctx'.ku.kuUri = text ++ (old ++ [0]) →
      old.length = tlen →
      post true ctx') :
    wp (ensureTrailingSpace tlen) post halt ctx := by
  obtain ⟨tail, block⟩ := holds.block_eq
  have len := holds.len_eq
  simp only [ensureTrailingSpace, wp_bind, wp_gets, wp_zoom, id]
  apply Heap.wp_malloc
  · intro heap' later refusing
    rw [if_neg Bool.false_ne_true, wp_pure]
    exact refused _ later refusing
  · intro heap' later
    let fresh : List UInt8 :=
      (List.range
        (text.length + tlen + 1 - ctx.ku.kuUri.length)).map
          (ctx.heap.fresh ctx.heap.asked)
    have size : fresh.length =
        text.length + tlen + 1 - ctx.ku.kuUri.length := by
      simp [fresh]
    obtain ⟨old, last, grown, same⟩ := regrown block size
    rw [if_pos rfl, len]
    simp only [wp_bind, wp_modify]
    have wrote := @poke_eq
      (setUri (ctx.ku.kuUri.take (text.length + tlen + 1) ++ fresh)
        (heapLens.set ctx heap'))
      (text.length + tlen)
      (by rw [setUri_uri, grown]; simp [same]) 0
    rw [wp, wrote]
    refine granted _ old later len ?_ same
    rw [setUri_uri, setUri_uri, grown, ← same]
    exact set_last text old last 0

/-- The text goes on where the room before the last NUL is filled. -/
theorem Holds.append
    {ku : KcnUri} {text s : List UInt8} (holds : Holds ku text)
    (plain : (0 : UInt8) ∉ s) :
    Holds
      { kuUrilen := text.length + s.length
        kuUri := text ++ (s ++ [0]) }
      (text ++ s) where
  len_eq := (List.length_append ..).symm
  block_eq := ⟨[], (List.append_assoc ..).symm⟩
  noNul := by
    rw [List.mem_append]
    rintro (inside | inside)
    · exact holds.noNul inside
    · exact plain inside

/-- The text grows by a string. -/
theorem wp_puts
    {ctx : UriCtx} {text s : List UInt8}
    {post : Bool → UriCtx → Prop} {halt : Stop → Prop}
    (holds : Holds ctx.ku text) (plain : (0 : UInt8) ∉ s)
    (refused : ∀ ctx' : UriCtx,
      Heap.Later ctx.heap ctx'.heap →
      ¬ ctx.heap.Grants → post false ctx')
    (granted : ∀ ctx' : UriCtx,
      Heap.Later ctx.heap ctx'.heap →
      Holds ctx'.ku (text ++ s) → post true ctx') :
    wp (puts s) post halt ctx := by
  simp only [puts, strLen_plain, List.take_length, wp_bind]
  apply wp_ensureTrailingSpace holds
  · intro ctx' later grants
    rw [if_neg Bool.false_ne_true, wp_pure]
    exact refused ctx' later grants
  · intro ctx' old later len block same
    rw [if_pos rfl]
    have wrote := pokes_eq block same
    simp only [wp_bind, wp_gets, len]
    rw [wp, wrote]
    exact granted _ later (holds.append plain)

/-- The text grows by an encoded string. -/
theorem wp_encputs
    {ctx : UriCtx} {text : List UInt8} (s : List UInt8)
    {post : Bool → UriCtx → Prop} {halt : Stop → Prop}
    (holds : Holds ctx.ku text)
    (refused : ∀ ctx' : UriCtx,
      Heap.Later ctx.heap ctx'.heap →
      ¬ ctx.heap.Grants → post false ctx')
    (granted : ∀ ctx' : UriCtx,
      Heap.Later ctx.heap ctx'.heap →
      Holds ctx'.ku (text ++ encode s) → post true ctx') :
    wp (encputs s) post halt ctx := by
  simp only [encputs, strLen_encoding, encLoop_eq, wp_bind]
  apply wp_ensureTrailingSpace holds
  · intro ctx' later grants
    rw [if_neg Bool.false_ne_true, wp_pure]
    exact refused ctx' later grants
  · intro ctx' old later len block same
    rw [if_pos rfl]
    have wrote := pokes_eq block same
    simp only [wp_bind, wp_gets, len]
    rw [wp, wrote]
    exact granted _ later (holds.append (noNul_encode s))

/-- A parameter adds its field to the text. -/
theorem wp_paramPuts
    {ctx : UriCtx} {text param : List UInt8}
    (val : Option (List UInt8))
    {post : Bool → UriCtx → Prop} {halt : Stop → Prop}
    (holds : Holds ctx.ku text) (plain : (0 : UInt8) ∉ param)
    (refused : ∀ ctx' : UriCtx,
      Heap.Later ctx.heap ctx'.heap →
      ¬ ctx.heap.Grants → post false ctx')
    (granted : ∀ ctx' : UriCtx,
      Heap.Later ctx.heap ctx'.heap →
      Holds ctx'.ku (text ++ field param val) → post true ctx') :
    wp (paramPuts param val) post halt ctx := by
  have ampersand : (0 : UInt8) ∉ ascii "&" := by decide
  have equals : (0 : UInt8) ∉ ascii "=" := by decide
  cases val with
  | none =>
      rw [paramPuts, wp_pure]
      apply granted ctx rfl
      rw [field, List.append_nil]
      exact holds
  | some val =>
      simp only [paramPuts, wp_bind]
      apply wp_puts holds ampersand
      · intro ctx₁ later₁ refusing
        exact refused ctx₁ later₁ refusing
      intro ctx₁ later₁ holds₁
      simp only [if_true, wp_bind]
      apply wp_puts holds₁ plain
      · intro ctx₂ later₂ refusing
        exact refused ctx₂ (later₁.trans later₂) (later₁.refuses refusing)
      intro ctx₂ later₂ holds₂
      have later₂ := later₁.trans later₂
      simp only [if_true, wp_bind]
      apply wp_puts holds₂ equals
      · intro ctx₃ later₃ refusing
        exact refused ctx₃ (later₂.trans later₃) (later₂.refuses refusing)
      intro ctx₃ later₃ holds₃
      have later₃ := later₂.trans later₃
      simp only [if_true]
      apply wp_encputs val holds₃
      · intro ctx₄ later₄ refusing
        exact refused ctx₄ (later₃.trans later₄) (later₃.refuses refusing)
      intro ctx₄ later₄ holds₄
      apply granted ctx₄ (later₃.trans later₄)
      simpa only [field, List.append_assoc] using holds₄

/-- A shorter length cuts the text. -/
theorem wp_resize
    {ctx : UriCtx} {text more : List UInt8}
    {post : Unit → UriCtx → Prop} {halt : Stop → Prop}
    (holds : Holds ctx.ku (text ++ more))
    (cut : ∀ ctx' : UriCtx,
      ctx'.heap = ctx.heap → Holds ctx'.ku text → post () ctx') :
    wp (resize text.length) post halt ctx := by
  obtain ⟨tail, block⟩ := holds.block_eq
  have len := holds.len_eq
  rw [List.length_append] at len
  have fits : text.length ≤ ctx.ku.kuUrilen := by omega
  simp only [resize, wp_bind, wp_gets, id, fits, if_true, setUrilen,
    wp_modify]
  have wrote := @poke_eq
    { ctx with ku := { ctx.ku with kuUrilen := text.length } }
    text.length
    (by simp only [block, List.length_append, List.length_cons]; omega) 0
  rw [wp, wrote]
  refine cut _ rfl ⟨rfl, ?_, ?_⟩
  · rw [setUri_uri, block, List.append_assoc,
      List.set_append_right _ _ (Nat.le_refl _), Nat.sub_self]
    cases more with
    | nil =>
        exact ⟨tail, rfl⟩
    | cons c more =>
        exact ⟨more ++ 0 :: tail, rfl⟩
  · exact fun inside =>
      holds.noNul (List.mem_append_left _ inside)

/-- A new URI holds its base. -/
theorem wp_new
    {heap : Heap} {base : List UInt8} (plain : (0 : UInt8) ∉ base)
    {post : Option KcnUri → Heap → Prop} {halt : Stop → Prop}
    (refused : ∀ heap',
      Heap.Later heap heap' → ¬ heap.Grants → post none heap')
    (granted : ∀ ku heap',
      Heap.Later heap heap' → Holds ku base → post (some ku) heap') :
    wp (new base) post halt heap := by
  simp only [new, wp_bind]
  apply Heap.wp_malloc
  · intro heap' later refusing
    exact refused heap' later refusing
  · intro heap₁ later₁
    rw [if_pos rfl, wp_bind]
    apply Heap.wp_malloc
    · intro heap₂ later₂ refusing
      exact refused heap₂ (later₁.trans later₂) (later₁.refuses refusing)
    · intro heap₂ later₂
      refine granted _ heap₂ (later₁.trans later₂)
        ⟨strLen_plain base, ⟨[], ?_⟩, plain⟩
      rw [strLen_plain]
      exact List.take_of_length_le (by simp)

/-! ### The parameters of a URI -/

/-- Parameters and their values, where they have one. -/
abbrev Params := List (List UInt8 × Option (List UInt8))

/-- The bytes that parameters add. -/
def fields (params : Params) : List UInt8 :=
  params.flatMap fun (param, val) => field param val

/-- A part of a query at its first `=`. -/
def pair (part : List UInt8) : List UInt8 × List UInt8 :=
  (part.takeWhile (· ≠ 0x3d), (part.dropWhile (· ≠ 0x3d)).tail)

/-- What follows the first `?` of a URI. -/
def query (uri : List UInt8) : List UInt8 :=
  (uri.dropWhile (· ≠ 0x3f)).tail

/-- The parameters of a URI and their encoded values. -/
def params (uri : List UInt8) : List (List UInt8 × List UInt8) :=
  (Words.words (· = 0x26) (query uri)).map pair

/-- The parameters that have a value, with its encoding. -/
def given (params : Params) : List (List UInt8 × List UInt8) :=
  params.filterMap fun (param, val) =>
    val.map fun val => (param, encode val)

/-- The name of a parameter is made of normal bytes. -/
def Named (params : Params) : Prop :=
  ∀ param ∈ params, ∀ c ∈ param.1, isnormal c = true

/-- A name and an encoded value make a part that has no `&`. -/
theorem pair_part
    {param : List UInt8} (named : ∀ c ∈ param, isnormal c = true)
    (val : List UInt8) :
    Words.Pure (fun c : UInt8 => decide (c = 0x26))
        (param ++ 0x3d :: encode val) ∧
      pair (param ++ 0x3d :: encode val) = (param, encode val) := by
  have plain (c : UInt8) (member : c ∈ param) :
      c ≠ 0x26 ∧ c ≠ 0x3d := by
    have ne := Plain.ne (Or.inl (named c member))
    exact ⟨ne.2.1, ne.2.2.1⟩
  constructor
  · intro c member
    rw [decide_eq_false_iff_not]
    rcases List.mem_append.mp member with name | later
    · exact (plain c name).1
    · rcases List.mem_cons.mp later with rfl | value
      · decide
      · exact (plain_encode val c value).ne.2.1
  · have all : ∀ c ∈ param, decide (c ≠ 0x3d) = true := by
      intro c member
      rw [decide_eq_true_iff]
      exact (plain c member).2
    unfold pair
    rw [List.takeWhile_append_of_pos all, List.dropWhile_append_of_pos all]
    simp

/-- Parameters behind a string add their parts to it. -/
theorem words_fields
    {ps : Params} (named : Named ps) (s : List UInt8) :
    (Words.words (· = 0x26) (s ++ fields ps)).map pair =
      (Words.words (· = 0x26) s).map pair ++ given ps := by
  induction ps generalizing s with
  | nil =>
      simp [fields, given]
  | cons first later inductionHypothesis =>
      obtain ⟨param, val⟩ := first
      have others : Named later :=
        fun other member => named other (List.mem_cons_of_mem _ member)
      have name := named (param, val) List.mem_cons_self
      cases val with
      | none =>
          exact inductionHypothesis others s
      | some val =>
          obtain ⟨isPure, same⟩ := pair_part name val
          have isSep : decide ((0x26 : UInt8) = 0x26) = true := rfl
          have split : s ++ fields ((param, some val) :: later) =
              s ++ 0x26 ::
                ((param ++ 0x3d :: encode val) ++ fields later) := by
            simp [fields, field, ascii]
          rw [split, Words.words_append_sep s isSep, List.map_append,
            inductionHypothesis others,
            Words.words_of_pure isPure (by simp), List.map_singleton,
            same]
          rfl

/-- The parameters behind a base that has a query. -/
theorem params_append
    {base : List UInt8} (queries : (0x3f : UInt8) ∈ base)
    {ps : Params} (named : Named ps) :
    params (base ++ fields ps) = params base ++ given ps := by
  have some : base.dropWhile (· ≠ 0x3f) ≠ [] := by
    intro none
    rw [List.dropWhile_eq_nil_iff] at none
    have here := none _ queries
    simp at here
  have split :
      query (base ++ fields ps) = query base ++ fields ps := by
    unfold query
    rw [List.dropWhile_append, if_neg (by simpa using some),
      List.tail_append_of_ne_nil some]
  rw [params, split, words_fields named]
  rfl

end KcnUri

end Kcn
