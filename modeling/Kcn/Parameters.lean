import Kcn.Library.Run
import Kcn.Uri

namespace Kcn

open Program

/-!
# Reading the parameters of a URI back

A URI that is built from parameters, and cut back to lengths it had, gives back
the parameters it still has.
-/

namespace KcnUri

open UriCtx

/-- Undo `+` and `%XX`. -/
def unescape : List UInt8 → Option (List UInt8)
  | [] => some []
  | c :: s =>
      if c = 0x2b then
        (unescape s).map (0x20 :: ·)
      else if c = 0x25 then
        match s with
        | high :: low :: s =>
            match hexstr.idxOf? high, hexstr.idxOf? low with
            | some high, some low =>
                (unescape s).map (UInt8.ofNat (16 * high + low) :: ·)
            | _, _ => none
        | _ => none
      else
        (unescape s).map (c :: ·)

/-- Undo the encoding of a name and of its value. -/
def unescapeBoth (part : List UInt8 × List UInt8) :
    Option (List UInt8 × List UInt8) :=
  match unescape part.1, unescape part.2 with
  | some param, some val => some (param, val)
  | _, _ => none

/-- Split at `&` and at the first `=` of each part, and undo the encoding. -/
def readBack (text : List UInt8) :
    Option (List (List UInt8 × List UInt8)) :=
  ((Words.words (· = 0x26) text).map pair).mapM unescapeBoth

/-- The parameters that have a value. -/
def valued (ps : Params) : List (List UInt8 × List UInt8) :=
  ps.filterMap fun (param, val) => val.map fun val => (param, val)

theorem idxOf_hexstr (n : Nat) (small : n < 16) :
    hexstr.idxOf? (hexstr.getD n 0) = some n := by
  have all : ∀ n < 16, hexstr.idxOf? (hexstr.getD n 0) = some n := by
    decide
  exact all n small

/-- Any other byte than `+` and `%` stands for itself. -/
theorem unescape_other
    {c : UInt8} (plus : c ≠ 0x2b) (percent : c ≠ 0x25) (s : List UInt8) :
    unescape (c :: s) = (unescape s).map (c :: ·) := by
  rcases s with _ | ⟨high, _ | ⟨low, later⟩⟩ <;>
    simp [unescape, plus, percent]

theorem unescape_plus (s : List UInt8) :
    unescape (0x2b :: s) = (unescape s).map (0x20 :: ·) := by
  rcases s with _ | ⟨high, _ | ⟨low, later⟩⟩ <;> rfl

/-- The encoding of a byte is undone. -/
theorem unescape_encoded (c : UInt8) (s : List UInt8) :
    unescape (encoded c ++ s) = (unescape s).map (c :: ·) := by
  have range := c.toNat_lt
  unfold encoded
  split
  · rename_i normal
    have plus : c ≠ 0x2b := by
      rintro rfl
      revert normal
      decide
    have percent : c ≠ 0x25 := by
      rintro rfl
      revert normal
      decide
    exact unescape_other plus percent s
  · split
    · rename_i blank
      rw [blank]
      exact unescape_plus s
    · have value : UInt8.ofNat (16 * (c.toNat / 16) + c.toNat % 16) = c := by
        rw [Nat.div_add_mod, UInt8.ofNat_toNat]
      have percent : ¬ ((0x25 : UInt8) = 0x2b) := by decide
      have high : c.toNat / 16 < 16 := by omega
      have low : c.toNat % 16 < 16 := by omega
      simp only [List.cons_append, List.nil_append, unescape,
        if_neg percent, ↓reduceIte, idxOf_hexstr _ high,
        idxOf_hexstr _ low, value]

/-- So is that of a string. -/
theorem unescape_encode (s : List UInt8) : unescape (encode s) = some s := by
  induction s with
  | nil =>
      rfl
  | cons c later inductionHypothesis =>
      rw [encode, List.flatMap_cons, unescape_encoded]
      rw [encode] at inductionHypothesis
      rw [inductionHypothesis]
      rfl

/-- A name stands for itself. -/
theorem unescape_name
    {param : List UInt8} (named : ∀ c ∈ param, isnormal c = true) :
    unescape param = some param := by
  have encoded := unescape_encode param
  rw [encode_normal named] at encoded
  exact encoded

theorem unescape_given {ps : Params} (named : Named ps) :
    (given ps).mapM unescapeBoth = some (valued ps) := by
  induction ps with
  | nil =>
      rfl
  | cons first later inductionHypothesis =>
      obtain ⟨param, val⟩ := first
      have others : Named later :=
        fun other member => named other (List.mem_cons_of_mem _ member)
      have name := unescape_name (named (param, val) List.mem_cons_self)
      have rest := inductionHypothesis others
      cases val with
      | none =>
          exact rest
      | some val =>
          have here : unescapeBoth (param, encode val) = some (param, val) := by
            simp only [unescapeBoth, name, unescape_encode]
          have split : given ((param, some val) :: later) =
              (param, encode val) :: given later := rfl
          rw [split, List.mapM_cons, here, rest]
          rfl

/-- Parameters behind the base are read back. -/
theorem readBack_fields {ps : Params} (named : Named ps) :
    readBack (fields ps) = some (valued ps) := by
  have split := words_fields named []
  rw [List.nil_append] at split
  unfold readBack
  rw [split]
  exact unescape_given named

/-! ### Sequences of calls -/

/-- A call that builds a URI. -/
inductive UriOp where
  | paramPuts (param : List UInt8) (val : Option (List UInt8))
  | resize (len : Nat)
  deriving Repr, DecidableEq

/-- The parameters whose fields lie in the first bytes. -/
def cutTo : Nat → Params → Params
  | _, [] => []
  | len, (param, val) :: ps =>
      if (field param val).length ≤ len then
        (param, val) :: cutTo (len - (field param val).length) ps
      else
        []

/-- The parameters that are present after one more call. -/
def UriOp.apply (base : List UInt8) (ps : Params) : UriOp → Params
  | .paramPuts param val => ps ++ [(param, val)]
  | .resize len => cutTo (len - base.length) ps

/-- The parameters that are present after some calls. -/
def present (base : List UInt8) (ops : List UriOp) : Params :=
  ops.foldl (UriOp.apply base) []

/-- A URI, with the lengths that `kcn_uri_len` gave between the calls. -/
structure UriRun where
  ctx : UriCtx
  lens : List Nat

/--
A call that succeeds.  A URI is only resized to a length that `kcn_uri_len` gave
before; `forgets` tells whether lengths are given up once the URI was resized to
a shorter one.
-/
inductive Builds (forgets : Bool) (s : UriRun) : UriOp → UriRun → Prop where
  | paramPuts
      (param : List UInt8) (val : Option (List UInt8)) (ctx' : UriCtx) :
      (∀ c ∈ param, isnormal c = true) →
      (∀ bytes, val = some bytes → (0 : UInt8) ∉ bytes) →
      paramPuts param val s.ctx = .ok (true, ctx') →
      Builds forgets s (.paramPuts param val)
        { ctx := ctx', lens := s.lens ++ [ctx'.ku.len] }
  | resize (len : Nat) (ctx' : UriCtx) :
      len ∈ s.lens →
      resize len s.ctx = .ok ((), ctx') →
      Builds forgets s (.resize len)
        { ctx := ctx'
          lens := if forgets then s.lens.filter (· ≤ len) else s.lens }

/-! ### Cutting parameters off -/

theorem fields_append (ps qs : Params) :
    fields (ps ++ qs) = fields ps ++ fields qs :=
  List.flatMap_append

theorem fields_cons
    (param : List UInt8) (val : Option (List UInt8)) (ps : Params) :
    fields ((param, val) :: ps) = field param val ++ fields ps :=
  List.flatMap_cons ..

/-- The fields of a prefix are a prefix. -/
theorem fields_mono {ps qs : Params} (cut : qs <+: ps) :
    fields qs <+: fields ps := by
  obtain ⟨later, rfl⟩ := cut
  exact ⟨fields later, (fields_append qs later).symm⟩

theorem cutTo_prefix (len : Nat) (ps : Params) : cutTo len ps <+: ps := by
  induction ps generalizing len with
  | nil =>
      exact List.nil_prefix
  | cons first later inductionHypothesis =>
      obtain ⟨param, val⟩ := first
      rw [cutTo]
      split
      · exact List.prefix_cons_inj _ |>.mpr (inductionHypothesis _)
      · exact List.nil_prefix

/-- What is left fits the length. -/
theorem fields_cutTo (len : Nat) (ps : Params) :
    (fields (cutTo len ps)).length ≤ len := by
  induction ps generalizing len with
  | nil =>
      exact Nat.zero_le len
  | cons first later inductionHypothesis =>
      obtain ⟨param, val⟩ := first
      rw [cutTo]
      split
      · rename_i fits
        have rest := inductionHypothesis (len - (field param val).length)
        rw [fields_cons, List.length_append]
        omega
      · exact Nat.zero_le len

/-- A prefix that fits the length is left. -/
theorem prefix_cutTo
    {len : Nat} {ps qs : Params} (cut : qs <+: ps)
    (fits : (fields qs).length ≤ len) : qs <+: cutTo len ps := by
  induction ps generalizing len qs with
  | nil =>
      exact cut
  | cons first later inductionHypothesis =>
      obtain ⟨param, val⟩ := first
      rcases List.prefix_cons_iff.mp cut with rfl | ⟨qs, rfl, shorter⟩
      · exact List.nil_prefix
      · rw [fields_cons, List.length_append] at fits
        have here : (field param val).length ≤ len := by omega
        rw [cutTo, if_pos here, List.prefix_cons_inj]
        exact inductionHypothesis shorter (by omega)

/-! ### Every sequence of calls -/

/-- A length at which a parameter ends. -/
def Ends (base : List UInt8) (ps : Params) (len : Nat) : Prop :=
  ∃ qs, qs <+: ps ∧ len = base.length + (fields qs).length

/-- A length at which a parameter ends cuts there. -/
theorem Ends.cut
    {base : List UInt8} {ps : Params} {len : Nat}
    (ends : Ends base ps len) :
    (base ++ fields (cutTo (len - base.length) ps)).length = len := by
  obtain ⟨qs, cut, rfl⟩ := ends
  have same : base.length + (fields qs).length - base.length =
      (fields qs).length := by
    omega
  have least := prefix_cutTo cut (Nat.le_refl _)
  have atLeast := (fields_mono least).length_le
  have atMost := fields_cutTo (fields qs).length ps
  rw [same, List.length_append]
  omega

/-- Shorter lengths stay where parameters end. -/
theorem Ends.shorter
    {base : List UInt8} {ps : Params} {len len' : Nat}
    (ends : Ends base ps len') (fits : len' ≤ len) :
    Ends base (cutTo (len - base.length) ps) len' := by
  obtain ⟨qs, cut, rfl⟩ := ends
  exact ⟨qs, prefix_cutTo cut (by omega), rfl⟩

/-- What holds of a URI that calls have built. -/
structure Built (base : List UInt8) (ps : Params) (s : UriRun) :
    Prop where
  holds : Holds s.ctx.ku (base ++ fields ps)
  grants : s.ctx.heap.Grants
  named : Named ps
  ends : ∀ len ∈ s.lens, Ends base ps len

/-- One more parameter is one more field. -/
theorem Built.paramPuts
    {base param : List UInt8} {val : Option (List UInt8)} {ps : Params}
    {s : UriRun} {ctx' : UriCtx} (built : Built base ps s)
    (normal : ∀ c ∈ param, isnormal c = true)
    (puts : paramPuts param val s.ctx = .ok (true, ctx')) :
    Built base (ps ++ [(param, val)])
      { ctx := ctx', lens := s.lens ++ [ctx'.ku.len] } := by
  have noNul : (0 : UInt8) ∉ param :=
    fun inside => (Plain.ne (Or.inl (normal 0 inside))).1 rfl
  have one : fields [(param, val)] = field param val :=
    List.append_nil _
  have after :
      ctx'.heap.Grants ∧
        Holds ctx'.ku (base ++ fields (ps ++ [(param, val)])) := by
    have known := @wp_paramPuts s.ctx (base ++ fields ps) param val
      (fun done ctx' => done = true →
        ctx'.heap.Grants ∧
          Holds ctx'.ku (base ++ fields (ps ++ [(param, val)])))
      (fun _ => True) built.holds noNul
      (fun _ _ refusing => absurd built.grants refusing)
      (fun ctx' later holds _ => by
        refine ⟨later.grants built.grants, ?_⟩
        rw [fields_append, one, ← List.append_assoc]
        exact holds)
    exact wp_ok known puts rfl
  obtain ⟨grants, holds⟩ := after
  refine ⟨holds, grants, ?_, ?_⟩
  · intro other member
    rcases List.mem_append.mp member with early | last
    · exact built.named other early
    · rw [List.mem_singleton] at last
      subst last
      exact normal
  · intro len member
    rcases List.mem_append.mp member with early | last
    · obtain ⟨qs, cut, rfl⟩ := built.ends len early
      exact ⟨qs, cut.trans (List.prefix_append _ _), rfl⟩
    · rw [List.mem_singleton] at last
      subst last
      refine ⟨_, List.prefix_refl _, ?_⟩
      rw [KcnUri.len, holds.len_eq, List.length_append]

/-- A URI that is cut back has the parameters before the cut. -/
theorem Built.resize
    {base : List UInt8} {ps : Params} {s : UriRun} {len : Nat}
    {ctx' : UriCtx} (built : Built base ps s) (gave : len ∈ s.lens)
    (resized : resize len s.ctx = .ok ((), ctx')) :
    Built base (cutTo (len - base.length) ps)
      { ctx := ctx', lens := s.lens.filter (· ≤ len) } := by
  have cuts := cutTo_prefix (len - base.length) ps
  have size := (built.ends len gave).cut
  have after :
      ctx'.heap.Grants ∧
        Holds ctx'.ku
          (base ++ fields (cutTo (len - base.length) ps)) := by
    obtain ⟨more, split⟩ := fields_mono cuts
    have whole := built.holds
    rw [← split, ← List.append_assoc] at whole
    have known := @wp_resize s.ctx _ _
      (fun _ ctx' => ctx'.heap.Grants ∧
        Holds ctx'.ku
          (base ++ fields (cutTo (len - base.length) ps)))
      (fun _ => True) whole
      (fun ctx' same holds => by
        refine ⟨?_, holds⟩
        rw [same]
        exact built.grants)
    rw [size] at known
    have cut := wp_ok known resized
    exact cut
  obtain ⟨grants, holds⟩ := after
  refine ⟨holds, grants, ?_, ?_⟩
  · exact fun other member => built.named other (cuts.subset member)
  · intro len' member
    rw [List.mem_filter, decide_eq_true_iff] at member
    exact (built.ends len' member.1).shorter member.2

/-- The calls keep what holds of the URI. -/
theorem Built.run
    {base : List UInt8} {start s : UriRun} {ops : List UriOp}
    (built : Built base [] start)
    (run : Run (Builds true) start ops s) :
    Built base (present base ops) s := by
  refine @Run.invariant _ _ _ start
    (fun ops s => Built base (present base ops) s) built ?_ ops s run
  intro ops s op s' before step
  have more : present base (ops ++ [op]) =
      op.apply base (present base ops) := by
    rw [present, List.foldl_append]
    rfl
  rw [more]
  cases step with
  | paramPuts param val ctx' normal noNul puts =>
      exact before.paramPuts normal puts
  | resize len ctx' gave resized =>
      exact before.resize gave resized

/-- A new URI holds the base and has given that length. -/
theorem built_new
    {base : List UInt8} (plain : (0 : UInt8) ∉ base)
    {heap heap' : Heap} (grants : heap.Grants) {ku : KcnUri}
    (created : new base heap = .ok (some ku, heap')) :
    Built base []
      { ctx := { ku := ku, heap := heap' }, lens := [ku.len] } := by
  have known := @wp_new heap base plain
    (fun ku? heap' => ∀ ku, ku? = some ku →
      heap'.Grants ∧ Holds ku base)
    (fun _ => True)
    (fun _ _ refusing => absurd grants refusing)
    (fun ku heap' later holds other same => by
      cases same
      exact ⟨later.grants grants, holds⟩)
  obtain ⟨later, holds⟩ := wp_ok known created ku rfl
  refine ⟨?_, later, nofun, ?_⟩
  · rw [fields, List.flatMap_nil, List.append_nil]
    exact holds
  · intro len member
    rw [List.mem_singleton] at member
    subst member
    exact ⟨[], List.prefix_refl _, holds.len_eq⟩

/--
A parameter is put part by part, and its encoded value takes exactly the room
that was made for it.
-/
def Fills (param val : List UInt8) (ctx : UriCtx) : Prop :=
  ∃ ctx₁ ctx₂ ctx₃ ctx₄,
    puts (ascii "&") ctx = .ok (true, ctx₁) ∧
      puts param ctx₁ = .ok (true, ctx₂) ∧
      puts (ascii "=") ctx₂ = .ok (true, ctx₃) ∧
      encputs val ctx₃ = .ok (true, ctx₄) ∧
      ctx₄.ku.len = ctx₃.ku.len + strLen val true ∧
      paramPuts param (some val) ctx = .ok (true, ctx₄)

/-- With memory granted a string is put. -/
theorem puts_granted
    {ctx : UriCtx} {text s : List UInt8} (grants : ctx.heap.Grants)
    (holds : Holds ctx.ku text) (plain : (0 : UInt8) ∉ s) :
    ∃ ctx', puts s ctx = .ok (true, ctx') ∧
      ctx'.heap.Grants ∧ Holds ctx'.ku (text ++ s) := by
  have known := @wp_puts ctx text s
    (fun done ctx' => done = true ∧
      ctx'.heap.Grants ∧ Holds ctx'.ku (text ++ s))
    (fun _ => False) holds plain
    (fun _ _ refusing => absurd grants refusing)
    (fun _ later holds => ⟨rfl, later.grants grants, holds⟩)
  obtain ⟨done, ctx', ran, rfl, later, after⟩ := wp_returns known
  exact ⟨ctx', ran, later, after⟩

/-- With memory granted a string is encoded. -/
theorem encputs_granted
    {ctx : UriCtx} {text : List UInt8} (grants : ctx.heap.Grants)
    (holds : Holds ctx.ku text) (s : List UInt8) :
    ∃ ctx', encputs s ctx = .ok (true, ctx') ∧
      Holds ctx'.ku (text ++ encode s) := by
  have known := @wp_encputs ctx text s
    (fun done ctx' => done = true ∧ Holds ctx'.ku (text ++ encode s))
    (fun _ => False) holds
    (fun _ _ refusing => absurd grants refusing)
    (fun _ _ holds => ⟨rfl, holds⟩)
  obtain ⟨done, ctx', ran, rfl, after⟩ := wp_returns known
  exact ⟨ctx', ran, after⟩

/-- Behind any text a parameter fills its room. -/
theorem fills
    {ctx : UriCtx} {text param : List UInt8} (grants : ctx.heap.Grants)
    (holds : Holds ctx.ku text)
    (normal : ∀ c ∈ param, isnormal c = true) (val : List UInt8) :
    Fills param val ctx := by
  have noNul : (0 : UInt8) ∉ param :=
    fun inside => (Plain.ne (Or.inl (normal 0 inside))).1 rfl
  have ampersand : (0 : UInt8) ∉ ascii "&" := by decide
  have equals : (0 : UInt8) ∉ ascii "=" := by decide
  obtain ⟨ctx₁, ran₁, grants₁, holds₁⟩ :=
    puts_granted grants holds ampersand
  obtain ⟨ctx₂, ran₂, grants₂, holds₂⟩ :=
    puts_granted grants₁ holds₁ noNul
  obtain ⟨ctx₃, ran₃, grants₃, holds₃⟩ :=
    puts_granted grants₂ holds₂ equals
  obtain ⟨ctx₄, ran₄, holds₄⟩ := encputs_granted grants₃ holds₃ val
  refine ⟨ctx₁, ctx₂, ctx₃, ctx₄, ran₁, ran₂, ran₃, ran₄, ?_, ?_⟩
  · rw [len, len, holds₄.len_eq, holds₃.len_eq, strLen_encoding,
      List.length_append]
  · rw [paramPuts, bind_of_ok ran₁, if_pos rfl, bind_of_ok ran₂,
      if_pos rfl, bind_of_ok ran₃, if_pos rfl]
    exact ran₄

/-- Perform a call that builds a URI. -/
def perform (forgets : Bool) (s : UriRun) (op : UriOp) :
    Option (UriOp × UriRun) :=
  match op with
  | .paramPuts param val =>
      if param.all isnormal ∧ val.all (! ·.contains 0) then
        match paramPuts param val s.ctx with
        | .ok (true, ctx') =>
            some (op, { ctx := ctx', lens := s.lens ++ [ctx'.ku.len] })
        | _ => none
      else
        none
  | .resize len =>
      if s.lens.contains len then
        match resize len s.ctx with
        | .ok ((), ctx') =>
            some (op,
              { ctx := ctx'
                lens :=
                  if forgets then s.lens.filter (· ≤ len) else s.lens })
        | .error _ => none
      else
        none

theorem builds_perform
    (forgets : Bool) (s : UriRun) (op op' : UriOp) (s' : UriRun)
    (performed : perform forgets s op = some (op', s')) :
    Builds forgets s op' s' := by
  cases op with
  | paramPuts param val =>
      rw [perform] at performed
      split at performed
      · rename_i allowed
        split at performed
        · rename_i ctx' ran
          obtain ⟨rfl, rfl⟩ := Prod.mk.inj (Option.some.inj performed)
          refine .paramPuts param val ctx' ?_ ?_ ran
          · exact List.all_eq_true.mp allowed.1
          · rintro bytes rfl
            simpa using allowed.2
        · cases performed
      · cases performed
  | resize len =>
      rw [perform] at performed
      split at performed
      · rename_i gave
        split at performed
        · rename_i ctx' ran
          obtain ⟨rfl, rfl⟩ := Prod.mk.inj (Option.some.inj performed)
          exact .resize len ctx' (List.contains_iff_mem.mp gave) ran
        · cases performed
      · cases performed

/-- A URI that a base starts. -/
def started (ku : KcnUri) (heap : Heap) : UriRun where
  ctx := { ku := ku, heap := heap }
  lens := [ku.len]

/--
Every URI that is built from parameters, and only cut back to lengths that lie
before no earlier cut, ends with a NUL at its length, has room for one more
parameter's encoding exactly, and gives its parameters back.
-/
theorem parameters_read_back
    {base : List UInt8} (plain : (0 : UInt8) ∉ base)
    {heap heap' : Heap} (grants : heap.Grants) {ku : KcnUri}
    (created : new base heap = .ok (some ku, heap'))
    {ops : List UriOp} {s : UriRun}
    (run : Run (Builds true) (started ku heap') ops s) :
    s.ctx.ku.uri.length = s.ctx.ku.kuUrilen ∧
      s.ctx.ku.kuUri[s.ctx.ku.kuUrilen]? = some 0 ∧
      (∀ param val : List UInt8,
        (∀ c ∈ param, isnormal c = true) → (0 : UInt8) ∉ val →
          Fills param val s.ctx) ∧
      readBack (s.ctx.ku.uri.drop base.length) =
        some (valued (present base ops)) := by
  have built := (built_new plain grants created).run run
  have text := built.holds.uri_eq
  obtain ⟨tail, block⟩ := built.holds.block_eq
  refine ⟨?_, ?_, ?_, ?_⟩
  · rw [text, built.holds.len_eq]
  · rw [built.holds.len_eq, block, List.getElem?_append_right (le_refl _),
      Nat.sub_self]
    rfl
  · exact fun param val normal _ =>
      fills built.grants built.holds normal val
  · rw [text, List.drop_left]
    exact readBack_fields built.named

/-- Two parameters, a cut behind the first, and a third that is escaped. -/
def cutAndGoOn : List UriOp :=
  [.paramPuts (ascii "a") (some (ascii "1")),
    .paramPuts (ascii "b") (some (ascii "2")), .resize 4,
    .paramPuts (ascii "c") (some (ascii "%%"))]

/-- A URI with an empty base. -/
def blank : UriRun :=
  started { kuUrilen := 0, kuUri := [0] }
    { Heap.granting with asked := 2 }

theorem new_blank :
    new [] Heap.granting =
      .ok (some blank.ctx.ku, blank.ctx.heap) :=
  rfl

/-- All calls were performed. -/
def goesOn (ops : List UriOp) (_ : UriRun) : Bool :=
  ops == cutAndGoOn

theorem parameters_read_back_cut :
    ∃ s,
      Run (Builds true) blank cutAndGoOn s ∧
        readBack s.ctx.ku.uri =
          some [(ascii "a", ascii "1"), (ascii "c", ascii "%%")] := by
  obtain ⟨ops, s, run, shown⟩ :=
    Run.of_shown (builds_perform true)
      (show
        (performAll (perform true) blank cutAndGoOn).any
          (fun performed => goesOn performed.1 performed.2) = true
        by decide +kernel)
  obtain rfl := eq_of_beq shown
  have facts := parameters_read_back List.not_mem_nil
    Heap.grants_granting new_blank run
  have left : valued (present [] cutAndGoOn) =
      [(ascii "a", ascii "1"), (ascii "c", ascii "%%")] := by
    decide +kernel
  rw [left] at facts
  exact ⟨s, run, facts.2.2.2⟩

/-- The parameters are not read back. -/
def isLost (ops : List UriOp) (s : UriRun) : Bool :=
  readBack s.ctx.ku.uri != some (valued (present [] ops))

/--
A length that was given before a shorter cut may lie inside an escape of what
was put since: the parameters are not read back.
-/
theorem parameters_cut_inside :
    ∃ ops s,
      new [] Heap.granting =
          .ok (some blank.ctx.ku, blank.ctx.heap) ∧
        Run (Builds false) blank ops s ∧
        readBack s.ctx.ku.uri ≠ some (valued (present [] ops)) := by
  obtain ⟨ops, s, run, shown⟩ :=
    Run.of_shown (builds_perform false)
      (show
        (performAll (perform false) blank
            (cutAndGoOn ++ [.resize 8])).any
          (fun performed => isLost performed.1 performed.2) = true
        by decide +kernel)
  exact ⟨ops, s, new_blank, run, bne_iff_ne.mp shown⟩

end KcnUri

end Kcn
