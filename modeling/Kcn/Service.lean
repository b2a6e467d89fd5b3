import Kcn.Paging

namespace Kcn

open Program KcnUri KcnGoogle

/-!
# A search at a service that pages its results

A service holds a list of results and answers a request with the part that
the request asks for.
-/

namespace KcnUri

theorem isnormal_of_isdigit {c : UInt8} (digit : isdigit c = true) :
    isnormal c = true := by
  simp [isnormal, isalnum, digit]

end KcnUri

namespace KcnGoogle

/-! ### Numbers in a URI -/

/-- The byte of a decimal digit. -/
theorem ofNat_digitChar {d : Nat} (small : d < 10) :
    UInt8.ofNat (Nat.digitChar d).toNat = UInt8.ofNat (0x30 + d) := by
  have all : ∀ d < 10, UInt8.ofNat (Nat.digitChar d).toNat =
      UInt8.ofNat (0x30 + d) := by
    decide
  exact all d small

theorem decimalDigits_small {n : Nat} (small : n < 10) :
    decimalDigits n = [UInt8.ofNat (0x30 + n)] := by
  rw [decimalDigits, Nat.toDigits_of_lt_base small, List.map_singleton,
    ofNat_digitChar small]

theorem decimalDigits_large {n : Nat} (large : 10 ≤ n) :
    decimalDigits n =
      decimalDigits (n / 10) ++ [UInt8.ofNat (0x30 + n % 10)] := by
  have digit : n % 10 < 10 := Nat.mod_lt _ (by decide)
  rw [decimalDigits, Nat.toDigits_of_base_le (by decide) large,
    List.map_append, List.map_singleton, ofNat_digitChar digit]
  rfl

theorem decimalFrom_append
    (value : Nat) (digits : List UInt8) (digit : UInt8) :
    decimalFrom value (digits ++ [digit]) =
      10 * decimalFrom value digits + (digit.toNat - 0x30) := by
  induction digits generalizing value with
  | nil =>
      rfl
  | cons first later inductionHypothesis =>
      exact inductionHypothesis _

theorem decimal_singleton (digit : UInt8) :
    decimal [digit] = digit.toNat - 0x30 := by
  have value : decimal [digit] = 10 * 0 + (digit.toNat - 0x30) := rfl
  omega

theorem digit_ofNat {d : Nat} (small : d < 10) :
    isdigit (UInt8.ofNat (0x30 + d)) = true ∧
      (UInt8.ofNat (0x30 + d)).toNat - 0x30 = d := by
  have all : ∀ d < 10, isdigit (UInt8.ofNat (0x30 + d)) = true ∧
      (UInt8.ofNat (0x30 + d)).toNat - 0x30 = d := by
    decide
  exact all d small

/-- The digits of a number are digits and have its value. -/
theorem digits_decimalDigits (n : Nat) :
    Digits (decimalDigits n) ∧ decimal (decimalDigits n) = n := by
  induction n using Nat.strong_induction_on with
  | _ n inductionHypothesis =>
      by_cases small : n < 10
      · obtain ⟨isDigit, value⟩ := digit_ofNat small
        rw [decimalDigits_small small]
        refine ⟨⟨by simp, ?_⟩, ?_⟩
        · intro c member
          rw [List.mem_singleton] at member
          subst member
          exact isDigit
        · exact (decimal_singleton _).trans value
      · have large : 10 ≤ n := by omega
        have digit : n % 10 < 10 := Nat.mod_lt _ (by decide)
        obtain ⟨isDigit, value⟩ := digit_ofNat digit
        obtain ⟨digits, earlier⟩ :=
          inductionHypothesis (n / 10) (by omega)
        rw [decimalDigits_large large]
        refine ⟨⟨by simp, ?_⟩, ?_⟩
        · intro c member
          rcases List.mem_append.mp member with before | here
          · exact digits.all c before
          · rw [List.mem_singleton] at here
            subst here
            exact isDigit
        · unfold decimal at earlier ⊢
          rw [decimalFrom_append, earlier, value]
          omega

/-! ### What a service is asked for -/

/-- The number that digits stand for. -/
def readNumber (s : List UInt8) : Option Nat :=
  if s ≠ [] ∧ s.all isdigit = true then
    some (decimal s)
  else
    none

/--
The page size and the first result that a URI asks for.  A service begins with
its first result where nothing else is asked for.
-/
def askedFor (uri : List UInt8) : Option (Nat × Nat) :=
  match (params uri).lookup (ascii "rsz") with
  | none => none
  | some size =>
      match readNumber size with
      | none => none
      | some size =>
          match (params uri).lookup (ascii "start") with
          | none => some (size, 0)
          | some start =>
              match readNumber start with
              | none => none
              | some start => some (size, start)

/-- A service answers each request with the results it asks for. -/
def Conforms
    (loctype : KcnLocType) (results : List (List UInt8))
    (reply : Nat → List UInt8 → Reply) : Prop :=
  ∀ request uri size start,
    askedFor uri = some (size, start) →
      ∃ jres, resultsOf (reply request uri) = .ok jres ∧
        jres.map (jlocstr loctype) =
          ((results.drop start).take size).map some

theorem readNumber_decimalDigits (n : Nat) :
    readNumber (encode (decimalDigits n)) = some n := by
  obtain ⟨digits, value⟩ := digits_decimalDigits n
  have normal : ∀ c ∈ decimalDigits n, isnormal c = true :=
    fun c member => isnormal_of_isdigit (digits.all c member)
  rw [encode_normal normal, readNumber,
    if_pos ⟨digits.nonempty, List.all_eq_true.mpr digits.all⟩, value]

theorem readNumber_digit {d : Nat} (small : d < 10) :
    readNumber (encode [0x30 + UInt8.ofNat d]) = some d := by
  have all : ∀ d < 10,
      readNumber (encode [0x30 + UInt8.ofNat d]) = some d := by
    decide
  exact all d small

theorem rcountmax_small (maxnlocs : Nat) : rcountmax maxnlocs < 10 := by
  unfold rcountmax apiRcountmax
  split <;> omega

theorem params_uriBase : params uriBase = [(ascii "v", ascii "1.0")] := by
  decide

/-- The names of the parameters are made of normal bytes. -/
theorem named_firstParams
    (maxnlocs : Nat) (country userip : Option (List UInt8))
    (keys : List UInt8) (start : Option (List UInt8)) :
    Named (firstParams maxnlocs country userip keys ++
      [(ascii "start", start)]) := by
  have names : ∀ name ∈
      [ascii "rsz", ascii "gl", ascii "userip", ascii "q",
        ascii "start"], name.all isnormal = true := by
    decide
  intro param member
  exact List.all_eq_true.mp
    (names param.1 (List.mem_map_of_mem member))

/-- A request of the page loop asks for its page. -/
theorem askedFor_uri
    (loctype : KcnLocType) (maxnlocs : Nat)
    (country userip : Option (List UInt8)) (keys : List UInt8)
    (reply : Nat → List UInt8 → Reply) (k : Nat) :
    askedFor
        ((paging loctype maxnlocs country userip keys reply).uri k) =
      some (rcountmax maxnlocs,
        (paging loctype maxnlocs country userip keys reply).start k) := by
  generalize isPaging :
    paging loctype maxnlocs country userip keys reply = p
  have first : p.first =
      uriBase ++ fields (firstParams maxnlocs country userip keys) := by
    subst isPaging
    rfl
  have whole : p.uri k = uriBase ++
      fields (firstParams maxnlocs country userip keys ++
        [(ascii "start", p.startopt k)]) := by
    rw [Paging.uri, first, List.append_assoc]
    simp [fields]
  have parts : params (p.uri k) = (ascii "v", ascii "1.0") ::
      given (firstParams maxnlocs country userip keys ++
        [(ascii "start", p.startopt k)]) := by
    have named := named_firstParams maxnlocs country userip keys
      (p.startopt k)
    have queries : (0x3f : UInt8) ∈ uriBase := by decide
    rw [whole, params_append queries named, params_uriBase]
    rfl
  have size : (params (p.uri k)).lookup (ascii "rsz") =
      some (encode [0x30 + UInt8.ofNat (rcountmax maxnlocs)]) := by
    rw [parts]
    rfl
  have start : (params (p.uri k)).lookup (ascii "start") =
      (p.startopt k).map encode := by
    rw [parts]
    cases country <;> cases userip <;> cases p.startopt k <;> rfl
  rw [askedFor, size]
  simp only [readNumber_digit (rcountmax_small maxnlocs)]
  rw [start, Paging.startopt]
  by_cases zero : p.start k = 0
  · simp [zero]
  · simp [Nat.pos_of_ne_zero zero, readNumber_decimalDigits]

/-! ### What is stored -/

/-- Results that all have locators are clean, and these are leading. -/
theorem leading_of_map
    {loctype : KcnLocType} {jres : List Json} {locs : List (List UInt8)}
    (located : jres.map (jlocstr loctype) = locs.map some) :
    leading loctype jres = locs ∧ Clean loctype jres := by
  induction jres generalizing locs with
  | nil =>
      cases locs with
      | nil =>
          exact ⟨rfl, fun _ inside => by cases inside⟩
      | cons loc later =>
          cases located
  | cons jval later inductionHypothesis =>
      cases locs with
      | nil =>
          cases located
      | cons loc locs =>
          rw [List.map_cons, List.map_cons, List.cons.injEq] at located
          obtain ⟨here, rest⟩ := located
          obtain ⟨others, clean⟩ := inductionHypothesis rest
          constructor
          · rw [leading, here, others]
          · intro any member
            rcases List.mem_cons.mp member with rfl | inside
            · rw [here]
              rintro ⟨⟩
            · exact clean any inside

end KcnGoogle

namespace Paging

/-- The pages are those of a service with the given results. -/
def Serves (p : Paging) (results : List (List UInt8)) : Prop :=
  ∀ k, ∃ jres, p.page k = .ok jres ∧ Clean p.loctype jres ∧
    p.found k = (results.drop (p.start k)).take p.step

variable
  {p : Paging} {results : List (List UInt8)} {k : Nat}

theorem serves_of_conforms
    {loctype : KcnLocType} {reply : Nat → List UInt8 → Reply}
    (conforms : Conforms loctype results reply)
    (maxnlocs : Nat) (country userip : Option (List UInt8))
    (keys : List UInt8) :
    (paging loctype maxnlocs country userip keys reply).Serves
      results := by
  intro k
  obtain ⟨jres, page, located⟩ :=
    conforms k _ _ _ (askedFor_uri loctype maxnlocs country userip keys
      reply k)
  obtain ⟨found, clean⟩ := leading_of_map located
  refine ⟨jres, page, clean, ?_⟩
  have isPage :
      (paging loctype maxnlocs country userip keys reply).page k =
        .ok jres := page
  rw [Paging.found, isPage]
  exact found

theorem Serves.delivers (serves : p.Serves results) (k : Nat) :
    p.Delivers k := by
  obtain ⟨jres, page, clean, _⟩ := serves k
  exact ⟨jres, page, Or.inl clean⟩

theorem start_eq (small : p.step * k < 2 ^ 64) :
    p.start k = p.step * k :=
  Nat.mod_eq_of_lt small

/-- The pages are consecutive parts of the results. -/
theorem Serves.stored_eq
    (serves : p.Serves results) (small : p.step * k < 2 ^ 64) :
    p.stored k = results.take (p.step * k) := by
  induction k with
  | zero =>
      simp [stored]
  | succ k inductionHypothesis =>
      rw [Nat.mul_succ] at small
      have smaller : p.step * k < 2 ^ 64 := by omega
      obtain ⟨_, _, _, found⟩ := serves k
      rw [stored_succ, inductionHypothesis smaller, found,
        start_eq smaller, Nat.mul_succ, List.take_add]

/-- What a search at a service ends with. -/
structure Complete
    (p : Paging) (results : List (List UInt8)) (ok : Bool)
    (ctx : GoogleCtx) : Prop where
  ok_eq : ok = decide (results ≠ [])
  locs_eq : ctx.ki.kiLocs = (results.take p.maxnlocs).map entry
  errno_eq : results = [] → ctx.errno = Errno.esrch
  requests_eq : ∀ (k : Nat) (uri : List UInt8),
    ctx.requests[k]? = some uri →
      uri = p.first ++ field (ascii "start")
        (if k = 0 then none else some (decimalDigits (p.step * k)))

/-- The URI of a page that the search comes to. -/
theorem uri_eq (positive : 0 < p.step) (small : p.step * k < 2 ^ 64) :
    p.uri k = p.first ++ field (ascii "start")
      (if k = 0 then none else some (decimalDigits (p.step * k))) := by
  rw [uri, startopt, start_eq small]
  by_cases zero : k = 0
  · subst zero
    simp
  · have more := Nat.mul_pos positive (Nat.pos_of_ne_zero zero)
    rw [if_pos more, if_neg zero]

/-- The requests for consecutive pages. -/
theorem requests_of_pages
    {requests : List (List UInt8)}
    (positive : 0 < p.step) (small : p.step * k < 2 ^ 64)
    (pages : requests = (List.range k).map p.uri)
    {j : Nat} {uri : List UInt8} (request : requests[j]? = some uri) :
    uri = p.first ++ field (ascii "start")
      (if j = 0 then none else some (decimalDigits (p.step * j))) := by
  rw [pages, List.getElem?_map, Option.map_eq_some_iff] at request
  obtain ⟨i, inside, rfl⟩ := request
  obtain ⟨below, rfl⟩ := List.getElem?_eq_some_iff.mp inside
  rw [List.length_range] at below
  rw [List.getElem_range]
  have less : p.step * j ≤ p.step * k :=
    Nat.mul_le_mul_left _ (Nat.le_of_lt below)
  exact uri_eq positive (by omega)

variable {heap : Heap} {ctx : GoogleCtx} {rounds : Nat} {oerrno : Errno}

/-- The locators stored where all results that fit have been asked for. -/
theorem complete_of_at
    {ok : Bool}
    (serves : p.Serves results) (positive : 0 < p.step)
    (small : p.step * k < 2 ^ 64) (here : At p heap k ctx)
    (all : p.maxnlocs ≤ p.step * k ∨ results.length ≤ p.step * k)
    (ok_eq : ok = decide (results ≠ []))
    (errno_eq : results = [] → ctx.errno = Errno.esrch) :
    Complete p results ok ctx where
  ok_eq := ok_eq
  errno_eq := errno_eq
  requests_eq _ _ request :=
    requests_of_pages positive small here.requests_eq request
  locs_eq := by
    rw [here.locs_eq, serves.stored_eq small]
    rcases all with enough | few
    · rw [List.take_take, Nat.min_eq_left enough]
    · rw [List.take_of_length_le few]

/-- The page loop at a service. -/
theorem wp_searchLoop_serves
    (serves : p.Serves results) (grants : heap.Grants)
    (positive : 0 < p.step) (small : p.maxnlocs + p.step < 2 ^ 64)
    (within : p.step * k < p.maxnlocs + p.step)
    (some : 0 < k → results ≠ [])
    (wanted : k = 0 → 0 < p.maxnlocs)
    (holds : KcnUri.Holds ctx.ku p.first) (here : At p heap k ctx)
    (enough : p.maxnlocs + 1 - k + 1 ≤ rounds) :
    wp (searchLoop p.first.length p.step oerrno rounds (p.start k))
      (fun ok ctx' => Complete p results ok ctx') (fun _ => False)
      ctx := by
  induction rounds generalizing k ctx with
  | zero =>
      omega
  | succ rounds inductionHypothesis =>
      have smaller : p.step * k < 2 ^ 64 := by omega
      have start := start_eq smaller
      have next : p.step * (k + 1) = p.step * k + p.step :=
        Nat.mul_succ _ _
      have total {j : Nat} (fits : p.step * j < 2 ^ 64) :
          p.total j = min (p.step * j) results.length := by
        rw [Paging.total, serves.stored_eq fits, List.length_take]
      have here_total := total smaller
      have le : k ≤ p.step * k := Nat.le_mul_of_pos_left k positive
      apply wp_searchLoop holds here
      · intro done
        have later : 0 < k := by
          rcases Nat.eq_zero_or_pos k with rfl | later
          · have := wanted rfl
            omega
          · exact later
        have nonempty := some later
        apply complete_of_at serves positive smaller here
        · exact Or.inl (by omega)
        · exact (decide_eq_true nonempty).symm
        · exact fun none => absurd none nonempty
      · intro below full
        omega
      · rintro _ _ _ (refusing | ⟨_, bad⟩)
        · exact absurd grants refusing
        · exact absurd (serves.delivers k) bad
      · intro ctx' below _ _ none here' errno
        have fits : p.step * (k + 1) < 2 ^ 64 := by omega
        have none := (total fits).symm.trans none
        have empty : results = [] := by
          apply List.eq_nil_of_length_eq_zero
          omega
        apply complete_of_at serves positive fits here'
        · exact Or.inr (by rw [empty]; exact Nat.zero_le _)
        · simp [empty]
        · exact fun _ => errno
      · intro ctx' below _ _ found here' partly
        have fits : p.step * (k + 1) < 2 ^ 64 := by omega
        have count := total fits
        have nonempty : results ≠ [] := by
          rintro rfl
          rw [List.length_nil] at count
          omega
        apply complete_of_at serves positive fits here'
        · by_contra both
          have whole : min p.maxnlocs (p.total (k + 1)) =
              p.step * (k + 1) := by
            omega
          rw [whole, Nat.mul_mod_right] at partly
          exact partly rfl
        · exact (decide_eq_true nonempty).symm
        · exact fun none => absurd none nonempty
      · intro ctx' below _ _ found _ holds' here'
        have fits : p.step * (k + 1) < 2 ^ 64 := by omega
        have count := total fits
        refine inductionHypothesis (by omega) ?_ (by omega) holds' here'
          (by omega)
        rintro _ rfl
        rw [List.length_nil] at count
        omega

end Paging

namespace KcnGoogle

open Paging

theorem rcountmax_pos {maxnlocs : Nat} (positive : 0 < maxnlocs) :
    0 < rcountmax maxnlocs := by
  unfold rcountmax apiRcountmax
  split <;> omega

/-- A service with the given results. -/
def serving
    (loctype : KcnLocType) (results : List (List UInt8)) (_ : Nat)
    (uri : List UInt8) : Reply :=
  match askedFor uri with
  | some (size, start) =>
      answer loctype ((results.drop start).take size)
  | none => .failed Errno.einval

theorem conforms_serving
    (loctype : KcnLocType) (results : List (List UInt8)) :
    Conforms loctype results (serving loctype results) := by
  intro request uri size start asks
  refine ⟨((results.drop start).take size).map fun loc =>
    .object [(jlockey loctype, .string loc)], ?_, ?_⟩
  · rw [serving, asks]
    rfl
  · rw [List.map_map]
    apply List.map_congr_left
    intro loc _
    simp [jlocstr, Json.objectGet]

/-- A search at a service stores the first results that there is room for. -/
theorem web_search_complete
    (loctype : KcnLocType) (maxnlocs : Nat)
    (positive : 0 < maxnlocs) (int : maxnlocs < 2 ^ 31)
    (country userip : Option (List UInt8)) (keys : List UInt8)
    (heap : Heap) (grants : heap.Grants) (errno : Errno)
    (results : List (List UInt8)) (reply : Nat → List UInt8 → Reply)
    (conforms : Conforms loctype results reply) :
    ∃ rounds ok ctx',
      search rounds country userip keys
          (begin loctype maxnlocs heap errno reply) = .ok (ok, ctx') ∧
        Complete (paging loctype maxnlocs country userip keys reply)
          results ok ctx' := by
  have serves :=
    serves_of_conforms conforms maxnlocs country userip keys
  have step := rcountmax_pos positive
  have size := rcountmax_small maxnlocs
  have runs : wp (search (maxnlocs + 2) country userip keys)
      (fun ok ctx' =>
        Complete (paging loctype maxnlocs country userip keys reply)
          results ok ctx')
      (fun _ => False) (begin loctype maxnlocs heap errno reply) := by
    apply wp_search positive rfl
    · exact fun _ refusing => absurd grants refusing
    · intro ctx' holds here
      refine wp_searchLoop_serves serves grants step ?_ ?_ nofun ?_ holds
        here ?_
      · change maxnlocs + rcountmax maxnlocs < 2 ^ 64
        omega
      · change rcountmax maxnlocs * 0 < maxnlocs + rcountmax maxnlocs
        omega
      · exact fun _ => positive
      · exact Nat.le_refl _
  obtain ⟨ok, ctx', returns, complete⟩ := wp_returns runs
  exact ⟨maxnlocs + 2, ok, ctx', returns, complete⟩

/-- A search for three results of a service that has two. -/
theorem web_search_complete_two :
    ∃ rounds ok ctx',
      search rounds none none (ascii "a")
          (begin .uri 3 Heap.granting 0
            (serving .uri [ascii "b", ascii "c"])) = .ok (ok, ctx') ∧
        Complete
          (paging .uri 3 none none (ascii "a")
            (serving .uri [ascii "b", ascii "c"]))
          [ascii "b", ascii "c"] ok ctx' :=
  web_search_complete .uri 3 (by decide) (by decide) none none
    (ascii "a") Heap.granting Heap.grants_granting 0
    [ascii "b", ascii "c"] _ (conforms_serving _ _)

end KcnGoogle

end Kcn
