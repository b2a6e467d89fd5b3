import Kcn.Google

namespace Kcn

open Program KcnUri KcnGoogle

/-!
# The pages of a Web search

What the pages of a remote service make of a search: the page loop of
`kcn_google_search` against the pages that are asked for.
-/

/-! ### Requests of memory -/

namespace KcnGoogle

theorem wp_orNoMemory
    {allocate : GoogleOp Bool} {ctx : GoogleCtx}
    {post : Bool → GoogleCtx → Prop} {halt : Stop → Prop}
    (runs : wp allocate
      (fun ok ctx' =>
        if ok then post true ctx'
        else post false { ctx' with errno := IoError.enomem.errno })
      halt ctx) :
    wp (orNoMemory allocate) post halt ctx := by
  refine wp_seq runs ?_
  rintro (_ | _) ctx' done
  · exact done
  · exact done

/-- A parameter is added or memory is refused. -/
theorem wp_uriParamPuts
    {ctx : GoogleCtx} {text param : List UInt8}
    (val : Option (List UInt8))
    {post : Bool → GoogleCtx → Prop} {halt : Stop → Prop}
    (holds : KcnUri.Holds ctx.ku text) (plain : (0 : UInt8) ∉ param)
    (refused : ∀ ctx', ¬ ctx.heap.Grants → post false ctx')
    (granted : ∀ (ku : KcnUri) (heap : Heap),
      Heap.Later ctx.heap heap →
      KcnUri.Holds ku (text ++ field param val) →
      post true { ctx with ku := ku, heap := heap }) :
    wp (uriParamPuts param val) post halt ctx := by
  apply wp_orNoMemory
  rw [wp_zoom]
  apply wp_paramPuts val holds plain
  · intro part _ refusing
    exact refused _ refusing
  · intro part later grown
    exact granted part.ku part.heap later grown

/-- The locators of the first results, up to one that has none. -/
def leading (loctype : KcnLocType) : List Json → List (List UInt8)
  | [] => []
  | jval :: later =>
      match jlocstr loctype jval with
      | none => []
      | some locstr => locstr :: leading loctype later

/-- Every result has a locator. -/
def Clean (loctype : KcnLocType) (jres : List Json) : Prop :=
  ∀ jval ∈ jres, jlocstr loctype jval ≠ none

/-- What is stored for a locator. -/
def entry (locstr : List UInt8) : KcnLoc where
  klUri := locstr ++ [0]
  klScore := 0

/-- The loop over the results changes the information structure only. -/
structure Kept (ctx ctx' : GoogleCtx) : Prop where
  ku_eq : ctx'.ku = ctx.ku
  later : Heap.Later ctx.heap ctx'.heap
  loctype_eq : ctx'.ki.kiLoctype = ctx.ki.kiLoctype
  max_eq : ctx'.ki.kiMaxnlocs = ctx.ki.kiMaxnlocs
  reply_eq : ctx'.reply = ctx.reply
  requests_eq : ctx'.requests = ctx.requests

theorem Kept.trans
    {ctx ctx' ctx'' : GoogleCtx}
    (first : Kept ctx ctx') (second : Kept ctx' ctx'') :
    Kept ctx ctx'' where
  ku_eq := second.ku_eq.trans first.ku_eq
  later := first.later.trans second.later
  loctype_eq := second.loctype_eq.trans first.loctype_eq
  max_eq := second.max_eq.trans first.max_eq
  reply_eq := second.reply_eq.trans first.reply_eq
  requests_eq := second.requests_eq.trans first.requests_eq

/-- A locator is stored where there is room and memory. -/
theorem wp_locAdd
    {ctx : GoogleCtx} {locstr : List UInt8}
    {post : Bool → GoogleCtx → Prop} {halt : Stop → Prop}
    (room : ctx.ki.nlocs < ctx.ki.kiMaxnlocs)
    (refused : ∀ ctx', ¬ ctx.heap.Grants → post false ctx')
    (stored : ∀ ctx',
      Kept ctx ctx' →
      ctx'.ki.kiLocs = ctx.ki.kiLocs ++ [entry locstr] →
      post true ctx') :
    wp (KcnInfo.locAdd kiLens malloc locstr 0) post halt ctx := by
  simp only [KcnInfo.locAdd, wp_bind, wp_gets, kiLens, room]
  simp only [malloc, dif_pos, wp_bind]
  apply wp_orNoMemory
  rw [wp_zoom]
  apply Heap.wp_malloc
  · intro heap later refusing
    exact refused _ refusing
  · intro heap later
    exact stored _ ⟨rfl, later, rfl, rfl, rfl, rfl⟩ rfl

/-- The loop stores the leading locators that there is room for. -/
theorem wp_addLoop
    {ctx : GoogleCtx} {jres : List Json}
    {post : Bool → GoogleCtx → Prop} {halt : Stop → Prop}
    (room : ctx.ki.nlocs < ctx.ki.kiMaxnlocs)
    (refused : ∀ ctx', ¬ ctx.heap.Grants → post false ctx')
    (unclean : ∀ ctx',
      ¬ Clean ctx.ki.kiLoctype jres →
      ctx.ki.nlocs + (leading ctx.ki.kiLoctype jres).length <
        ctx.ki.kiMaxnlocs →
      post false ctx')
    (added : ∀ ctx',
      Kept ctx ctx' →
      (Clean ctx.ki.kiLoctype jres ∨
        ctx.ki.kiMaxnlocs ≤
          ctx.ki.nlocs + (leading ctx.ki.kiLoctype jres).length) →
      ctx'.ki.kiLocs = ctx.ki.kiLocs ++
        ((leading ctx.ki.kiLoctype jres).take
          (ctx.ki.kiMaxnlocs - ctx.ki.nlocs)).map entry →
      post true ctx') :
    wp (addLoop jres) post halt ctx := by
  induction jres generalizing ctx with
  | nil =>
      apply added ctx
      · exact ⟨rfl, rfl, rfl, rfl, rfl, rfl⟩
      · exact Or.inl nofun
      · simp [leading]
  | cons jval later inductionHypothesis =>
      simp only [addLoop, wp_bind, wp_gets]
      cases shape : jlocstr ctx.ki.kiLoctype jval with
      | none =>
          apply unclean
          · exact fun clean => clean jval List.mem_cons_self shape
          · simpa [leading, shape] using room
      | some locstr =>
          simp only [leading, shape, List.length_cons] at unclean added
          have clean_cons {loctype : KcnLocType}
              (same : loctype = ctx.ki.kiLoctype) :
              Clean loctype later ↔
                Clean ctx.ki.kiLoctype (jval :: later) := by
            subst same
            simp [Clean, shape]
          simp only [wp_bind]
          apply wp_locAdd room
          · intro ctx' refusing
            exact refused ctx' refusing
          intro ctx₁ kept₁ locs₁
          have count₁ : ctx₁.ki.nlocs = ctx.ki.nlocs + 1 := by
            simp [KcnInfo.nlocs, locs₁]
          have max₁ := kept₁.max_eq
          simp only [if_true, wp_bind, wp_gets]
          split
          case isTrue full =>
              have one : ctx.ki.kiMaxnlocs - ctx.ki.nlocs = 1 := by
                omega
              apply added ctx₁ kept₁ (Or.inr (by omega))
              rw [locs₁, one]
              rfl
          case isFalse notFull =>
              have loctype₁ := kept₁.loctype_eq
              apply inductionHypothesis
              · omega
              · intro ctx' refusing
                exact refused ctx' (kept₁.later.refuses refusing)
              · intro ctx' dirty short
                rw [loctype₁] at short
                apply unclean ctx'
                · rwa [← clean_cons loctype₁]
                · omega
              · intro ctx' kept short locs
                rw [loctype₁] at short locs
                apply added ctx' (kept₁.trans kept)
                · rcases short with clean | full
                  · exact Or.inl ((clean_cons rfl).mp clean)
                  · exact Or.inr (by omega)
                · have left :
                      ctx.ki.kiMaxnlocs - ctx.ki.nlocs =
                        ctx₁.ki.kiMaxnlocs - ctx₁.ki.nlocs + 1 := by
                    omega
                  rw [locs, locs₁, left, List.take_succ_cons,
                    List.map_cons, List.append_assoc]
                  rfl

end KcnGoogle

/-! ### The pages -/

/--
The pages that a search asks a service for; `first` is the URI of the first
request.
-/
structure Paging where
  loctype : KcnLocType
  maxnlocs : Nat
  first : List UInt8
  reply : Nat → List UInt8 → Reply

namespace Paging

variable (p : Paging)

/-- How far apart the pages are. -/
def step : Nat :=
  rcountmax p.maxnlocs

/-- The first result of a page. -/
def start (k : Nat) : Nat :=
  p.step * k % 2 ^ 64

/-- The parameter that tells the first result of a page. -/
def startopt (k : Nat) : Option (List UInt8) :=
  if 0 < p.start k then some (decimalDigits (p.start k)) else none

/-- The URI of the request for a page. -/
def uri (k : Nat) : List UInt8 :=
  p.first ++ field (ascii "start") (p.startopt k)

/-- The results of a page, or the `errno` where there are none. -/
def page (k : Nat) : Except Errno (List Json) :=
  resultsOf (p.reply k (p.uri k))

/-- The locators that a page begins with. -/
def found (k : Nat) : List (List UInt8) :=
  match p.page k with
  | .ok jres => leading p.loctype jres
  | .error _ => []

/-- The locators of the first pages. -/
def stored (k : Nat) : List (List UInt8) :=
  (List.range k).flatMap p.found

/-- The number of locators in the first pages. -/
def total (k : Nat) : Nat :=
  (p.stored k).length

/-- The page gives as many locators as there is room for. -/
def Delivers (k : Nat) : Prop :=
  ∃ jres, p.page k = .ok jres ∧
    (Clean p.loctype jres ∨ p.maxnlocs ≤ p.total (k + 1))

/-- After the page the search asks for another. -/
structure Continues (k : Nat) : Prop where
  delivers : p.Delivers k
  some : 0 < p.total (k + 1)
  whole : p.total (k + 1) % p.step = 0
  room : p.total (k + 1) < p.maxnlocs
  below : p.start (k + 1) < p.maxnlocs

/-- The search asks for the page. -/
def Steady (k : Nat) : Prop :=
  ∀ j < k, p.Continues j

/-- After the page there is no room, and the search asks for another. -/
structure Fills (k : Nat) : Prop where
  full : p.maxnlocs ≤ p.total (k + 1)
  whole : p.maxnlocs % p.step = 0
  below : p.start (k + 1) < p.maxnlocs

/-- The search asks for a page where there is no room for a result. -/
def Overrun : Prop :=
  ∃ k, p.Steady k ∧ p.Fills k

/-- The search always asks for another page. -/
def Endless : Prop :=
  ∀ k, p.Steady k

variable {p}

theorem stored_succ (k : Nat) :
    p.stored (k + 1) = p.stored k ++ p.found k := by
  simp [stored, List.range_succ]

theorem total_succ (k : Nat) :
    p.total (k + 1) = p.total k + (p.found k).length := by
  simp [total, stored_succ]

theorem start_succ (k : Nat) :
    (p.start k + p.step) % 2 ^ 64 = p.start (k + 1) := by
  rw [start, start, Nat.mod_add_mod, Nat.mul_succ]

@[simp] theorem start_zero : p.start 0 = 0 := by
  simp [start]

/-- The search has what the pages before this one gave. -/
structure At (p : Paging) (heap : Heap) (k : Nat) (ctx : GoogleCtx) :
    Prop where
  later : Heap.Later heap ctx.heap
  loctype_eq : ctx.ki.kiLoctype = p.loctype
  max_eq : ctx.ki.kiMaxnlocs = p.maxnlocs
  locs_eq :
    ctx.ki.kiLocs = ((p.stored k).take p.maxnlocs).map entry
  reply_eq : ctx.reply = p.reply
  requests_eq : ctx.requests = (List.range k).map p.uri

theorem At.nlocs_eq
    {heap : Heap} {k : Nat} {ctx : GoogleCtx}
    (here : At p heap k ctx) :
    ctx.ki.nlocs = min p.maxnlocs (p.total k) := by
  rw [KcnInfo.nlocs, here.locs_eq, List.length_map, List.length_take]
  rfl

variable
  {heap : Heap} {k rounds : Nat} {ctx : GoogleCtx} {oerrno : Errno}
  {post : Bool → GoogleCtx → Prop} {halt : Stop → Prop}

/-- What `kcn_google_search_one` makes of a page. -/
theorem wp_searchOne
    (room : p.total k < p.maxnlocs)
    (holds : KcnUri.Holds ctx.ku (p.uri k))
    (here : At p heap k ctx)
    (failed : ∀ ctx',
      ¬ heap.Grants ∨ ¬ p.Delivers k → post false ctx')
    (nothing : ∀ ctx',
      p.Delivers k → p.total (k + 1) = 0 →
      At p heap (k + 1) ctx' → ctx'.errno = Errno.esrch →
      post false ctx')
    (more : ∀ ctx',
      p.Delivers k → 0 < p.total (k + 1) →
      At p heap (k + 1) ctx' → ctx'.ku = ctx.ku →
      post true ctx') :
    wp searchOne post halt ctx := by
  have count : ctx.ki.nlocs = p.total k := by
    rw [here.nlocs_eq, Nat.min_eq_right (Nat.le_of_lt room)]
  have free : ctx.ki.nlocs < ctx.ki.kiMaxnlocs := by
    rw [count, here.max_eq]
    exact room
  have asked : ctx.requests.length = k := by
    rw [here.requests_eq]
    simp
  have answer :
      ctx.reply ctx.requests.length ctx.ku.uri = p.reply k (p.uri k) := by
    rw [here.reply_eq, asked, holds.uri_eq]
  simp only [searchOne, wp_bind, wp_gets, free, if_true, responseGet,
    wp_modify, wp_pure, id]
  rw [answer]
  cases page : p.page k with
  | error error =>
      have shape : resultsOf (p.reply k (p.uri k)) = .error error := page
      rw [shape]
      apply failed
      refine Or.inr ?_
      rintro ⟨jres, isOk, _⟩
      rw [page] at isOk
      cases isOk
  | ok jres =>
      have shape : resultsOf (p.reply k (p.uri k)) = .ok jres := page
      have found : leading p.loctype jres = p.found k := by
        rw [Paging.found, page]
      rw [shape]
      simp only [wp_bind]
      have sum : ctx.ki.nlocs + (leading ctx.ki.kiLoctype jres).length =
          p.total (k + 1) := by
        rw [count, here.loctype_eq, found, total_succ]
      apply wp_addLoop
      · exact free
      · intro ctx' refusing
        exact failed ctx' (Or.inl (here.later.refuses refusing))
      · intro ctx' dirty short
        have short : p.total (k + 1) < p.maxnlocs := by
          rw [← sum, ← here.max_eq]
          exact short
        apply failed
        refine Or.inr ?_
        rintro ⟨jres', isOk, clean | full⟩
        · rw [page] at isOk
          cases isOk
          exact dirty (here.loctype_eq ▸ clean)
        · omega
      · intro ctx' kept whole locs
        have next : At p heap (k + 1) ctx' := by
          refine ⟨here.later.trans kept.later, ?_, ?_, ?_, ?_, ?_⟩
          · exact kept.loctype_eq.trans here.loctype_eq
          · exact kept.max_eq.trans here.max_eq
          · rw [locs, here.loctype_eq, found, here.locs_eq, here.max_eq,
              count, ← List.map_append, stored_succ, List.take_append]
            rfl
          · exact kept.reply_eq.trans here.reply_eq
          · rw [kept.requests_eq, here.requests_eq, List.range_succ,
              List.map_append, holds.uri_eq]
            rfl
        have delivers : p.Delivers k := by
          refine ⟨jres, page, ?_⟩
          rcases whole with clean | full
          · exact Or.inl (here.loctype_eq ▸ clean)
          · have full := Nat.le_trans full (Nat.le_of_eq sum)
            rw [here.max_eq] at full
            exact Or.inr full
        simp only [if_true, wp_bind, wp_gets]
        rw [next.nlocs_eq]
        split
        case isTrue none =>
            refine nothing _ delivers (by omega) ?_ rfl
            exact ⟨next.later, next.loctype_eq, next.max_eq, next.locs_eq,
              next.reply_eq, next.requests_eq⟩
        case isFalse some =>
            exact more ctx' delivers (by omega) next kept.ku_eq

/-- One round of the page loop. -/
theorem wp_searchLoop
    (holds : KcnUri.Holds ctx.ku p.first)
    (here : At p heap k ctx)
    (done : p.maxnlocs ≤ p.start k → post true ctx)
    (full : p.start k < p.maxnlocs → p.maxnlocs ≤ p.total k →
      halt .googleAssertion)
    (failed : ∀ ok ctx', p.start k < p.maxnlocs →
      ¬ heap.Grants ∨ p.total k < p.maxnlocs ∧ ¬ p.Delivers k →
      post ok ctx')
    (nothing : ∀ ctx', p.start k < p.maxnlocs →
      p.total k < p.maxnlocs → p.Delivers k →
      p.total (k + 1) = 0 → At p heap (k + 1) ctx' →
      ctx'.errno = Errno.esrch → post false ctx')
    (last : ∀ ctx', p.start k < p.maxnlocs →
      p.total k < p.maxnlocs → p.Delivers k →
      0 < p.total (k + 1) → At p heap (k + 1) ctx' →
      min p.maxnlocs (p.total (k + 1)) % p.step ≠ 0 → post true ctx')
    (next : ∀ ctx', p.start k < p.maxnlocs →
      p.total k < p.maxnlocs → p.Delivers k →
      0 < p.total (k + 1) →
      min p.maxnlocs (p.total (k + 1)) % p.step = 0 →
      KcnUri.Holds ctx'.ku p.first → At p heap (k + 1) ctx' →
      wp (searchLoop p.first.length p.step oerrno rounds
        (p.start (k + 1))) post halt ctx') :
    wp (searchLoop p.first.length p.step oerrno (rounds + 1)
      (p.start k)) post halt ctx := by
  simp only [searchLoop, wp_bind, wp_gets]
  rw [here.max_eq]
  by_cases below : p.start k < p.maxnlocs
  case neg =>
      rw [if_neg below, wp_pure]
      exact done (by omega)
  rw [if_pos below, wp_bind]
  apply wp_uriParamPuts _ holds (by decide)
  · intro ctx' refusing
    exact failed false ctx' below (Or.inl (here.later.refuses refusing))
  intro ku heap₁ later₁ holds₁
  have here₁ : At p heap k { ctx with ku := ku, heap := heap₁ } :=
    ⟨here.later.trans later₁, here.loctype_eq, here.max_eq, here.locs_eq,
      here.reply_eq, here.requests_eq⟩
  simp only [if_true, wp_bind]
  by_cases room : p.total k < p.maxnlocs
  case neg =>
      have stops := full below (by omega)
      have noRoom : ¬ ctx.ki.nlocs < ctx.ki.kiMaxnlocs := by
        rw [here.nlocs_eq, here.max_eq]
        omega
      simp only [searchOne, wp_bind, wp_gets, noRoom, if_false]
      exact stops
  apply wp_searchOne room holds₁ here₁
  · intro ctx' reason
    have anyway (ok : Bool) (ctx' : GoogleCtx) : post ok ctx' := by
      apply failed ok ctx' below
      rcases reason with refusing | bad
      · exact Or.inl refusing
      · exact Or.inr ⟨room, bad⟩
    simp only [Bool.false_eq_true, if_false, wp_bind, wp_gets]
    split
    · exact anyway false _
    · exact anyway true _
  · intro ctx' delivers none here₂ errno
    have empty : ctx'.ki.nlocs = 0 := by
      rw [here₂.nlocs_eq, none, Nat.min_zero]
    simp only [Bool.false_eq_true, if_false, wp_bind, wp_gets, id, empty,
      or_true, if_true, wp_pure]
    exact nothing ctx' below room delivers none here₂ errno
  · intro ctx' delivers some here₂ sameUri
    simp only [if_true, wp_bind, wp_zoom]
    have holds₂ : KcnUri.Holds ctx'.ku (p.uri k) := by
      rw [sameUri]
      exact holds₁
    apply wp_resize holds₂
    intro part sameHeap holds₃
    have later₃ : Heap.Later heap part.heap := by
      rw [sameHeap]
      exact here₂.later
    have here₃ : At p heap (k + 1) (uriLens.set ctx' part) :=
      ⟨later₃, here₂.loctype_eq, here₂.max_eq,
        here₂.locs_eq, here₂.reply_eq, here₂.requests_eq⟩
    simp only [wp_gets]
    rw [here₃.nlocs_eq]
    split
    case isTrue partly =>
        exact last _ below room delivers some here₃ partly
    case isFalse whole =>
        rw [start_succ]
        exact next _ below room delivers some (by omega) holds₃ here₃

/-! ### The first request -/

/-- The state where a search begins. -/
def begin
    (loctype : KcnLocType) (maxnlocs : Nat) (heap : Heap)
    (errno : Errno) (reply : Nat → List UInt8 → Reply) : GoogleCtx where
  ku := { kuUrilen := 0, kuUri := [] }
  heap := heap
  ki := KcnInfo.new loctype maxnlocs
  errno := errno
  reply := reply
  requests := []

/-- The URI of the first request. -/
def firstUri
    (maxnlocs : Nat) (country userip : Option (List UInt8))
    (keys : List UInt8) : List UInt8 :=
  uriBase ++ fields (firstParams maxnlocs country userip keys)

/-- The names of the parameters have no NUL. -/
theorem plain_firstParams
    (maxnlocs : Nat) (country userip : Option (List UInt8))
    (keys : List UInt8) :
    ∀ param ∈ firstParams maxnlocs country userip keys,
      (0 : UInt8) ∉ param.1 := by
  have names : ∀ name ∈
      [ascii "rsz", ascii "gl", ascii "userip", ascii "q"],
      (0 : UInt8) ∉ name := by
    decide
  intro param member
  exact names param.1 (List.mem_map_of_mem member)

theorem wp_paramsPuts
    {ps : Params} {text : List UInt8}
    (plain : ∀ param ∈ ps, (0 : UInt8) ∉ param.1)
    (holds : KcnUri.Holds ctx.ku text)
    (refused : ∀ ctx', ¬ ctx.heap.Grants → post false ctx')
    (granted : ∀ (ku : KcnUri) (heap : Heap),
      Heap.Later ctx.heap heap →
      KcnUri.Holds ku (text ++ fields ps) →
      post true { ctx with ku := ku, heap := heap }) :
    wp (paramsPuts ps) post halt ctx := by
  induction ps generalizing ctx text with
  | nil =>
      apply granted ctx.ku ctx.heap rfl
      simpa [fields] using holds
  | cons first later inductionHypothesis =>
      obtain ⟨param, val⟩ := first
      simp only [paramsPuts, wp_bind]
      apply wp_uriParamPuts val holds (plain _ List.mem_cons_self)
      · intro ctx' refusing
        exact refused ctx' refusing
      · intro ku heap₁ later₁ holds₁
        simp only [if_true]
        apply inductionHypothesis
        · exact fun other member =>
            plain other (List.mem_cons_of_mem _ member)
        · exact holds₁
        · intro ctx' refusing
          exact refused ctx' (later₁.refuses refusing)
        · intro ku₂ heap₂ later₂ holds₂
          apply granted ku₂ heap₂ (later₁.trans later₂)
          simpa [fields] using holds₂

/-- A search comes to the page loop or is refused memory. -/
theorem wp_search
    {loctype : KcnLocType} {maxnlocs : Nat}
    {country userip : Option (List UInt8)} {keys : List UInt8}
    {errno : Errno} {reply : Nat → List UInt8 → Reply}
    (positive : 0 < maxnlocs)
    (isPaging : p = {
      loctype := loctype
      maxnlocs := maxnlocs
      first := firstUri maxnlocs country userip keys
      reply := reply
    })
    (refused : ∀ ctx', ¬ heap.Grants → post false ctx')
    (started : ∀ ctx', KcnUri.Holds ctx'.ku p.first →
      At p heap 0 ctx' →
      wp (searchLoop p.first.length p.step errno rounds (p.start 0))
        post halt ctx') :
    wp (search rounds country userip keys) post halt
      (begin loctype maxnlocs heap errno reply) := by
  subst isPaging
  simp only [search, wp_bind, wp_gets, id, begin, KcnInfo.new, positive,
    if_true, wp_zoom]
  apply wp_new (by decide)
  · intro heap₁ later₁ refusing
    exact refused _ refusing
  intro ku heap₁ later₁ holds₁
  simp only [wp_bind, wp_modify]
  apply wp_paramsPuts _ holds₁
  · intro ctx' refusing
    exact refused ctx' (later₁.refuses refusing)
  · intro ku₂ heap₂ later₂ holds₂
    simp only [if_true, wp_bind, wp_gets]
    have len : ku₂.len =
        (firstUri maxnlocs country userip keys).length :=
      holds₂.len_eq
    rw [len]
    have go := started { begin loctype maxnlocs heap errno reply with
      ku := ku₂, heap := heap₂ } holds₂
      ⟨later₁.trans later₂, rfl, rfl, by simp [stored, begin, KcnInfo.new],
        rfl, rfl⟩
    rw [start_zero] at go
    exact go
  · exact plain_firstParams _ _ _ _

/-! ### Searches that end -/

theorem Steady.succ (steady : p.Steady k) (continues : p.Continues k) :
    p.Steady (k + 1) := by
  intro j below
  rcases Nat.lt_succ_iff_lt_or_eq.mp below with earlier | rfl
  · exact steady j earlier
  · exact continues

theorem Steady.mono {j : Nat} (steady : p.Steady k) (le : j ≤ k) :
    p.Steady j :=
  fun i below => steady i (Nat.lt_of_lt_of_le below le)

/-- There is room where the search asks for a page. -/
theorem Steady.room (positive : 0 < p.maxnlocs) (steady : p.Steady k) :
    p.total k < p.maxnlocs ∧ p.start k < p.maxnlocs := by
  cases k with
  | zero =>
      rw [start_zero]
      exact ⟨positive, positive⟩
  | succ k =>
      have before := steady k (Nat.lt_succ_self k)
      exact ⟨before.room, before.below⟩

/-- The search ends after the page that is not followed by another. -/
theorem searchLoop_returns
    {last : Nat}
    (within : ¬ p.Overrun) (ends : ¬ p.Steady last)
    (holds : KcnUri.Holds ctx.ku p.first) (here : At p heap k ctx)
    (steady : p.Steady k) (room : p.total k < p.maxnlocs)
    (enough : last - k + 2 ≤ rounds) :
    wp (searchLoop p.first.length p.step oerrno rounds (p.start k))
      (fun _ _ => True) (fun _ => False) ctx := by
  induction rounds generalizing k ctx with
  | zero =>
      omega
  | succ rounds inductionHypothesis =>
      apply wp_searchLoop holds here
      · exact fun _ => trivial
      · exact fun _ full => by omega
      · exact fun _ _ _ _ => trivial
      · exact fun _ _ _ _ _ _ _ => trivial
      · exact fun _ _ _ _ _ _ _ => trivial
      intro ctx' below _ delivers some whole holds' here'
      by_cases further : p.start (k + 1) < p.maxnlocs
      · have room' : p.total (k + 1) < p.maxnlocs := by
          by_contra full
          rw [Nat.min_eq_left (by omega)] at whole
          exact within ⟨k, steady, by omega, whole, further⟩
        rw [Nat.min_eq_right (by omega)] at whole
        have steady' :=
          steady.succ ⟨delivers, some, whole, room', further⟩
        have before : k < last := by
          by_contra after
          exact ends (steady.mono (by omega))
        exact inductionHypothesis holds' here' steady' room' (by omega)
      · obtain ⟨rounds, rfl⟩ : ∃ more, rounds = more + 1 :=
          ⟨rounds - 1, by omega⟩
        apply wp_searchLoop holds' here'
        · exact fun _ => trivial
        all_goals
          intros
          contradiction

/-- The search never returns if it runs into a full structure or goes on. -/
theorem searchLoop_never
    (positive : 0 < p.maxnlocs) (grants : heap.Grants)
    (bad : p.Endless ∨ ∃ last, k ≤ last ∧ p.Steady last ∧ p.Fills last)
    (holds : KcnUri.Holds ctx.ku p.first) (here : At p heap k ctx) :
    wp (searchLoop p.first.length p.step oerrno rounds (p.start k))
      (fun _ _ => False) (fun _ => True) ctx := by
  induction rounds generalizing k ctx with
  | zero =>
      trivial
  | succ rounds inductionHypothesis =>
      have steady : p.Steady k := by
        rcases bad with endless | ⟨last, le, steady, _⟩
        · exact endless k
        · exact steady.mono le
      obtain ⟨room, below⟩ := steady.room positive
      have goesOn (continues : p.Continues k)
          (bad' : p.Endless ∨
            ∃ last, k + 1 ≤ last ∧ p.Steady last ∧ p.Fills last) :
          wp (searchLoop p.first.length p.step oerrno (rounds + 1)
            (p.start k)) (fun _ _ => False) (fun _ => True) ctx := by
        have some := continues.some
        apply wp_searchLoop holds here
        · exact fun done => by omega
        · exact fun _ _ => trivial
        · rintro _ _ _ (refusing | ⟨_, bad⟩)
          · exact refusing grants
          · exact bad continues.delivers
        · exact fun _ _ _ _ none _ _ => by omega
        · intro _ _ _ _ _ _ partly
          rw [Nat.min_eq_right (Nat.le_of_lt continues.room)] at partly
          exact partly continues.whole
        · intro ctx' _ _ _ _ _ holds' here'
          exact inductionHypothesis bad' holds' here'
      rcases bad with endless | ⟨last, le, steadyLast, fills⟩
      · exact goesOn (endless (k + 1) k (Nat.lt_succ_self k))
          (Or.inl endless)
      · rcases Nat.lt_or_eq_of_le le with before | rfl
        · exact goesOn (steadyLast k before)
            (Or.inr ⟨last, before, steadyLast, fills⟩)
        · obtain ⟨full, whole, next⟩ := fills
          have delivers : p.Delivers k := by
            cases page : p.page k with
            | error error =>
                rw [total_succ, found, page, List.length_nil] at full
                omega
            | ok jres =>
                exact ⟨jres, page, Or.inr full⟩
          apply wp_searchLoop holds here
          · exact fun done => by omega
          · exact fun _ _ => trivial
          · rintro _ _ _ (refusing | ⟨_, bad⟩)
            · exact refusing grants
            · exact bad delivers
          · exact fun _ _ _ _ none _ _ => by omega
          · intro _ _ _ _ _ _ partly
            rw [Nat.min_eq_left full] at partly
            exact partly whole
          · intro ctx' _ _ _ _ _ holds' here'
            cases rounds with
            | zero =>
                trivial
            | succ rounds =>
                apply wp_searchLoop holds' here'
                · exact fun done => by omega
                · exact fun _ _ => trivial
                · rintro _ _ _ (refusing | ⟨room', _⟩)
                  · exact refusing grants
                  · omega
                all_goals
                  intros
                  omega

/-! ### Bounds -/

end Paging

namespace KcnGoogle

/-- The room of the information structure is not changed. -/
theorem keeps_orNoMemory
    {allocate : GoogleOp Bool}
    (keeps : Keeps (fun ctx => ctx.ki.kiMaxnlocs) allocate) :
    Keeps (fun ctx => ctx.ki.kiMaxnlocs) (orNoMemory allocate) :=
  keeps.bind fun _ =>
    Keeps.ite (Keeps.pure _)
      (Keeps.bind (Keeps.modify fun _ => rfl) fun _ => Keeps.pure _)

theorem keeps_setErrno (errno : Errno) :
    Keeps (fun ctx => ctx.ki.kiMaxnlocs) (setErrno errno) :=
  Keeps.modify fun _ => rfl

theorem keeps_uriParamPuts
    (param : List UInt8) (val : Option (List UInt8)) :
    Keeps (fun ctx => ctx.ki.kiMaxnlocs) (uriParamPuts param val) :=
  keeps_orNoMemory (Keeps.zoom fun _ _ => rfl)

theorem keeps_locAdd (locstr : List UInt8) (score : Nat) :
    Keeps (fun ctx => ctx.ki.kiMaxnlocs)
      (KcnInfo.locAdd kiLens malloc locstr score) := by
  have keeps : Keeps (fun ctx : GoogleCtx => ctx.ki.kiMaxnlocs) malloc :=
    keeps_orNoMemory (Keeps.zoom fun _ _ => rfl)
  intro ctx
  simp only [KcnInfo.locAdd, wp_bind, wp_gets]
  split
  case isTrue room =>
      rw [wp_bind]
      refine wp_imp (keeps ctx) ?_
      rintro (_ | _) ctx' same
      · exact same
      · rfl
  case isFalse =>
      trivial

theorem keeps_addLoop (jres : List Json) :
    Keeps (fun ctx => ctx.ki.kiMaxnlocs) (addLoop jres) := by
  induction jres with
  | nil =>
      exact Keeps.pure _
  | cons jval later inductionHypothesis =>
      refine Keeps.bind (Keeps.gets _) fun ki => ?_
      split
      · exact Keeps.bind (keeps_setErrno _) fun _ => Keeps.pure _
      · refine Keeps.bind (keeps_locAdd _ _) fun _ => Keeps.ite ?_ ?_
        · exact Keeps.bind (Keeps.gets _) fun _ =>
            Keeps.ite (Keeps.pure _) inductionHypothesis
        · exact Keeps.pure _

theorem keeps_searchOne :
    Keeps (fun ctx => ctx.ki.kiMaxnlocs) searchOne := by
  refine Keeps.bind (Keeps.gets _) fun ki => Keeps.ite ?_ (Keeps.stop _)
  refine Keeps.bind ?_ fun reply => ?_
  · exact Keeps.bind (Keeps.gets _) fun _ =>
      Keeps.bind (Keeps.modify fun _ => rfl) fun _ => Keeps.pure _
  · split
    · exact Keeps.bind (keeps_setErrno _) fun _ => Keeps.pure _
    · refine Keeps.bind (keeps_addLoop _) fun _ =>
        Keeps.ite ?_ (Keeps.pure _)
      exact Keeps.bind (Keeps.gets _) fun _ =>
        Keeps.ite (Keeps.bind (keeps_setErrno _) fun _ => Keeps.pure _)
          (Keeps.pure _)

theorem keeps_searchLoop
    (uriolen step : Nat) (oerrno : Errno) (rounds n : Nat) :
    Keeps (fun ctx => ctx.ki.kiMaxnlocs)
      (searchLoop uriolen step oerrno rounds n) := by
  induction rounds generalizing n with
  | zero =>
      exact Keeps.stop _
  | succ rounds inductionHypothesis =>
      refine Keeps.bind (Keeps.gets _) fun ki =>
        Keeps.ite ?_ (Keeps.pure _)
      refine Keeps.bind (keeps_uriParamPuts _ _) fun _ =>
        Keeps.ite ?_ (Keeps.pure _)
      refine Keeps.bind keeps_searchOne fun _ => Keeps.ite ?_ ?_
      · refine Keeps.bind (Keeps.zoom fun _ _ => rfl) fun _ => ?_
        exact Keeps.bind (Keeps.gets _) fun _ =>
          Keeps.ite (Keeps.pure _) (inductionHypothesis _)
      · refine Keeps.bind (Keeps.gets _) fun _ =>
          Keeps.ite (Keeps.pure _) ?_
        exact Keeps.bind (keeps_setErrno _) fun _ => Keeps.pure _

theorem keeps_paramsPuts (ps : Params) :
    Keeps (fun ctx => ctx.ki.kiMaxnlocs) (paramsPuts ps) := by
  induction ps with
  | nil =>
      exact Keeps.pure _
  | cons first later inductionHypothesis =>
      exact Keeps.bind (keeps_uriParamPuts _ _) fun _ =>
        Keeps.ite inductionHypothesis (Keeps.pure _)

theorem keeps_search
    (rounds : Nat) (country userip : Option (List UInt8))
    (keys : List UInt8) :
    Keeps (fun ctx => ctx.ki.kiMaxnlocs)
      (search rounds country userip keys) := by
  refine Keeps.bind (Keeps.gets _) fun ctx => Keeps.ite ?_ (Keeps.stop _)
  refine Keeps.bind (Keeps.zoom fun _ _ => rfl) fun made => ?_
  split
  · exact Keeps.bind (keeps_setErrno _) fun _ => Keeps.pure _
  · refine Keeps.bind (Keeps.modify fun _ => rfl) fun _ => ?_
    refine Keeps.bind (keeps_paramsPuts _) fun _ =>
      Keeps.ite ?_ (Keeps.pure _)
    exact Keeps.bind (Keeps.gets _) fun _ => keeps_searchLoop _ _ _ _ _

/-- A search returns, with no more locators than there is room for. -/
def Safe
    (country userip : Option (List UInt8)) (keys : List UInt8)
    (ctx : GoogleCtx) : Prop :=
  ∃ rounds ok ctx',
    search rounds country userip keys ctx = .ok (ok, ctx') ∧
      ctx'.ki.nlocs ≤ ctx.ki.kiMaxnlocs

/-- The pages of a search. -/
def paging
    (loctype : KcnLocType) (maxnlocs : Nat)
    (country userip : Option (List UInt8)) (keys : List UInt8)
    (reply : Nat → List UInt8 → Reply) : Paging where
  loctype := loctype
  maxnlocs := maxnlocs
  first := Paging.firstUri maxnlocs country userip keys
  reply := reply

open Paging

variable
  {loctype : KcnLocType} {maxnlocs : Nat}
  {country userip : Option (List UInt8)} {keys : List UInt8}
  {reply : Nat → List UInt8 → Reply}

/-- A search that finds its room and an end returns. -/
theorem safe_of_within
    (positive : 0 < maxnlocs)
    (within : ¬ (paging loctype maxnlocs country userip keys reply).Overrun)
    (ends : ¬ (paging loctype maxnlocs country userip keys reply).Endless)
    (heap : Heap) (errno : Errno) :
    Safe country userip keys
      (begin loctype maxnlocs heap errno reply) := by
  obtain ⟨last, ends⟩ := not_forall.mp ends
  have runs : wp (search (last + 2) country userip keys)
      (fun _ _ => True) (fun _ => False)
      (begin loctype maxnlocs heap errno reply) := by
    apply wp_search positive rfl
    · exact fun _ _ => trivial
    · intro ctx' holds here
      apply searchLoop_returns within ends holds here nofun
      · exact positive
      · omega
  obtain ⟨ok, ctx', returns, _⟩ := wp_returns runs
  refine ⟨last + 2, ok, ctx', returns, ?_⟩
  have room := (keeps_search _ _ _ _).ok returns
  rw [← room]
  exact ctx'.ki.nlocs_le

/-- A search that runs into a full structure or goes on does not return. -/
theorem not_safe
    (positive : 0 < maxnlocs) {heap : Heap} (grants : heap.Grants)
    (bad : (paging loctype maxnlocs country userip keys reply).Overrun ∨
      (paging loctype maxnlocs country userip keys reply).Endless)
    (errno : Errno) :
    ¬ Safe country userip keys
      (begin loctype maxnlocs heap errno reply) := by
  rintro ⟨rounds, ok, ctx', returns, _⟩
  have never : wp (search rounds country userip keys)
      (fun _ _ => False) (fun _ => True)
      (begin loctype maxnlocs heap errno reply) := by
    apply wp_search positive rfl
    · exact fun _ refusing => refusing grants
    · intro ctx' holds here
      refine searchLoop_never positive grants ?_ holds here
      rcases bad with ⟨last, steady, fills⟩ | endless
      · exact Or.inr ⟨last, Nat.zero_le last, steady, fills⟩
      · exact Or.inl endless
  exact wp_ok never returns

/--
A search is safe with every allocator exactly if no page leaves it without
room while it goes on, and it comes to an end.
-/
theorem paged_search_safe
    (loctype : KcnLocType) (maxnlocs : Nat) (positive : 0 < maxnlocs)
    (country userip : Option (List UInt8)) (keys : List UInt8)
    (errno : Errno) (reply : Nat → List UInt8 → Reply) :
    (∀ heap, Safe country userip keys
      (begin loctype maxnlocs heap errno reply)) ↔
      ¬ (paging loctype maxnlocs country userip keys reply).Overrun ∧
        ¬ (paging loctype maxnlocs country userip keys
          reply).Endless := by
  constructor
  · intro safe
    have grants := Heap.grants_granting
    constructor
    · exact fun overrun =>
        not_safe positive grants (Or.inl overrun) errno (safe _)
    · exact fun endless =>
        not_safe positive grants (Or.inr endless) errno (safe _)
  · rintro ⟨within, ends⟩ heap
    exact safe_of_within positive within ends heap errno

/-- A response with results that have locators. -/
def answer (loctype : KcnLocType) (locs : List (List UInt8)) : Reply :=
  .response (some (.object [
    (ascii "responseStatus", .integer httpOk),
    (ascii "responseData", .object [(ascii "results", .array
      (locs.map fun loc => .object [(jlockey loctype, .string loc)]))])]))

/-- A service whose pages have eight results each. -/
def eights (_ : Nat) (_ : List UInt8) : Reply :=
  answer .uri (List.replicate 8 (ascii "b"))

/-- A search for sixteen results asks for two of its pages. -/
theorem steady_eights {k : Nat}
    (steady : (paging .uri 16 none none (ascii "a") eights).Steady k) :
    k < 2 := by
  by_contra more
  have room :=
    (steady.mono (Nat.le_of_not_lt more)).room
      (show 0 < (paging .uri 16 none none (ascii "a") eights).maxnlocs
        by decide)
  revert room
  decide

/-- A search succeeded with sixteen results of two requests. -/
def showsPages (result : Except Stop (Bool × GoogleCtx)) : Bool :=
  match result with
  | .ok (ok, ctx) =>
      ok && ctx.ki.nlocs == 16 && ctx.requests.length == 2
  | .error _ => false

/-- A search for sixteen results in two pages is safe, and finds them. -/
theorem paged_search_safe_sixteen :
    (∀ heap, Safe none none (ascii "a")
      (begin .uri 16 heap 0 eights)) ∧
      showsPages (search 3 none none (ascii "a")
        (begin .uri 16 Heap.granting 0 eights)) = true := by
  refine ⟨(paged_search_safe .uri 16 (by decide) none none (ascii "a") 0
    eights).mpr ⟨?_, ?_⟩, by decide +kernel⟩
  · rintro ⟨k, steady, full, _, below⟩
    have early := steady_eights steady
    rcases k with _ | _ | k
    · revert full
      decide
    · revert below
      decide
    · exact absurd early (by omega)
  · intro endless
    exact absurd (steady_eights (endless 2)) (Nat.lt_irrefl 2)

/--
A first page of sixteen results fills the structure, and the second request
finds no room.
-/
theorem sixteen_results :
    ¬ ∀ heap, Safe none none (ascii "a") (begin .uri 16 heap 0
      fun _ _ => answer .uri (List.replicate 16 (ascii "b"))) := by
  intro safe
  refine not_safe (by decide) Heap.grants_granting (Or.inl ?_) 0 (safe _)
  refine ⟨0, nofun, ?_, ?_, ?_⟩ <;> decide

end KcnGoogle

end Kcn
