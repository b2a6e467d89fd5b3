import Kcn.Net

namespace Kcn

open Program

/-!
# The HTTP client

`kcn_http.c` and `kcn_httpbuf.c`.  What libcurl does with a request is given:
the parts of the body that it hands to the callback, and the code with which it
ends unless the callback refuses a part.
-/

/-- `ETIMEDOUT` -/
def Errno.etimedout : Errno := 110

/-- The codes of libcurl that the code tells apart. -/
inductive CurlCode where
  | ok
  | outOfMemory
  | operationTimeouted
  | other
  deriving DecidableEq

/-- A call of the write callback: `n` items of `size` bytes, which is not zero. -/
structure Chunk where
  bytes : List UInt8
  size : Nat
  n : Nat
  size_pos : 0 < size
  length_bytes : bytes.length = size * n
  length_lt : bytes.length < 2 ^ 64

/--
What the client sees.  `answers` are those of `malloc`, `realloc` and
`curl_easy_init`; `live` counts the blocks that are not freed, and `handles` the
handles of libcurl that are in use.
-/
structure HttpIo where
  errno : Errno
  answers : List Bool
  live : Nat
  handles : Nat

/-- `struct kcn_httpbuf` -/
structure KcnHttpbuf where
  khbPtr : Option (List UInt8)
  khbSize : Nat
  size_eq : khbSize = (khbPtr.getD []).length
  size_lt : khbSize < 2 ^ 64

namespace HttpIo

/-- Programs of the HTTP client. -/
abbrev HttpOp (α : Type) : Type :=
  Program Stop HttpIo α

/-- Take the next answer. -/
def next : HttpOp Bool :=
  fun io =>
    match io.answers with
    | [] => .error .starved
    | answer :: rest => .ok (answer, { io with answers := rest })

/-- Assign `errno`. -/
def setErrno (errno : Errno) : HttpOp Unit :=
  modify fun io => { io with errno := errno }

/-- Whether there is memory for a new block. -/
def malloc : HttpOp Bool := do
  if ← next then
    modify fun io => { io with live := io.live + 1 }
    pure true
  else
    setErrno IoError.enomem.errno
    pure false

/-- Whether a block can be resized, or made where there is none. -/
def realloc (ptr : Option (List UInt8)) : HttpOp Bool :=
  match ptr with
  | none => malloc
  | some _ => do
      if ← next then
        pure true
      else
        setErrno IoError.enomem.errno
        pure false

/-- `free` -/
def free : HttpOp Unit :=
  modify fun io => { io with live := io.live - 1 }

/-- `curl_easy_init` -/
def curlInit : HttpOp Bool := do
  if ← next then
    modify fun io => { io with handles := io.handles + 1 }
    pure true
  else
    pure false

/-- `curl_easy_cleanup` -/
def curlCleanup : HttpOp Unit :=
  modify fun io => { io with handles := io.handles - 1 }

end HttpIo

namespace KcnHttpbuf

open HttpIo

/-- A structure without a block. -/
def empty : KcnHttpbuf where
  khbPtr := none
  khbSize := 0
  size_eq := rfl
  size_lt := Nat.two_pow_pos 64

/-- The bytes in the block. -/
def data (khb : KcnHttpbuf) : List UInt8 :=
  khb.khbPtr.getD []

/-- The structure with more bytes in its block. -/
def push
    (khb : KcnHttpbuf) (bytes : List UInt8)
    (room : khb.khbSize + bytes.length < 2 ^ 64) : KcnHttpbuf where
  khbPtr := some (khb.data ++ bytes)
  khbSize := khb.khbSize + bytes.length
  size_eq := by
    rw [Option.getD_some, List.length_append, khb.size_eq, data]
  size_lt := room

/-- `kcn_httpbuf_new` -/
def new : HttpOp (Option KcnHttpbuf) := do
  if ← malloc then
    pure (some empty)
  else
    pure none

/-- `kcn_httpbuf_destroy` -/
def destroy (khb : Option KcnHttpbuf) : HttpOp Unit := do
  match khb with
  | none => pure ()
  | some khb =>
      if khb.khbPtr = none then
        free
      else
        free
        free

/-- `kcn_httpbuf_get`, with the structure afterwards. -/
def get (khb : KcnHttpbuf) : Option (List UInt8) × KcnHttpbuf :=
  (khb.khbPtr, empty)

/--
`kcn_httpbuf_append` of the `size` bytes at `p`.  The sum of the sizes wraps
around; resizing a block to nothing frees it, which the code does not expect.
-/
def append (khb : KcnHttpbuf) (p : List UInt8) (size : Nat) :
    HttpOp (Bool × KcnHttpbuf) := do
  let total := (khb.khbSize + size) % 2 ^ 64
  if khb.khbSize > total then
    pure (false, khb)
  else if khb.khbPtr ≠ none ∧ total = 0 then
    stop .wild
  else if ← realloc khb.khbPtr then
    let bytes := p.take size
    if room : khb.khbSize + bytes.length < 2 ^ 64 then
      if bytes.length = size ∧ khb.khbSize + size ≤ total then
        pure (true, khb.push bytes room)
      else
        stop .wild
    else
      stop .wild
  else
    pure (false, khb)

end KcnHttpbuf

namespace KcnHttp

open HttpIo KcnHttpbuf

/-- `kcn_http_curl_code2errno` -/
def curlCode2errno : CurlCode → Errno
  | .outOfMemory => IoError.enomem.errno
  | .operationTimeouted => Errno.etimedout
  | .ok | .other => Errno.enetdown

/-- `kcn_http_curl_callback` -/
def curlCallback (chunk : Chunk) (khb : KcnHttpbuf) :
    HttpOp (Nat × KcnHttpbuf) := do
  let totalsize := chunk.size * chunk.n % 2 ^ 64
  if totalsize < chunk.size then
    pure (0, khb)
  else
    let (ok, khb) ← khb.append chunk.bytes totalsize
    if ok then
      pure (totalsize, khb)
    else
      pure (0, khb)

/--
What `curl_easy_perform` does with the callback: it stops where a part is not
taken as a whole.
-/
def curlPerform : List Chunk → KcnHttpbuf → HttpOp (Bool × KcnHttpbuf)
  | [], khb => pure (true, khb)
  | chunk :: later, khb => do
      let (taken, khb) ← curlCallback chunk khb
      if taken = chunk.bytes.length then
        curlPerform later khb
      else
        pure (false, khb)

/-- The exit of `kcn_http_response_get`. -/
def finish (khb : KcnHttpbuf) (p : Option (List UInt8)) :
    HttpOp (Option (List UInt8)) := do
  destroy (some khb)
  pure p

/-- What `kcn_http_response_get` does with the code of the transfer. -/
def conclude (cc : CurlCode) (khb : KcnHttpbuf) :
    HttpOp (Option (List UInt8)) := do
  if cc = .ok then
    let (ok, khb) ← khb.append [0] 1
    if ok then
      let (p, khb) := khb.get
      finish khb p
    else
      finish khb none
  else
    setErrno (curlCode2errno cc)
    finish khb none

/-- `kcn_http_response_get` -/
def responseGet (chunks : List Chunk) (code : CurlCode) :
    HttpOp (Option (List UInt8)) := do
  match ← new with
  | none => do
      destroy none
      pure none
  | some khb => do
      if ← curlInit then
        let (whole, khb) ← curlPerform chunks khb
        curlCleanup
        conclude (if whole then code else .other) khb
      else
        finish khb none

end KcnHttp

/-! ### What is received -/

namespace HttpIo

variable {io : HttpIo} {halt : Stop → Prop}

theorem wp_next
    {post : Bool → HttpIo → Prop}
    (starved : halt .starved)
    (answered : ∀ ok rest, io.answers = ok :: rest →
      post ok { io with answers := rest }) :
    wp next post halt io := by
  unfold wp next
  cases shape : io.answers with
  | nil =>
      exact starved
  | cons ok rest =>
      exact answered ok rest shape

theorem wp_malloc
    {post : Bool → HttpIo → Prop}
    (starved : halt .starved)
    (granted : ∀ rest, io.answers = true :: rest →
      post true { io with answers := rest, live := io.live + 1 })
    (refused : ∀ rest errno, io.answers = false :: rest →
      post false { io with answers := rest, errno := errno }) :
    wp malloc post halt io := by
  unfold malloc
  rw [wp_bind]
  apply wp_next starved
  intro ok rest answered
  cases ok with
  | true =>
      exact granted rest answered
  | false =>
      exact refused rest _ answered

/-- A block that is resized stays one block. -/
theorem wp_realloc
    {post : Bool → HttpIo → Prop} {ptr : Option (List UInt8)}
    (starved : halt .starved)
    (granted : ∀ rest, io.answers = true :: rest →
      post true {
        io with
        answers := rest
        live := io.live + if ptr = none then 1 else 0
      })
    (refused : ∀ rest errno, io.answers = false :: rest →
      post false { io with answers := rest, errno := errno }) :
    wp (realloc ptr) post halt io := by
  cases ptr with
  | none =>
      exact wp_malloc starved granted refused
  | some block =>
      unfold realloc
      rw [wp_bind]
      apply wp_next starved
      intro ok rest answered
      cases ok with
      | true =>
          exact granted rest answered
      | false =>
          exact refused rest _ answered

end HttpIo

namespace KcnHttpbuf

open HttpIo

variable {io io' : HttpIo} {halt : Stop → Prop} {khb khb' : KcnHttpbuf}

/-- How many blocks the bytes of the structure take. -/
def blocks (khb : KcnHttpbuf) : Nat :=
  if khb.khbPtr = none then 0 else 1

/-- Bytes were appended, with an answer for each of some parts. -/
structure Taken
    (khb : KcnHttpbuf) (io : HttpIo) (bytes : List UInt8) (count : Nat)
    (khb' : KcnHttpbuf) (io' : HttpIo) : Prop where
  data_eq : khb'.data = khb.data ++ bytes
  answers_eq : io.answers = List.replicate count true ++ io'.answers
  live_eq : io'.live + khb.blocks = io.live + khb'.blocks
  handles_eq : io'.handles = io.handles

/-- There is no memory for the bytes, in as many parts. -/
structure Refused
    (khb : KcnHttpbuf) (io : HttpIo) (bytes : List UInt8) (count : Nat)
    (khb' : KcnHttpbuf) (io' : HttpIo) : Prop where
  cause :
    ¬ (List.replicate count true <+: io.answers ∧
      khb.data.length + bytes.length < 2 ^ 64)
  live_eq : io'.live + khb.blocks = io.live + khb'.blocks
  handles_eq : io'.handles = io.handles

/-- Appending takes all or nothing. -/
theorem wp_append
    {post : Bool × KcnHttpbuf → HttpIo → Prop} {p : List UInt8}
    (some : p ≠ []) (short : p.length < 2 ^ 64)
    (starved : halt .starved)
    (taken : ∀ khb' io', Taken khb io p 1 khb' io' →
      post (true, khb') io')
    (refused : ∀ io', Refused khb io p 1 khb io' →
      post (false, khb) io') :
    wp (khb.append p p.length) post halt io := by
  have length : 0 < p.length := List.length_pos_iff.mpr some
  have size : khb.data.length = khb.khbSize := khb.size_eq.symm
  have small := khb.size_lt
  unfold append
  by_cases room : khb.khbSize + p.length < 2 ^ 64
  · have total :
        (khb.khbSize + p.length) % 2 ^ 64 = khb.khbSize + p.length :=
      Nat.mod_eq_of_lt room
    have larger : ¬ khb.khbSize > khb.khbSize + p.length := by omega
    have nonzero :
        ¬ (khb.khbPtr ≠ none ∧ khb.khbSize + p.length = 0) := by
      omega
    simp only [total, if_neg larger, if_neg nonzero, wp_bind,
      List.take_length]
    apply wp_realloc starved
    · intro rest answered
      simp only [↓reduceIte, dif_pos room, true_and, Nat.le_refl, wp_pure]
      apply taken
      refine ⟨rfl, answered, ?_, rfl⟩
      unfold blocks push
      split <;> rfl
    · intro rest errno answered
      simp only [Bool.false_eq_true, ↓reduceIte, wp_pure]
      apply refused
      refine ⟨?_, rfl, rfl⟩
      rintro ⟨granted, _⟩
      rw [answered] at granted
      cases (List.cons_prefix_cons.mp granted).1
  · have total :
        (khb.khbSize + p.length) % 2 ^ 64 < khb.khbSize := by
      omega
    simp only [if_pos total, gt_iff_lt, wp_pure]
    apply refused
    refine ⟨?_, rfl, rfl⟩
    rintro ⟨_, fits⟩
    rw [size] at fits
    exact room fits

theorem Taken.refl (khb : KcnHttpbuf) (io : HttpIo) :
    Taken khb io [] 0 khb io :=
  ⟨(List.append_nil _).symm, rfl, rfl, rfl⟩

theorem Taken.trans
    {khb'' : KcnHttpbuf} {io'' : HttpIo} {bytes bytes' : List UInt8}
    {count count' : Nat}
    (first : Taken khb io bytes count khb' io')
    (later : Taken khb' io' bytes' count' khb'' io'') :
    Taken khb io (bytes ++ bytes') (count + count') khb'' io'' where
  data_eq := by
    rw [later.data_eq, first.data_eq, List.append_assoc]
  answers_eq := by
    rw [first.answers_eq, later.answers_eq, List.replicate_add,
      List.append_assoc]
  live_eq := by
    have := first.live_eq
    have := later.live_eq
    omega
  handles_eq := later.handles_eq.trans first.handles_eq

/-- What is refused after some parts is refused. -/
theorem Refused.after
    {khb'' : KcnHttpbuf} {io'' : HttpIo} {bytes bytes' : List UInt8}
    {count count' : Nat}
    (first : Taken khb io bytes count khb' io')
    (later : Refused khb' io' bytes' count' khb'' io'') :
    Refused khb io (bytes ++ bytes') (count + count') khb'' io'' where
  cause := by
    rintro ⟨granted, fits⟩
    apply later.cause
    rw [first.answers_eq, List.replicate_add] at granted
    rw [List.length_append] at fits
    rw [first.data_eq, List.length_append]
    exact ⟨(List.prefix_append_right_inj _).mp granted, by omega⟩
  live_eq := by
    have := first.live_eq
    have := later.live_eq
    omega
  handles_eq := later.handles_eq.trans first.handles_eq

/-- Once something is refused, more cannot be taken. -/
theorem Refused.more
    {bytes : List UInt8} {count : Nat}
    (refused : Refused khb io bytes count khb' io')
    (more : List UInt8) (count' : Nat) :
    Refused khb io (bytes ++ more) (count + count') khb' io' where
  cause := by
    rintro ⟨granted, fits⟩
    apply refused.cause
    rw [List.replicate_add] at granted
    rw [List.length_append] at fits
    exact ⟨(List.prefix_append _ _).trans granted, by omega⟩
  live_eq := refused.live_eq
  handles_eq := refused.handles_eq

/-- The handle that was used is released. -/
theorem Taken.cleaned
    {bytes : List UInt8} {count : Nat}
    (taken :
      Taken khb { io with handles := io.handles + 1 } bytes count khb' io') :
    Taken khb io bytes count khb'
      { io' with handles := io'.handles - 1 } where
  data_eq := taken.data_eq
  answers_eq := taken.answers_eq
  live_eq := taken.live_eq
  handles_eq := by
    rw [taken.handles_eq, Nat.add_sub_cancel]

theorem Refused.cleaned
    {bytes : List UInt8} {count : Nat}
    (refused :
      Refused khb { io with handles := io.handles + 1 } bytes count khb'
        io') :
    Refused khb io bytes count khb'
      { io' with handles := io'.handles - 1 } where
  cause := refused.cause
  live_eq := refused.live_eq
  handles_eq := by
    rw [refused.handles_eq, Nat.add_sub_cancel]

end KcnHttpbuf

namespace KcnHttp

open HttpIo KcnHttpbuf

variable {io : HttpIo} {khb : KcnHttpbuf}

/-- The body of a response. -/
def body (chunks : List Chunk) : List UInt8 :=
  (chunks.map Chunk.bytes).flatten

/-- How many parts of it are not empty. -/
def parts (chunks : List Chunk) : Nat :=
  (chunks.filter fun chunk => chunk.bytes ≠ []).length

/-- The callback returns 0 for an empty part, which is its size. -/
theorem wp_curlCallback
    (chunk : Chunk) :
    wp (curlCallback chunk khb)
      (fun result io' =>
        if result.1 = chunk.bytes.length then
          Taken khb io chunk.bytes (parts [chunk]) result.2 io'
        else
          Refused khb io chunk.bytes (parts [chunk]) result.2 io')
      (· = .starved) io := by
  have totalsize :
      chunk.size * chunk.n % 2 ^ 64 = chunk.bytes.length := by
    rw [← chunk.length_bytes]
    exact Nat.mod_eq_of_lt chunk.length_lt
  unfold curlCallback
  rw [totalsize]
  by_cases none : chunk.bytes = []
  · have zero : chunk.bytes.length = 0 := by rw [none, List.length_nil]
    have less : chunk.bytes.length < chunk.size := by
      rw [zero]
      exact chunk.size_pos
    have noParts : parts [chunk] = 0 := by
      rw [parts, List.filter_singleton]
      simp [none]
    rw [if_pos less, wp_pure, if_pos zero.symm, none, noParts]
    exact Taken.refl khb io
  · have atLeast : chunk.size ≤ chunk.bytes.length := by
      have some : 0 < chunk.bytes.length := List.length_pos_iff.mpr none
      rw [chunk.length_bytes] at some ⊢
      exact Nat.le_mul_of_pos_right _ (Nat.pos_of_mul_pos_left some)
    have onePart : parts [chunk] = 1 := by
      rw [parts, List.filter_singleton]
      simp [none]
    rw [if_neg (Nat.not_lt.mpr atLeast), wp_bind, onePart]
    apply wp_append none chunk.length_lt
    · rfl
    · intro khb' io' taken
      simp only [↓reduceIte, wp_pure]
      exact taken
    · intro io' refused
      have nonzero : ¬ 0 = chunk.bytes.length := by
        intro zero
        exact none (List.eq_nil_of_length_eq_zero zero.symm)
      simp only [Bool.false_eq_true, ↓reduceIte, wp_pure, nonzero]
      exact refused

theorem body_cons (chunk : Chunk) (later : List Chunk) :
    body (chunk :: later) = chunk.bytes ++ body later :=
  rfl

theorem parts_cons (chunk : Chunk) (later : List Chunk) :
    parts (chunk :: later) = parts [chunk] + parts later := by
  unfold parts
  rw [← List.length_append, ← List.filter_append, List.singleton_append]

/-- The body is taken as a whole, or there is no memory for it. -/
theorem wp_curlPerform
    (chunks : List Chunk) :
    wp (curlPerform chunks khb)
      (fun result io' =>
        if result.1 then
          Taken khb io (body chunks) (parts chunks) result.2 io'
        else
          Refused khb io (body chunks) (parts chunks) result.2 io')
      (· = .starved) io := by
  induction chunks generalizing khb io with
  | nil =>
      exact Taken.refl khb io
  | cons chunk later ih =>
      rw [curlPerform, body_cons, parts_cons]
      apply wp_seq (wp_curlCallback chunk)
      rintro ⟨size, khb'⟩ io' received
      dsimp only at received ⊢
      split at received
      case isTrue first =>
        rw [if_pos first]
        apply wp_imp ih
        rintro ⟨whole, khb''⟩ io'' rest
        cases whole with
        | true =>
            exact Taken.trans received rest
        | false =>
            exact Refused.after received rest
      case isFalse first =>
        rw [if_neg first]
        exact Refused.more received _ _

/-- The exit frees the structure and its block. -/
theorem wp_finish
    {halt : Stop → Prop} {post : Option (List UInt8) → HttpIo → Prop}
    {p : Option (List UInt8)} :
    wp (finish khb p) post halt io ↔
      post p { io with live := io.live - (khb.blocks + 1) } := by
  unfold finish destroy free blocks
  by_cases without : khb.khbPtr = none
  · simp only [if_pos without, wp_bind, wp_modify, wp_pure]
  · simp only [if_neg without, wp_bind, wp_modify, wp_pure, Nat.sub_sub]

/-- When a request is answered. -/
def Answerable
    (chunks : List Chunk) (code : CurlCode) (io : HttpIo) : Prop :=
  code = .ok ∧ List.replicate (parts chunks + 3) true <+: io.answers ∧
    (body chunks).length + 1 < 2 ^ 64

/-- When the body is received as a whole. -/
def Received (chunks : List Chunk) (io : HttpIo) : Prop :=
  List.replicate (parts chunks + 2) true <+: io.answers ∧
    (body chunks).length < 2 ^ 64

/-- What a request returns and leaves behind. -/
structure Response
    (chunks : List Chunk) (code : CurlCode) (io : HttpIo)
    (p : Option (List UInt8)) (io' : HttpIo) : Prop where
  some_iff : p ≠ none ↔ Answerable chunks code io
  bytes_eq : ∀ bytes, p = some bytes → bytes = body chunks ++ [0]
  errno_eq :
    Received chunks io → code ≠ .ok → io'.errno = curlCode2errno code
  live_eq : io'.live = io.live + if p = none then 0 else 1
  handles_eq : io'.handles = io.handles

variable {chunks : List Chunk} {code : CurlCode} {io' : HttpIo}

theorem Response.unanswered
    (cause : ¬ Answerable chunks code io)
    (errno :
      Received chunks io → code ≠ .ok → io'.errno = curlCode2errno code)
    (live : io'.live = io.live)
    (handles : io'.handles = io.handles) :
    Response chunks code io none io' where
  some_iff := ⟨fun some => absurd rfl some, fun able => absurd able cause⟩
  bytes_eq := by
    intro bytes some
    cases some
  errno_eq := errno
  live_eq := live
  handles_eq := handles

/-- The state in which the body is received. -/
def started (io : HttpIo) (rest : List Bool) : HttpIo :=
  { io with answers := rest, live := io.live + 1 }

/-- A body and its terminator that are taken as a whole are the response. -/
theorem Response.of_taken
    {rest : List Bool} {khb' : KcnHttpbuf}
    (answered : io.answers = true :: true :: rest)
    (taken :
      Taken empty (started io rest) (body chunks ++ [0])
        (parts chunks + 1) khb' io') :
    Response chunks .ok io khb'.khbPtr
      { io' with live := io'.live - 1 } := by
  have data : khb'.data = body chunks ++ [0] := taken.data_eq
  have some : khb'.khbPtr ≠ none := by
    intro none
    rw [KcnHttpbuf.data, none] at data
    exact List.append_ne_nil_of_right_ne_nil _ (List.cons_ne_nil _ _)
      data.symm
  have granted :
      List.replicate (parts chunks + 3) true <+: io.answers := by
    rw [answered, show rest = _ from taken.answers_eq]
    exact List.prefix_append (List.replicate (parts chunks + 3) true) _
  have fits : (body chunks).length + 1 < 2 ^ 64 := by
    have small := khb'.size_lt
    rw [khb'.size_eq, ← KcnHttpbuf.data, data, List.length_append] at small
    exact small
  have live : io'.live = io.live + 1 + khb'.blocks := taken.live_eq
  rw [blocks, if_neg some] at live
  refine ⟨⟨fun _ => ⟨rfl, granted, fits⟩, fun _ => some⟩, ?_,
    fun _ failed => absurd rfl failed, ?_, taken.handles_eq⟩
  · intro bytes ptr
    rw [← data, KcnHttpbuf.data, ptr, Option.getD_some]
  · rw [if_neg some, live, Nat.add_sub_cancel]

/-- The answers that are left for the body. -/
theorem granted_body
    {rest : List Bool} {count : Nat}
    (answered : io.answers = true :: true :: rest)
    (granted : List.replicate (count + 2) true <+: io.answers) :
    List.replicate count true <+: rest := by
  rw [answered, List.replicate_succ, List.replicate_succ,
    List.cons_prefix_cons, List.cons_prefix_cons] at granted
  exact granted.2.2

/-- A body that is refused with its terminator is not answered. -/
theorem not_answerable_of_refused
    {rest : List Bool} {khb' : KcnHttpbuf}
    (answered : io.answers = true :: true :: rest)
    (refused :
      Refused empty (started io rest) (body chunks ++ [0])
        (parts chunks + 1) khb' io') :
    ¬ Answerable chunks code io := by
  rintro ⟨_, granted, fits⟩
  apply refused.cause
  refine ⟨granted_body answered granted, ?_⟩
  rw [List.length_append]
  exact Nat.lt_of_le_of_lt (Nat.le_of_eq (Nat.zero_add _)) fits

/-- A body that is refused is not received. -/
theorem not_received_of_refused
    {rest : List Bool} {khb' : KcnHttpbuf}
    (answered : io.answers = true :: true :: rest)
    (refused :
      Refused empty (started io rest) (body chunks) (parts chunks) khb'
        io') :
    ¬ Received chunks io := by
  rintro ⟨granted, fits⟩
  apply refused.cause
  exact ⟨granted_body answered granted,
    Nat.lt_of_le_of_lt (Nat.le_of_eq (Nat.zero_add _)) fits⟩

/-- A request needs the structure and a handle. -/
theorem not_granted
    {rest : List Bool} {count : Nat}
    (answered : io.answers = false :: rest ∨
      io.answers = true :: false :: rest) :
    ¬ List.replicate (count + 2) true <+: io.answers := by
  intro granted
  rw [List.replicate_succ, List.replicate_succ] at granted
  rcases answered with answered | answered
  · rw [answered] at granted
    cases (List.cons_prefix_cons.mp granted).1
  · rw [answered, List.cons_prefix_cons] at granted
    cases (List.cons_prefix_cons.mp granted.2).1

/-- Without the structure or a handle there is no response. -/
theorem Response.of_false
    {rest : List Bool}
    (answered : io.answers = false :: rest ∨
      io.answers = true :: false :: rest)
    (live : io'.live = io.live)
    (handles : io'.handles = io.handles) :
    Response chunks code io none io' :=
  Response.unanswered
    (fun able => not_granted answered able.2.1)
    (fun received => absurd received.1 (not_granted answered))
    live handles

/-- The blocks that are left where there is no response. -/
theorem live_of_unanswered
    {rest : List Bool}
    (live : io'.live + empty.blocks = (started io rest).live + khb.blocks) :
    io'.live - (khb.blocks + 1) = io.live := by
  have begun : (started io rest).live = io.live + 1 := rfl
  have none : empty.blocks = 0 := rfl
  omega

/-- A body that was taken is the response if libcurl succeeds. -/
theorem wp_conclude_whole
    {rest : List Bool}
    (answered : io.answers = true :: true :: rest)
    (taken :
      Taken empty (started io rest) (body chunks) (parts chunks) khb io') :
    wp (conclude code khb) (Response chunks code io) (· = .starved) io' := by
  unfold conclude
  by_cases done : code = .ok
  · rw [if_pos done, wp_bind, done]
    apply wp_append (List.cons_ne_nil _ _) (Nat.one_lt_two_pow (by decide))
    · rfl
    · intro khb' io'' last
      simp only [↓reduceIte, KcnHttpbuf.get, wp_finish]
      exact Response.of_taken answered (taken.trans last)
    · intro io'' refused
      simp only [Bool.false_eq_true, ↓reduceIte, wp_finish]
      have refused := refused.after taken
      exact Response.unanswered
        (not_answerable_of_refused answered refused)
        (fun _ failed => absurd rfl failed)
        (live_of_unanswered refused.live_eq) refused.handles_eq
  · rw [if_neg done, wp_bind, setErrno, wp_modify, wp_finish]
    exact Response.unanswered (fun able => done able.1) (fun _ _ => rfl)
      (live_of_unanswered taken.live_eq) taken.handles_eq

/-- A body that was refused is no response. -/
theorem wp_conclude_refused
    {rest : List Bool}
    (answered : io.answers = true :: true :: rest)
    (refused :
      Refused empty (started io rest) (body chunks) (parts chunks) khb
        io') :
    wp (conclude .other khb) (Response chunks code io) (· = .starved)
      io' := by
  have failed : CurlCode.other ≠ .ok := by decide
  unfold conclude
  rw [if_neg failed, wp_bind, setErrno, wp_modify, wp_finish]
  exact Response.unanswered
    (not_answerable_of_refused answered (refused.more [0] 1))
    (fun received =>
      absurd received (not_received_of_refused answered refused))
    (live_of_unanswered refused.live_eq) refused.handles_eq

/--
A response is the body as a whole and a terminator, or there is none: libcurl
failed, or memory ran out, or the body is as large as a size can be.  Only the
response stays allocated.
-/
theorem response_whole
    (chunks : List Chunk)
    (code : CurlCode)
    (io : HttpIo) :
    wp (responseGet chunks code) (Response chunks code io)
      (· = .starved) io := by
  rw [responseGet, wp_bind, new, wp_bind]
  apply wp_malloc
  · rfl
  · intro rest granted
    simp only [↓reduceIte, wp_pure, wp_bind, curlInit]
    apply wp_next
    · rfl
    intro ok rest' answered
    cases ok with
    | true =>
        have begun : io.answers = true :: true :: rest' := by
          rw [granted, show rest = _ from answered]
        simp only [↓reduceIte, wp_pure, wp_bind, wp_modify]
        apply wp_imp (wp_curlPerform chunks)
        rintro ⟨whole, khb⟩ io' transferred
        cases whole with
        | true =>
            exact wp_conclude_whole begun (Taken.cleaned transferred)
        | false =>
            exact wp_conclude_refused begun (Refused.cleaned transferred)
    | false =>
        simp only [Bool.false_eq_true, ↓reduceIte, wp_pure, wp_finish]
        have begun : io.answers = true :: false :: rest' := by
          rw [granted, show rest = _ from answered]
        exact Response.of_false (.inr begun) rfl rfl
  · intro rest errno refused
    simp only [Bool.false_eq_true, ↓reduceIte, wp_pure, wp_bind, destroy]
    exact Response.of_false (.inl refused) rfl rfl

end KcnHttp

end Kcn
