import Kcn.BufRules

namespace Kcn

open Program Bytes

/-!
# The buffer as the code has it

The three positions of `kcn_buf` and its block are plain values here, and bytes
are read and written one by one.  Each operation does to them what the
operation of `KcnBuf`, whose type orders the positions, does.
-/

/-- A `kcn_buf` and the `kcn_buf_data` it points to, with any positions. -/
structure RawBuf where
  kbSize : Nat
  kbSp : Nat
  kbCp : Nat
  kbEp : Nat
  kbBuf : List UInt8
  deriving Repr, DecidableEq

/-- What a `read` or a `write` on a descriptor answers. -/
abbrev FdAnswer (α : Type) : Type :=
  Except IoError α

/-- The first answer that is not an interruption. -/
def settled {α : Type} : List (FdAnswer α) → Option (FdAnswer α)
  | [] => none
  | .error .eintr :: later => settled later
  | answer :: _ => some answer

/-- Other errors are answers. -/
theorem settled_error
    {α : Type} {error : IoError} (seen : error ≠ .eintr)
    {later : List (FdAnswer α)} :
    settled (.error error :: later) = some (.error error) := by
  unfold settled
  split
  · rename_i shape
    cases shape
  · rename_i shape
    cases shape
    exact absurd rfl seen
  · rename_i shape
    cases shape
    rfl

namespace RawBuf

/-- Programs on a buffer with any positions. -/
abbrev RawOp (α : Type) : Type :=
  Program Stop RawBuf α

/-- `assert` -/
def assertThat (holds : RawBuf → Bool) : RawOp Unit := do
  let kb ← gets id
  if holds kb then pure () else stop .assertion

/-- `kcn_buf_len` -/
def len (kb : RawBuf) : Nat :=
  kb.kbEp - kb.kbSp

/-- `kcn_buf_reset` -/
def reset (headingspace : Nat) : RawOp Unit :=
  modify fun kb => {
    kb with
    kbCp := headingspace
    kbSp := headingspace
    kbEp := headingspace
  }

/-- `kcn_buf_trailingspace` -/
def trailingspace : RawOp Nat := do
  assertThat fun kb => kb.kbEp ≤ kb.kbSize
  gets fun kb => kb.kbSize - kb.kbEp

/-- `kcn_buf_headingdata` -/
def headingdata : RawOp Nat := do
  assertThat fun kb => kb.kbSp ≤ kb.kbCp
  gets fun kb => kb.kbCp - kb.kbSp

/-- `kcn_buf_trailingdata` -/
def trailingdata : RawOp Nat := do
  assertThat fun kb => kb.kbCp ≤ kb.kbEp
  gets fun kb => kb.kbEp - kb.kbCp

/-- `kcn_buf_forward` -/
def forward (count : Nat) : RawOp Unit := do
  let trailing ← trailingdata
  assertThat fun _ => count ≤ trailing
  modify fun kb => { kb with kbCp := kb.kbCp + count }

/-- `kcn_buf_backward` -/
def backward (count : Nat) : RawOp Unit := do
  let heading ← headingdata
  assertThat fun _ => count ≤ heading
  modify fun kb => { kb with kbCp := kb.kbCp - count }

/-- `kcn_buf_start`, and `kcn_buf_init` on a block. -/
def start : RawOp Unit :=
  modify fun kb => { kb with kbCp := kb.kbSp }

/-- `kcn_buf_end` -/
def ends : RawOp Unit :=
  modify fun kb => { kb with kbCp := kb.kbEp }

/-- `kcn_buf_trim_head` -/
def trimHead (count : Nat) : RawOp Unit := do
  assertThat fun kb => count ≤ kb.len
  modify fun kb => { kb with kbSp := kb.kbSp + count }
  let kb ← gets id
  if kb.kbCp < kb.kbSp then start else pure ()

/-- `memmove` inside the block. -/
def memmove (dst src count : Nat) : RawOp Unit := do
  let kb ← gets id
  if dst + count ≤ kb.kbBuf.length ∧ src + count ≤ kb.kbBuf.length then
    modify fun kb => {
      kb with
      kbBuf := overwrite kb.kbBuf dst (slice kb.kbBuf src count)
    }
  else
    stop .wild

/-- `kcn_buf_realign` -/
def realign : RawOp Unit := do
  let count ← gets len
  let src ← gets kbSp
  memmove 0 src count
  modify fun kb => { kb with kbCp := kb.kbCp - kb.kbSp }
  modify fun kb => { kb with kbSp := 0 }
  modify fun kb => { kb with kbEp := count }

/-- `kcn_buf_prepend` -/
def prepend (count : Nat) : RawOp Unit := do
  assertThat fun kb => count ≤ kb.kbSp
  modify fun kb => { kb with kbSp := kb.kbSp - count }
  modify fun kb => { kb with kbCp := kb.kbSp }

/-- `kcn_buf_append` -/
def append (count : Nat) : RawOp Unit := do
  let trailing ← trailingdata
  if count ≤ trailing then
    pure ()
  else
    modify fun kb => { kb with kbEp := kb.kbEp + (count - trailing) }
    assertThat fun kb => kb.kbEp ≤ kb.kbSize

/-- `kb->kb_buf[kb->kb_cp++]` as a value. -/
def next : RawOp UInt8 := do
  let kb ← gets id
  match kb.kbBuf[kb.kbCp]? with
  | some c =>
      modify fun kb => { kb with kbCp := kb.kbCp + 1 }
      pure c
  | none => stop .wild

/-- `kb->kb_buf[kb->kb_cp++] = c` -/
def poke (c : UInt8) : RawOp Unit := do
  let kb ← gets id
  if kb.kbCp < kb.kbBuf.length then
    modify fun kb => {
      kb with
      kbBuf := kb.kbBuf.set kb.kbCp c
      kbCp := kb.kbCp + 1
    }
  else
    stop .wild

/-- Assert that some bytes follow the cursor. -/
def assertTrailing (count : Nat) : RawOp Unit := do
  let trailing ← trailingdata
  assertThat fun _ => count ≤ trailing

/-- `kcn_buf_get8` -/
def get8 : RawOp UInt8 := do
  assertTrailing 1
  next

/-- `kcn_buf_get16` -/
def get16 : RawOp UInt16 := do
  assertTrailing 2
  let a ← next
  let b ← next
  pure (a.toUInt16 <<< 8 ||| b.toUInt16)

/-- `kcn_buf_get32` -/
def get32 : RawOp UInt32 := do
  assertTrailing 4
  let a ← next
  let b ← next
  let c ← next
  let d ← next
  pure (a.toUInt32 <<< 24 ||| b.toUInt32 <<< 16 ||| c.toUInt32 <<< 8 |||
    d.toUInt32)

/-- `kcn_buf_get64` -/
def get64 : RawOp UInt64 := do
  assertTrailing 8
  let a ← next
  let b ← next
  let c ← next
  let d ← next
  let e ← next
  let f ← next
  let g ← next
  let h ← next
  pure (a.toUInt64 <<< 56 ||| b.toUInt64 <<< 48 ||| c.toUInt64 <<< 40 |||
    d.toUInt64 <<< 32 ||| e.toUInt64 <<< 24 ||| f.toUInt64 <<< 16 |||
    g.toUInt64 <<< 8 ||| h.toUInt64)

/-- `kcn_buf_put8` -/
def put8 (v : UInt8) : RawOp Unit := do
  append 1
  poke v

/-- `kcn_buf_put16` -/
def put16 (v : UInt16) : RawOp Unit := do
  append 2
  poke ((v >>> 8) &&& 0xff).toUInt8
  poke (v &&& 0xff).toUInt8

/-- `kcn_buf_put32` -/
def put32 (v : UInt32) : RawOp Unit := do
  append 4
  poke ((v >>> 24) &&& 0xff).toUInt8
  poke ((v >>> 16) &&& 0xff).toUInt8
  poke ((v >>> 8) &&& 0xff).toUInt8
  poke (v &&& 0xff).toUInt8

/-- `kcn_buf_put64` -/
def put64 (v : UInt64) : RawOp Unit := do
  append 8
  poke ((v >>> 56) &&& 0xff).toUInt8
  poke ((v >>> 48) &&& 0xff).toUInt8
  poke ((v >>> 40) &&& 0xff).toUInt8
  poke ((v >>> 32) &&& 0xff).toUInt8
  poke ((v >>> 24) &&& 0xff).toUInt8
  poke ((v >>> 16) &&& 0xff).toUInt8
  poke ((v >>> 8) &&& 0xff).toUInt8
  poke (v &&& 0xff).toUInt8

/-- `memcpy` and `memset` at a position of the block. -/
def fillAt (position : Nat) (data : List UInt8) : RawOp Unit := do
  let kb ← gets id
  if position + data.length ≤ kb.kbBuf.length then
    modify fun kb => { kb with kbBuf := overwrite kb.kbBuf position data }
  else
    stop .wild

/-- `kcn_buf_put` -/
def put (data : List UInt8) : RawOp Unit := do
  append data.length
  let cp ← gets kbCp
  fillAt cp data
  forward data.length

/-- `kcn_buf_putnull` -/
def putnull (count : Nat) : RawOp Unit := do
  append count
  let cp ← gets kbCp
  fillAt cp (List.replicate count 0)
  forward count

/-- The loop of `kcn_buf_read`; what comes in is cut to what is asked for. -/
def readLoop : List (FdAnswer (List UInt8)) → RawOp Errno
  | [] => stop .starved
  | .error error :: later => do
      let _ ← trailingspace
      if error = .eintr then readLoop later else pure error.errno
  | .ok arriving :: _ => do
      let space ← trailingspace
      let ep ← gets kbEp
      let data := arriving.take space
      fillAt ep data
      if data = [] then
        pure Errno.eshutdown
      else
        let trailing ← trailingdata
        append (trailing + data.length)
        pure 0

/-- `kcn_buf_read`, with the answers of `read`. -/
def read (answers : List (FdAnswer (List UInt8))) : RawOp Errno := do
  if (← trailingspace) = 0 then
    realign
    let space ← trailingspace
    assertThat fun _ => 0 < space
    readLoop answers
  else
    readLoop answers

/-- The loop of `kcn_buf_write`; no more is written than there is. -/
def writeLoop : List (FdAnswer Nat) → RawOp Errno
  | [] => stop .starved
  | .error error :: later =>
      if error = .eintr then writeLoop later else pure error.errno
  | .ok accepted :: _ => do
      let count ← gets fun kb => min accepted kb.len
      if count = 0 then
        pure Errno.eshutdown
      else
        trimHead count
        pure 0

/-- `kcn_buf_write`, with the answers of `write`. -/
def write (answers : List (FdAnswer Nat)) : RawOp Errno :=
  writeLoop answers

end RawBuf

namespace KcnBuf

/-- The positions and the block of a buffer. -/
def raw (kb : KcnBuf) : RawBuf where
  kbSize := kb.size
  kbSp := kb.sp
  kbCp := kb.cp
  kbEp := kb.ep
  kbBuf := kb.bytes

/-- `kcn_buf_read` of a descriptor. -/
def readFd (answers : List (FdAnswer (List UInt8))) : BufOp Errno := do
  prepareRead
  let space ← gets trailingspace
  match settled answers with
  | none => stop .starved
  | some (.error error) => pure error.errno
  | some (.ok arriving) =>
      if arriving.take space = [] then
        pure Errno.eshutdown
      else
        fill (arriving.take space)
        pure 0

/-- `kcn_buf_write` to a descriptor. -/
def writeFd (answers : List (FdAnswer Nat)) : BufOp Errno := do
  match settled answers with
  | none => stop .starved
  | some (.error error) => pure error.errno
  | some (.ok accepted) =>
      let count ← gets fun kb => min accepted kb.len
      if count = 0 then
        pure Errno.eshutdown
      else
        trimHead count
        pure 0

end KcnBuf

/-! ### The positions -/

namespace RawBuf

open KcnBuf (raw)

variable {kb : RawBuf}

theorem assertThat_ok
    {holds : RawBuf → Bool} (true : holds kb = true) :
    assertThat holds kb = .ok ((), kb) := by
  rw [assertThat, bind_of_ok (show gets id kb = .ok (kb, kb) from rfl),
    if_pos true]
  rfl

theorem assertThat_error
    {holds : RawBuf → Bool} (fails : ¬ holds kb = true) :
    assertThat holds kb = .error .assertion := by
  rw [assertThat, bind_of_ok (show gets id kb = .ok (kb, kb) from rfl),
    if_neg fails]
  rfl

theorem mirrors_trailingdata :
    Mirrors raw trailingdata (gets KcnBuf.trailingdata) := by
  intro kb
  have ordered : kb.raw.kbCp ≤ kb.raw.kbEp := kb.cp_le_ep
  rw [trailingdata, bind_of_ok (assertThat_ok (decide_eq_true ordered))]
  rfl

theorem mirrors_headingdata :
    Mirrors raw headingdata (gets KcnBuf.headingdata) := by
  intro kb
  have ordered : kb.raw.kbSp ≤ kb.raw.kbCp := kb.sp_le_cp
  rw [headingdata, bind_of_ok (assertThat_ok (decide_eq_true ordered))]
  rfl

theorem mirrors_trailingspace :
    Mirrors raw trailingspace (gets KcnBuf.trailingspace) := by
  intro kb
  have ordered : kb.raw.kbEp ≤ kb.raw.kbSize := kb.ep_le_size
  rw [trailingspace, bind_of_ok (assertThat_ok (decide_eq_true ordered))]
  rfl

theorem mirrors_forward (count : Nat) :
    Mirrors raw (forward count) (KcnBuf.forward count) := by
  intro kb
  rw [forward, bind_of_ok (mirrors_trailingdata kb), KcnBuf.forward]
  by_cases fits : count ≤ kb.trailingdata
  · rw [bind_of_ok (assertThat_ok (decide_eq_true fits)), dif_pos fits]
    rfl
  · rw [bind_of_error (assertThat_error fun passes =>
        fits (of_decide_eq_true passes)),
      dif_neg fits]

theorem mirrors_backward (count : Nat) :
    Mirrors raw (backward count) (KcnBuf.backward count) := by
  intro kb
  rw [backward, bind_of_ok (mirrors_headingdata kb), KcnBuf.backward]
  by_cases fits : count ≤ kb.headingdata
  · rw [bind_of_ok (assertThat_ok (decide_eq_true fits)), dif_pos fits]
    rfl
  · rw [bind_of_error (assertThat_error fun passes =>
        fits (of_decide_eq_true passes)),
      dif_neg fits]

theorem mirrors_start : Mirrors raw start KcnBuf.start :=
  Mirrors.modify fun _ => rfl

theorem mirrors_ends : Mirrors raw ends KcnBuf.ends :=
  Mirrors.modify fun _ => rfl

theorem mirrors_trimHead (count : Nat) :
    Mirrors raw (trimHead count) (KcnBuf.trimHead count) := by
  intro kb
  rw [trimHead, KcnBuf.trimHead]
  by_cases fits : count ≤ kb.len
  · have fits' : count ≤ kb.raw.len := fits
    rw [bind_of_ok (assertThat_ok (decide_eq_true fits')), dif_pos fits]
    simp only [Bind.bind, Program.modify, gets, id]
    change _ = Except.ok ((), RawBuf.mk kb.size (kb.sp + count)
      (max kb.cp (kb.sp + count)) kb.ep kb.bytes)
    by_cases passed : kb.cp < kb.sp + count
    · have latest : max kb.cp (kb.sp + count) = kb.sp + count := by omega
      rw [if_pos (show kb.raw.kbCp < kb.raw.kbSp + count from passed),
        latest]
      rfl
    · have latest : max kb.cp (kb.sp + count) = kb.cp := by omega
      rw [if_neg (show ¬ kb.raw.kbCp < kb.raw.kbSp + count from passed),
        latest]
      rfl
  · have fits' : ¬ count ≤ kb.raw.len := fits
    rw [bind_of_error (assertThat_error fun passes =>
        fits' (of_decide_eq_true passes)),
      dif_neg fits]

theorem mirrors_prepend (count : Nat) :
    Mirrors raw (prepend count) (KcnBuf.prepend count) := by
  intro kb
  rw [prepend, KcnBuf.prepend]
  by_cases fits : count ≤ kb.sp
  · have fits' : count ≤ kb.raw.kbSp := fits
    rw [bind_of_ok (assertThat_ok (decide_eq_true fits')), dif_pos fits]
    rfl
  · have fits' : ¬ count ≤ kb.raw.kbSp := fits
    rw [bind_of_error (assertThat_error fun passes =>
        fits' (of_decide_eq_true passes)),
      dif_neg fits]

theorem memmove_eq
    {dst src count : Nat} (into : dst + count ≤ kb.kbBuf.length)
    (from' : src + count ≤ kb.kbBuf.length) :
    memmove dst src count kb =
      .ok ((), {
        kb with
        kbBuf := overwrite kb.kbBuf dst (slice kb.kbBuf src count)
      }) := by
  rw [memmove, bind_of_ok (show gets id kb = .ok (kb, kb) from rfl),
    if_pos ⟨into, from'⟩]
  rfl

/-- The data that are moved lie in the block. -/
theorem mirrors_realign : Mirrors raw realign KcnBuf.realign := by
  intro kb
  have memory := kb.length_bytes
  have cursor := kb.cp_le_ep
  have ordered := kb.sp_le_cp
  have room := kb.ep_le_size
  have into : 0 + kb.raw.len ≤ kb.raw.kbBuf.length := by
    simp only [raw, len]
    omega
  have inside : kb.raw.kbSp + kb.raw.len ≤ kb.raw.kbBuf.length := by
    simp only [raw, len]
    omega
  rw [realign, bind_of_ok (show gets len kb.raw = _ from rfl),
    bind_of_ok (show gets kbSp kb.raw = _ from rfl),
    bind_of_ok (memmove_eq into inside)]
  rfl

theorem append_eq (kb : KcnBuf) (count : Nat) :
    append count kb.raw =
      if max kb.ep (kb.cp + count) ≤ kb.size then
        .ok ((), { kb.raw with kbEp := max kb.ep (kb.cp + count) })
      else
        .error .assertion := by
  have cursor := kb.cp_le_ep
  have room := kb.ep_le_size
  rw [append, bind_of_ok (mirrors_trailingdata kb)]
  by_cases enough : count ≤ kb.trailingdata
  · have last : max kb.ep (kb.cp + count) = kb.ep := by
      unfold KcnBuf.trailingdata at enough
      omega
    rw [if_pos enough, last, if_pos room]
    rfl
  · have last : max kb.ep (kb.cp + count) =
        kb.ep + (count - kb.trailingdata) := by
      unfold KcnBuf.trailingdata at enough ⊢
      omega
    rw [if_neg enough, last,
      bind_of_ok (show Program.modify _ kb.raw = .ok ((), _) from rfl)]
    by_cases fits : kb.ep + (count - kb.trailingdata) ≤ kb.size
    · rw [if_pos fits]
      exact assertThat_ok (decide_eq_true fits)
    · rw [if_neg fits]
      exact assertThat_error fun passes =>
        fits (of_decide_eq_true passes)

/-! ### The bytes -/

/-- Read consecutive bytes. -/
def nexts : Nat → RawOp (List UInt8)
  | 0 => pure []
  | count + 1 => do
      let c ← next
      let later ← nexts count
      pure (c :: later)

/-- Write consecutive bytes. -/
def pokes : List UInt8 → RawOp Unit
  | [] => pure ()
  | c :: later => do
      poke c
      pokes later

theorem nexts_eq
    {kb : RawBuf} {count : Nat}
    (inside : kb.kbCp + count ≤ kb.kbBuf.length) :
    nexts count kb =
      .ok (slice kb.kbBuf kb.kbCp count,
        { kb with kbCp := kb.kbCp + count }) := by
  induction count generalizing kb with
  | zero =>
      simp [nexts, Pure.pure]
  | succ count inductionHypothesis =>
      have here : kb.kbCp < kb.kbBuf.length := by omega
      have read : kb.kbBuf[kb.kbCp]? = some kb.kbBuf[kb.kbCp] :=
        List.getElem?_eq_getElem here
      have first : next kb =
          .ok (kb.kbBuf[kb.kbCp], { kb with kbCp := kb.kbCp + 1 }) := by
        rw [next, bind_of_ok (show gets id kb = .ok (kb, kb) from rfl),
          read]
        rfl
      have rest := @inductionHypothesis
        { kb with kbCp := kb.kbCp + 1 } (by simp only; omega)
      have whole : slice kb.kbBuf kb.kbCp (count + 1) =
          kb.kbBuf[kb.kbCp] :: slice kb.kbBuf (kb.kbCp + 1) count := by
        rw [slice, slice, List.drop_eq_getElem_cons here,
          List.take_succ_cons]
      rw [nexts, bind_of_ok first, bind_of_ok rest, whole]
      simp only [Pure.pure, Nat.add_assoc, Nat.add_comm 1]

theorem overwrite_singleton
    {items : List UInt8} {i : Nat} (inside : i < items.length)
    (c : UInt8) : overwrite items i [c] = items.set i c := by
  rw [overwrite, List.set_eq_take_append_cons_drop, if_pos inside]
  simp

theorem pokes_eq
    {kb : RawBuf} {data : List UInt8}
    (inside : kb.kbCp + data.length ≤ kb.kbBuf.length) :
    pokes data kb =
      .ok ((), {
        kb with
        kbBuf := overwrite kb.kbBuf kb.kbCp data
        kbCp := kb.kbCp + data.length
      }) := by
  induction data generalizing kb with
  | nil =>
      simp [pokes, Pure.pure]
  | cons c later inductionHypothesis =>
      rw [List.length_cons] at inside
      have here : kb.kbCp < kb.kbBuf.length := by omega
      have first : poke c kb =
          .ok ((), {
            kb with
            kbBuf := kb.kbBuf.set kb.kbCp c
            kbCp := kb.kbCp + 1
          }) := by
        rw [poke, bind_of_ok (show gets id kb = .ok (kb, kb) from rfl),
          if_pos here]
        rfl
      have rest := @inductionHypothesis
        { kb with kbBuf := kb.kbBuf.set kb.kbCp c, kbCp := kb.kbCp + 1 }
        (by simp only [List.length_set]; omega)
      have whole : overwrite kb.kbBuf kb.kbCp (c :: later) =
          overwrite (kb.kbBuf.set kb.kbCp c) (kb.kbCp + 1) later := by
        have parts := overwrite_append kb.kbBuf kb.kbCp [c] later
          (by omega)
        rw [overwrite_singleton here] at parts
        exact parts.symm
      rw [pokes, bind_of_ok first, rest, whole]
      simp only [List.length_cons, Nat.add_assoc, Nat.add_comm 1]

/-- The get operations assert that the bytes are there and read them. -/
theorem mirrors_fetch (count : Nat) :
    Mirrors raw (assertTrailing count >>= fun _ => nexts count)
      (KcnBuf.fetch count) := by
  intro kb
  have memory := kb.length_bytes
  have cursor := kb.cp_le_ep
  have room := kb.ep_le_size
  rw [assertTrailing, bind_bind, bind_of_ok (mirrors_trailingdata kb)]
  by_cases fits : count ≤ kb.trailingdata
  · have inside : kb.raw.kbCp + count ≤ kb.raw.kbBuf.length := by
      unfold KcnBuf.trailingdata at fits
      simp only [raw]
      omega
    rw [bind_of_ok (assertThat_ok (decide_eq_true fits)),
      nexts_eq inside, KcnBuf.fetch]
    simp only [Bind.bind, gets, KcnBuf.forward, fits, ↓reduceDIte]
    rfl
  · rw [bind_of_error (assertThat_error fun passes =>
        fits (of_decide_eq_true passes)),
      KcnBuf.fetch]
    simp only [Bind.bind, gets, KcnBuf.forward, fits, ↓reduceDIte]

/-- The put operations make room and write. -/
theorem mirrors_store (data : List UInt8) :
    Mirrors raw (append data.length >>= fun _ => pokes data)
      (KcnBuf.store data) := by
  intro kb
  have memory := kb.length_bytes
  rw [KcnBuf.store]
  by_cases fits : max kb.ep (kb.cp + data.length) ≤ kb.size
  · have made := append_eq kb data.length
    rw [if_pos fits] at made
    rw [bind_of_ok made, pokes_eq (by simp only [raw]; omega)]
    simp [fits, raw]
  · have refused := append_eq kb data.length
    rw [if_neg fits] at refused
    simp [Bind.bind, refused, fits]

/-! ### The operations on bytes -/

theorem returned_bind
    {α β : Type} (value : α) (next : α → RawOp β) :
    (pure value >>= next) = next value :=
  rfl

theorem mirrors_get8 : Mirrors raw get8 KcnBuf.get8 := by
  have bytes : get8 =
      (assertTrailing 1 >>= fun _ => nexts 1) >>= fun bytes =>
        pure (KcnBuf.octet bytes 0) := by
    simp only [get8, nexts, bind_bind, returned_bind]
    exact congrArg (assertTrailing 1 >>= fun _ => ·) (bind_pure next).symm
  rw [bytes]
  exact (mirrors_fetch 1).bind fun _ => .pure _

theorem mirrors_get16 : Mirrors raw get16 KcnBuf.get16 := by
  have bytes : get16 =
      (assertTrailing 2 >>= fun _ => nexts 2) >>= fun bytes =>
        pure (KcnBuf.word16 bytes) := by
    simp only [get16, nexts, bind_bind, returned_bind]
    rfl
  rw [bytes]
  exact (mirrors_fetch 2).bind fun _ => .pure _

theorem mirrors_get32 : Mirrors raw get32 KcnBuf.get32 := by
  have bytes : get32 =
      (assertTrailing 4 >>= fun _ => nexts 4) >>= fun bytes =>
        pure (KcnBuf.word32 bytes) := by
    simp only [get32, nexts, bind_bind, returned_bind]
    rfl
  rw [bytes]
  exact (mirrors_fetch 4).bind fun _ => .pure _

theorem mirrors_get64 : Mirrors raw get64 KcnBuf.get64 := by
  have bytes : get64 =
      (assertTrailing 8 >>= fun _ => nexts 8) >>= fun bytes =>
        pure (KcnBuf.word64 bytes) := by
    simp only [get64, nexts, bind_bind, returned_bind]
    rfl
  rw [bytes]
  exact (mirrors_fetch 8).bind fun _ => .pure _

theorem mirrors_put8 (v : UInt8) : Mirrors raw (put8 v) (KcnBuf.put8 v) := by
  have bytes : put8 v = append 1 >>= fun _ => pokes [v] := by
    simp only [put8, pokes, bind_unit]
  rw [bytes]
  exact mirrors_store [v]

theorem mirrors_put16 (v : UInt16) :
    Mirrors raw (put16 v) (KcnBuf.put16 v) := by
  have bytes : put16 v =
      append 2 >>= fun _ => pokes (KcnBuf.bytes16 v) := by
    simp only [put16, KcnBuf.bytes16, pokes, bind_unit]
  rw [bytes]
  exact mirrors_store (KcnBuf.bytes16 v)

theorem mirrors_put32 (v : UInt32) :
    Mirrors raw (put32 v) (KcnBuf.put32 v) := by
  have bytes : put32 v =
      append 4 >>= fun _ => pokes (KcnBuf.bytes32 v) := by
    simp only [put32, KcnBuf.bytes32, pokes, bind_unit]
  rw [bytes]
  exact mirrors_store (KcnBuf.bytes32 v)

theorem mirrors_put64 (v : UInt64) :
    Mirrors raw (put64 v) (KcnBuf.put64 v) := by
  have bytes : put64 v =
      append 8 >>= fun _ => pokes (KcnBuf.bytes64 v) := by
    simp only [put64, KcnBuf.bytes64, pokes, bind_unit]
  rw [bytes]
  exact mirrors_store (KcnBuf.bytes64 v)

theorem fillAt_eq
    {position : Nat} {data : List UInt8}
    (inside : position + data.length ≤ kb.kbBuf.length) :
    fillAt position data kb =
      .ok ((), {
        kb with kbBuf := overwrite kb.kbBuf position data
      }) := by
  rw [fillAt, bind_of_ok (show gets id kb = .ok (kb, kb) from rfl),
    if_pos inside]
  rfl

theorem forward_eq
    {count : Nat} (inside : kb.kbCp + count ≤ kb.kbEp) :
    forward count kb =
      .ok ((), { kb with kbCp := kb.kbCp + count }) := by
  have ordered : kb.kbCp ≤ kb.kbEp := by omega
  have fits : count ≤ kb.kbEp - kb.kbCp := by omega
  have trailing : trailingdata kb = .ok (kb.kbEp - kb.kbCp, kb) := by
    rw [trailingdata, bind_of_ok (assertThat_ok (decide_eq_true ordered))]
    rfl
  rw [forward, bind_of_ok trailing,
    bind_of_ok (assertThat_ok (decide_eq_true fits))]
  rfl

/-- The bytes may also be written at once and the cursor moved over them. -/
theorem mirrors_put (data : List UInt8) :
    Mirrors raw (put data) (KcnBuf.put data) := by
  intro kb
  have memory := kb.length_bytes
  rw [put, KcnBuf.put, KcnBuf.store]
  by_cases fits : max kb.ep (kb.cp + data.length) ≤ kb.size
  · have made := append_eq kb data.length
    rw [if_pos fits] at made
    have inside : kb.cp + data.length ≤ kb.bytes.length := by omega
    have cursor : kb.cp + data.length ≤
        max kb.ep (kb.cp + data.length) :=
      Nat.le_max_right _ _
    rw [bind_of_ok made,
      bind_of_ok (show gets kbCp _ = .ok (kb.cp, _) from rfl),
      bind_of_ok (fillAt_eq inside), forward_eq cursor, dif_pos fits]
    rfl
  · have refused := append_eq kb data.length
    rw [if_neg fits] at refused
    rw [bind_of_error refused, dif_neg fits]

theorem mirrors_putnull (count : Nat) :
    Mirrors raw (putnull count) (KcnBuf.putnull count) := by
  have same : putnull count = put (List.replicate count 0) := by
    simp only [putnull, put, List.length_replicate]
  rw [same]
  exact mirrors_put (List.replicate count 0)

/-! ### Descriptors -/

/-- Room is made for a read. -/
theorem mirrors_prepare
    {loop : RawOp Errno} {loop' : KcnBuf.BufOp Errno}
    (same : Mirrors raw loop loop') :
    Mirrors raw
      (do
        if (← trailingspace) = 0 then
          realign
          let space ← trailingspace
          assertThat fun _ => 0 < space
          loop
        else
          loop)
      (do
        KcnBuf.prepareRead
        loop') := by
  have asserts (space : Nat) :
      Mirrors raw (assertThat fun _ => decide (0 < space))
        (if space = 0 then stop .assertion else pure ()) := by
    intro kb
    by_cases none : space = 0
    · rw [if_pos none, assertThat_error (by simp [none])]
      rfl
    · rw [if_neg none,
        assertThat_ok (decide_eq_true (Nat.pos_of_ne_zero none))]
      rfl
  unfold KcnBuf.prepareRead
  rw [bind_bind]
  refine mirrors_trailingspace.bind fun space => ?_
  split
  · simp only [bind_bind]
    refine mirrors_realign.bind fun _ => ?_
    refine mirrors_trailingspace.bind fun space => ?_
    exact (asserts space).bind fun _ => same
  · exact same

theorem mirrors_readLoop (answers : List (FdAnswer (List UInt8))) :
    Mirrors raw (readLoop answers)
      (do
        let space ← gets KcnBuf.trailingspace
        match settled answers with
        | none => stop .starved
        | some (.error error) => pure error.errno
        | some (.ok arriving) =>
            if arriving.take space = [] then
              pure Errno.eshutdown
            else
              KcnBuf.fill (arriving.take space)
              pure 0) := by
  induction answers with
  | nil =>
      exact fun _ => rfl
  | cons answer later inductionHypothesis =>
      intro kb
      cases answer with
      | error error =>
          rw [readLoop, bind_of_ok (mirrors_trailingspace kb)]
          by_cases interrupted : error = .eintr
          · subst interrupted
            rw [if_pos rfl]
            exact inductionHypothesis kb
          · rw [if_neg interrupted, settled_error interrupted]
            rfl
      | ok arriving =>
          have memory := kb.length_bytes
          have room := kb.ep_le_size
          have cursor := kb.cp_le_ep
          have atMost : (arriving.take kb.trailingspace).length ≤
              kb.trailingspace := by
            rw [List.length_take]
            omega
          have answer : settled (.ok arriving :: later) =
              some (.ok arriving : FdAnswer (List UInt8)) :=
            rfl
          rw [readLoop, answer, bind_of_ok (mirrors_trailingspace kb),
            bind_of_ok (show gets kbEp kb.raw = .ok (kb.ep, kb.raw)
              from rfl)]
          simp only
          rw [bind_of_ok (show gets KcnBuf.trailingspace kb =
            .ok (kb.trailingspace, kb) from rfl)]
          generalize arriving.take kb.trailingspace = data at atMost
          unfold KcnBuf.trailingspace at atMost
          have inside : kb.ep + data.length ≤ kb.bytes.length := by omega
          by_cases none : data = []
          · subst none
            rw [bind_of_ok (fillAt_eq inside), if_pos rfl, if_pos rfl]
            simp only [overwrite_nil]
            rfl
          · let filled : KcnBuf := {
              kb with
              bytes := overwrite kb.bytes kb.ep data
              length_bytes := by
                rw [length_overwrite _ _ _ (by omega)]
                omega
            }
            have last : max filled.ep (filled.cp +
                (filled.trailingdata + data.length)) =
                  kb.ep + data.length := by
              simp only [filled, KcnBuf.trailingdata]
              omega
            have fits : kb.ep + data.length ≤ kb.size := by omega
            have made := append_eq filled
              (filled.trailingdata + data.length)
            rw [last, if_pos fits] at made
            have stored :
                fillAt kb.ep data kb.raw = .ok ((), filled.raw) :=
              fillAt_eq inside
            rw [bind_of_ok stored, if_neg none, if_neg none,
              bind_of_ok (mirrors_trailingdata filled),
              bind_of_ok made]
            simp only [Bind.bind, KcnBuf.fill, fits, ↓reduceDIte]
            rfl

theorem mirrors_read (answers : List (FdAnswer (List UInt8))) :
    Mirrors raw (read answers) (KcnBuf.readFd answers) :=
  mirrors_prepare (mirrors_readLoop answers)

theorem mirrors_write (answers : List (FdAnswer Nat)) :
    Mirrors raw (write answers) (KcnBuf.writeFd answers) := by
  unfold write KcnBuf.writeFd
  induction answers with
  | nil =>
      exact fun _ => rfl
  | cons answer later inductionHypothesis =>
      cases answer with
      | error error =>
          rw [writeLoop]
          by_cases interrupted : error = .eintr
          · subst interrupted
            rw [if_pos rfl]
            exact inductionHypothesis
          · rw [if_neg interrupted, settled_error interrupted]
            exact .pure _
      | ok accepted =>
          rw [writeLoop]
          refine Mirrors.bind (.gets fun _ => rfl) fun count => ?_
          split
          · exact .pure _
          · exact (mirrors_trimHead count).bind fun _ => .pure _

end RawBuf

end Kcn
