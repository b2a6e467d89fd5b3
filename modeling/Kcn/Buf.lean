import Kcn.Kernel
import Kcn.Library.Bytes

namespace Kcn

open Program Bytes

/-!
# Cursor buffers

`kcn_buf` keeps three positions in one block of memory: the start `sp` and the
end `ep` of the data and the cursor `cp` between them.  The order of the
positions and the size of the block are part of the type, so every operation
below has to establish them: where the code asserts them, the operation stops
with `Stop.assertion`, and where the code relies on its caller, it stops with
`Stop.wild`.
-/

/-- A `kcn_buf` together with the `kcn_buf_data` it points to. -/
structure KcnBuf where
  size : Nat
  sp : Nat
  cp : Nat
  ep : Nat
  bytes : List UInt8
  sp_le_cp : sp ≤ cp
  cp_le_ep : cp ≤ ep
  ep_le_size : ep ≤ size
  length_bytes : bytes.length = size

namespace KcnBuf

theorem sp_le_ep (kb : KcnBuf) : kb.sp ≤ kb.ep :=
  Nat.le_trans kb.sp_le_cp kb.cp_le_ep

/-- A new block with uninitialised `memory` and an empty buffer on it. -/
def new (memory : List UInt8) : KcnBuf where
  size := memory.length
  sp := 0
  cp := 0
  ep := 0
  bytes := memory
  sp_le_cp := Nat.le_refl 0
  cp_le_ep := Nat.le_refl 0
  ep_le_size := Nat.zero_le _
  length_bytes := rfl

/-- `kcn_buf_len` -/
def len (kb : KcnBuf) : Nat :=
  kb.ep - kb.sp

/-- `kcn_buf_trailingspace` -/
def trailingspace (kb : KcnBuf) : Nat :=
  kb.size - kb.ep

/-- `kcn_buf_headingdata` -/
def headingdata (kb : KcnBuf) : Nat :=
  kb.cp - kb.sp

/-- `kcn_buf_trailingdata` -/
def trailingdata (kb : KcnBuf) : Nat :=
  kb.ep - kb.cp

/-- Programs that work on one buffer. -/
abbrev BufOp (α : Type) : Type :=
  Program Stop KcnBuf α

/-- `kcn_buf_reset`; the code does not compare the argument with the size. -/
def reset (headingspace : Nat) : BufOp Unit :=
  fun kb =>
    if fits : headingspace ≤ kb.size then
      .ok ((), {
        kb with
        sp := headingspace
        cp := headingspace
        ep := headingspace
        sp_le_cp := Nat.le_refl _
        cp_le_ep := Nat.le_refl _
        ep_le_size := fits
      })
    else
      .error .wild

/-- `kcn_buf_forward` -/
def forward (count : Nat) : BufOp Unit :=
  fun kb =>
    if fits : count ≤ kb.trailingdata then
      .ok ((), {
        kb with
        cp := kb.cp + count
        sp_le_cp := Nat.le_add_right_of_le kb.sp_le_cp
        cp_le_ep := by
          have := kb.cp_le_ep
          unfold trailingdata at fits
          omega
      })
    else
      .error .assertion

/-- `kcn_buf_backward` -/
def backward (count : Nat) : BufOp Unit :=
  fun kb =>
    if fits : count ≤ kb.headingdata then
      .ok ((), {
        kb with
        cp := kb.cp - count
        sp_le_cp := by
          have := kb.sp_le_cp
          unfold headingdata at fits
          omega
        cp_le_ep := Nat.le_trans (Nat.sub_le _ _) kb.cp_le_ep
      })
    else
      .error .assertion

/-- `kcn_buf_start` -/
def start : BufOp Unit :=
  modify fun kb => {
    kb with
    cp := kb.sp
    sp_le_cp := Nat.le_refl _
    cp_le_ep := kb.sp_le_ep
  }

/-- `kcn_buf_end` -/
def ends : BufOp Unit :=
  modify fun kb => {
    kb with
    cp := kb.ep
    sp_le_cp := kb.sp_le_ep
    cp_le_ep := Nat.le_refl _
  }

/-- `kcn_buf_trim_head` -/
def trimHead (count : Nat) : BufOp Unit :=
  fun kb =>
    if fits : count ≤ kb.len then
      .ok ((), {
        kb with
        sp := kb.sp + count
        cp := max kb.cp (kb.sp + count)
        sp_le_cp := Nat.le_max_right _ _
        cp_le_ep := by
          have := kb.sp_le_cp
          have := kb.cp_le_ep
          unfold len at fits
          omega
      })
    else
      .error .assertion

/-- `kcn_buf_prepend`; all that lies before the start is heading space. -/
def prepend (count : Nat) : BufOp Unit :=
  fun kb =>
    if _ : count ≤ kb.sp then
      .ok ((), {
        kb with
        sp := kb.sp - count
        cp := kb.sp - count
        sp_le_cp := Nat.le_refl _
        cp_le_ep :=
          Nat.le_trans (Nat.sub_le _ _)
            (Nat.le_trans kb.sp_le_cp kb.cp_le_ep)
      })
    else
      .error .assertion

/-- `kcn_buf_realign` -/
def realign : BufOp Unit :=
  modify fun kb => {
    kb with
    sp := 0
    cp := kb.cp - kb.sp
    ep := kb.len
    bytes := overwrite kb.bytes 0 (slice kb.bytes kb.sp kb.len)
    sp_le_cp := Nat.zero_le _
    cp_le_ep := Nat.sub_le_sub_right kb.cp_le_ep _
    ep_le_size := Nat.le_trans (Nat.sub_le _ _) kb.ep_le_size
    length_bytes := by
      have := kb.ep_le_size
      have := kb.length_bytes
      rw [length_overwrite _ _ _ (Nat.zero_le _), length_slice]
      unfold len
      omega
  }

/--
Assert that `count` bytes follow the cursor, read them and move past them, as
the bodies of `kcn_buf_get8` to `kcn_buf_get64` do byte by byte.
-/
def fetch (count : Nat) : BufOp (List UInt8) := do
  let here ← gets fun kb => slice kb.bytes kb.cp count
  forward count
  pure here

/--
`kcn_buf_append` for `data` followed by storing `data` at the cursor and moving
past it: data behind the cursor is overwritten, and the end moves only by what
is missing.
-/
def store (data : List UInt8) : BufOp Unit :=
  fun kb =>
    if fits : max kb.ep (kb.cp + data.length) ≤ kb.size then
      .ok ((), {
        kb with
        cp := kb.cp + data.length
        ep := max kb.ep (kb.cp + data.length)
        bytes := overwrite kb.bytes kb.cp data
        sp_le_cp := Nat.le_add_right_of_le kb.sp_le_cp
        cp_le_ep := Nat.le_max_right _ _
        ep_le_size := fits
        length_bytes := by
          have := kb.cp_le_ep
          have := kb.ep_le_size
          have := kb.length_bytes
          rw [length_overwrite _ _ _ (by omega)]
          omega
      })
    else
      .error .assertion

/-- The part of `kcn_buf_read` after `read`: `data` is stored at the end. -/
def fill (data : List UInt8) : BufOp Unit :=
  fun kb =>
    if fits : kb.ep + data.length ≤ kb.size then
      .ok ((), {
        kb with
        ep := kb.ep + data.length
        bytes := overwrite kb.bytes kb.ep data
        cp_le_ep := Nat.le_add_right_of_le kb.cp_le_ep
        ep_le_size := fits
        length_bytes := by
          have := kb.ep_le_size
          have := kb.length_bytes
          rw [length_overwrite _ _ _ (by omega)]
          omega
      })
    else
      .error .assertion

/-- The head of `kcn_buf_read`: make room if there is none. -/
def prepareRead : BufOp Unit := do
  if (← gets trailingspace) = 0 then
    realign
    if (← gets trailingspace) = 0 then
      stop .assertion
    else
      pure ()
  else
    pure ()

/-- The byte at an index of a fetched string. -/
def octet (bytes : List UInt8) (index : Nat) : UInt8 :=
  bytes.getD index 0

/-- The value assembled by `kcn_buf_get16`. -/
def word16 (bytes : List UInt8) : UInt16 :=
  (octet bytes 0).toUInt16 <<< 8 ||| (octet bytes 1).toUInt16

/-- The value assembled by `kcn_buf_get32`. -/
def word32 (bytes : List UInt8) : UInt32 :=
  (octet bytes 0).toUInt32 <<< 24 |||
    (octet bytes 1).toUInt32 <<< 16 |||
    (octet bytes 2).toUInt32 <<< 8 |||
    (octet bytes 3).toUInt32

/-- The value assembled by `kcn_buf_get64`. -/
def word64 (bytes : List UInt8) : UInt64 :=
  (octet bytes 0).toUInt64 <<< 56 |||
    (octet bytes 1).toUInt64 <<< 48 |||
    (octet bytes 2).toUInt64 <<< 40 |||
    (octet bytes 3).toUInt64 <<< 32 |||
    (octet bytes 4).toUInt64 <<< 24 |||
    (octet bytes 5).toUInt64 <<< 16 |||
    (octet bytes 6).toUInt64 <<< 8 |||
    (octet bytes 7).toUInt64

/-- The bytes stored by `kcn_buf_put16`. -/
def bytes16 (value : UInt16) : List UInt8 :=
  [((value >>> 8) &&& 0xff).toUInt8, (value &&& 0xff).toUInt8]

/-- The bytes stored by `kcn_buf_put32`. -/
def bytes32 (value : UInt32) : List UInt8 :=
  [((value >>> 24) &&& 0xff).toUInt8,
    ((value >>> 16) &&& 0xff).toUInt8,
    ((value >>> 8) &&& 0xff).toUInt8,
    (value &&& 0xff).toUInt8]

/-- The bytes stored by `kcn_buf_put64`. -/
def bytes64 (value : UInt64) : List UInt8 :=
  [((value >>> 56) &&& 0xff).toUInt8,
    ((value >>> 48) &&& 0xff).toUInt8,
    ((value >>> 40) &&& 0xff).toUInt8,
    ((value >>> 32) &&& 0xff).toUInt8,
    ((value >>> 24) &&& 0xff).toUInt8,
    ((value >>> 16) &&& 0xff).toUInt8,
    ((value >>> 8) &&& 0xff).toUInt8,
    (value &&& 0xff).toUInt8]

/-- `kcn_buf_get8` -/
def get8 : BufOp UInt8 := do
  let bytes ← fetch 1
  pure (octet bytes 0)

/-- `kcn_buf_get16` -/
def get16 : BufOp UInt16 := do
  let bytes ← fetch 2
  pure (word16 bytes)

/-- `kcn_buf_get32` -/
def get32 : BufOp UInt32 := do
  let bytes ← fetch 4
  pure (word32 bytes)

/-- `kcn_buf_get64` -/
def get64 : BufOp UInt64 := do
  let bytes ← fetch 8
  pure (word64 bytes)

/-- `kcn_buf_put8` -/
def put8 (value : UInt8) : BufOp Unit :=
  store [value]

/-- `kcn_buf_put16` -/
def put16 (value : UInt16) : BufOp Unit :=
  store (bytes16 value)

/-- `kcn_buf_put32` -/
def put32 (value : UInt32) : BufOp Unit :=
  store (bytes32 value)

/-- `kcn_buf_put64` -/
def put64 (value : UInt64) : BufOp Unit :=
  store (bytes64 value)

/-- `kcn_buf_put` -/
def put (data : List UInt8) : BufOp Unit :=
  store data

/-- `kcn_buf_putnull` -/
def putnull (count : Nat) : BufOp Unit :=
  store (List.replicate count 0)

end KcnBuf

end Kcn
