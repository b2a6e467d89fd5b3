import Kcn.Library.Cursor
import Kcn.Library.Run
import Kcn.RawBuf

namespace Kcn

open Program Bytes

/-!
# Runs of buffer operations

Any sequence of operations on a buffer keeps its positions in order, and acts on
the data and the cursor as operations on a string with a cursor.
-/

/-- A call of a buffer operation. -/
inductive BufCall where
  | init
  | reset (headingspace : Nat)
  | forward (count : Nat)
  | backward (count : Nat)
  | start
  | ends
  | trimHead (count : Nat)
  | realign
  | prepend (count : Nat)
  | get8
  | get16
  | get32
  | get64
  | put8 (v : UInt8)
  | put16 (v : UInt16)
  | put32 (v : UInt32)
  | put64 (v : UInt64)
  | put (data : List UInt8)
  | putnull (count : Nat)
  | read (answers : List (FdAnswer (List UInt8)))
  | write (answers : List (FdAnswer Nat))

/-- What a call returns. -/
inductive BufResult where
  | done
  | value (value : Nat)
  | error (errno : Errno)
  deriving Repr, DecidableEq

/-- A program that returns nothing. -/
def returning
    {σ α : Type} (program : Program Stop σ α) (result : α → BufResult) :
    Program Stop σ BufResult := do
  let value ← program
  pure (result value)

/-- A call on a buffer with any positions. -/
def RawBuf.call : BufCall → RawOp BufResult
  | .init => returning start fun _ => .done
  | .reset headingspace => returning (reset headingspace) fun _ => .done
  | .forward count => returning (forward count) fun _ => .done
  | .backward count => returning (backward count) fun _ => .done
  | .start => returning start fun _ => .done
  | .ends => returning ends fun _ => .done
  | .trimHead count => returning (trimHead count) fun _ => .done
  | .realign => returning realign fun _ => .done
  | .prepend count => returning (prepend count) fun _ => .done
  | .get8 => returning get8 fun v => .value v.toNat
  | .get16 => returning get16 fun v => .value v.toNat
  | .get32 => returning get32 fun v => .value v.toNat
  | .get64 => returning get64 fun v => .value v.toNat
  | .put8 v => returning (put8 v) fun _ => .done
  | .put16 v => returning (put16 v) fun _ => .done
  | .put32 v => returning (put32 v) fun _ => .done
  | .put64 v => returning (put64 v) fun _ => .done
  | .put data => returning (put data) fun _ => .done
  | .putnull count => returning (putnull count) fun _ => .done
  | .read answers => returning (read answers) .error
  | .write answers => returning (write answers) .error

/-- A call on a buffer whose positions are in order. -/
def KcnBuf.call : BufCall → BufOp BufResult
  | .init => returning start fun _ => .done
  | .reset headingspace => returning (reset headingspace) fun _ => .done
  | .forward count => returning (forward count) fun _ => .done
  | .backward count => returning (backward count) fun _ => .done
  | .start => returning start fun _ => .done
  | .ends => returning ends fun _ => .done
  | .trimHead count => returning (trimHead count) fun _ => .done
  | .realign => returning realign fun _ => .done
  | .prepend count => returning (prepend count) fun _ => .done
  | .get8 => returning get8 fun v => .value v.toNat
  | .get16 => returning get16 fun v => .value v.toNat
  | .get32 => returning get32 fun v => .value v.toNat
  | .get64 => returning get64 fun v => .value v.toNat
  | .put8 v => returning (put8 v) fun _ => .done
  | .put16 v => returning (put16 v) fun _ => .done
  | .put32 v => returning (put32 v) fun _ => .done
  | .put64 v => returning (put64 v) fun _ => .done
  | .put data => returning (put data) fun _ => .done
  | .putnull count => returning (putnull count) fun _ => .done
  | .read answers => returning (readFd answers) .error
  | .write answers => returning (writeFd answers) .error

/-- The argument of `reset` is at most the size. -/
def BufCall.Fits (size : Nat) : BufCall → Prop
  | .reset headingspace => headingspace ≤ size
  | _ => True

/-- Only `reset` can take the positions out of the block. -/
theorem mirrors_call
    {call : BufCall} (other : ∀ headingspace, call ≠ .reset headingspace) :
    Mirrors KcnBuf.raw (RawBuf.call call) (KcnBuf.call call) := by
  have returns {α : Type} {program : RawBuf.RawOp α}
      {original : KcnBuf.BufOp α} (result : α → BufResult)
      (mirrors : Mirrors KcnBuf.raw program original) :
      Mirrors KcnBuf.raw (returning program result)
        (returning original result) :=
    mirrors.bind fun _ => .pure _
  have finishes {program : RawBuf.RawOp Unit}
      {original : KcnBuf.BufOp Unit}
      (mirrors : Mirrors KcnBuf.raw program original) :=
    returns (fun _ => .done) mirrors
  cases call with
  | reset headingspace => exact absurd rfl (other headingspace)
  | init => exact finishes RawBuf.mirrors_start
  | forward count => exact finishes (RawBuf.mirrors_forward count)
  | backward count => exact finishes (RawBuf.mirrors_backward count)
  | start => exact finishes RawBuf.mirrors_start
  | ends => exact finishes RawBuf.mirrors_ends
  | trimHead count => exact finishes (RawBuf.mirrors_trimHead count)
  | realign => exact finishes RawBuf.mirrors_realign
  | prepend count => exact finishes (RawBuf.mirrors_prepend count)
  | get8 => exact returns (fun v => .value v.toNat) RawBuf.mirrors_get8
  | get16 => exact returns (fun v => .value v.toNat) RawBuf.mirrors_get16
  | get32 => exact returns (fun v => .value v.toNat) RawBuf.mirrors_get32
  | get64 => exact returns (fun v => .value v.toNat) RawBuf.mirrors_get64
  | put8 v => exact finishes (RawBuf.mirrors_put8 v)
  | put16 v => exact finishes (RawBuf.mirrors_put16 v)
  | put32 v => exact finishes (RawBuf.mirrors_put32 v)
  | put64 v => exact finishes (RawBuf.mirrors_put64 v)
  | put data => exact finishes (RawBuf.mirrors_put data)
  | putnull count => exact finishes (RawBuf.mirrors_putnull count)
  | read answers => exact returns .error (RawBuf.mirrors_read answers)
  | write answers => exact returns .error (RawBuf.mirrors_write answers)

/-! ### What a call does -/

/-- A number is read at the cursor. -/
def Gets (width : Nat) (p : Cursor UInt8) (result : BufResult)
    (p' : Cursor UInt8) : Prop :=
  result = .value (bigEndian (p.here width)) ∧
    ∃ fits, p' = p.forward width fits

/-- What a call does to the data and the cursor. -/
def Acts (p : Cursor UInt8) (label : BufCall × BufResult)
    (p' : Cursor UInt8) : Prop :=
  match label.1 with
  | .init | .start => label.2 = .done ∧ p' = p.start
  | .reset _ => label.2 = .done ∧ p' = Cursor.empty
  | .forward count => label.2 = .done ∧ ∃ fits, p' = p.forward count fits
  | .backward count =>
      label.2 = .done ∧ count ≤ p.pos ∧ p' = p.backward count
  | .ends => label.2 = .done ∧ p' = p.ends
  | .trimHead count =>
      label.2 = .done ∧ count ≤ p.data.length ∧ p' = p.trim count
  | .realign => label.2 = .done ∧ p' = p
  | .prepend count =>
      label.2 = .done ∧ ∃ gap, gap.length = count ∧ p' = p.prepend gap
  | .get8 => Gets 1 p label.2 p'
  | .get16 => Gets 2 p label.2 p'
  | .get32 => Gets 4 p label.2 p'
  | .get64 => Gets 8 p label.2 p'
  | .put8 v => label.2 = .done ∧ p' = p.put [v]
  | .put16 v => label.2 = .done ∧ p' = p.put (toBigEndian 2 v.toNat)
  | .put32 v => label.2 = .done ∧ p' = p.put (toBigEndian 4 v.toNat)
  | .put64 v => label.2 = .done ∧ p' = p.put (toBigEndian 8 v.toNat)
  | .put data => label.2 = .done ∧ p' = p.put data
  | .putnull count => label.2 = .done ∧ p' = p.put (List.replicate count 0)
  | .read answers =>
      match settled answers with
      | none => False
      | some (.error error) => label.2 = .error error.errno ∧ p' = p
      | some (.ok []) => label.2 = .error Errno.eshutdown ∧ p' = p
      | some (.ok arriving) =>
          label.2 = .error 0 ∧
            ∃ space, 0 < space ∧ p' = p.extend (arriving.take space)
  | .write answers =>
      match settled answers with
      | none => False
      | some (.error error) => label.2 = .error error.errno ∧ p' = p
      | some (.ok accepted) =>
          if min accepted p.data.length = 0 then
            label.2 = .error Errno.eshutdown ∧ p' = p
          else
            label.2 = .error 0 ∧ p' = p.trim (min accepted p.data.length)

namespace KcnBuf

theorem headingdata_le (kb : KcnBuf) :
    kb.headingdata ≤ kb.data.length := by
  rw [data_eq, List.length_append, length_before, headingdata]
  exact Nat.le_add_right _ _

/-- The data of a buffer and its cursor. -/
def cursor (kb : KcnBuf) : Cursor UInt8 where
  data := kb.data
  pos := kb.headingdata
  inside := kb.headingdata_le

theorem Holds.cursor_eq
    {kb : KcnBuf} {size sp : Nat} {before after : List UInt8}
    (holds : kb.Holds size sp before after) :
    kb.cursor = Cursor.between before after :=
  Cursor.ext holds.data_eq holds.headingdata_eq

/-- A call that returns acts as it should; else an assertion stops it. -/
def Sound (kb : KcnBuf) (call : BufCall) : Prop :=
  wp (KcnBuf.call call)
    (fun result kb' =>
      Acts kb.cursor (call, result) kb'.cursor ∧ kb'.size = kb.size)
    (fun reason => reason = .assertion ∨ reason = .starved) kb

@[simp] theorem wp_returning
    {σ α : Type} {program : Program Stop σ α} {result : α → BufResult}
    {post : BufResult → σ → Prop} {halt : Stop → Prop} {s : σ} :
    wp (returning program result) post halt s ↔
      wp program (fun value s' => post (result value) s') halt s := by
  simp only [returning, wp_bind, wp_pure]

variable {halt : Stop → Prop} {kb : KcnBuf}

theorem length_cursor (kb : KcnBuf) :
    kb.cursor.data.length = kb.len := by
  have sized := kb.holds_self.len_eq
  rw [show kb.cursor.data = kb.data from rfl, data_eq,
    List.length_append, sized]

theorem cursor_between (kb : KcnBuf) :
    kb.cursor = Cursor.between kb.before kb.after :=
  kb.holds_self.cursor_eq

/-- Bytes are read at the cursor. -/
theorem wp_fetch_here
    {width : Nat} (asserts : halt .assertion) :
    wp (fetch width)
      (fun bytes kb' =>
        (bytes = kb.cursor.here width ∧ bytes.length = width ∧
          ∃ fits, kb'.cursor = kb.cursor.forward width fits) ∧
        kb'.size = kb.size)
      halt kb := by
  refine wp_fetch kb.holds_self ?_ fun _ => asserts
  intro bound kb' holds
  obtain ⟨fits, moved⟩ :=
    Cursor.forward_between kb.before kb.after bound
  refine ⟨⟨?_, ?_, ?_⟩, holds.size_eq⟩
  · rw [cursor_between, Cursor.here_between]
  · rw [List.length_take, Nat.min_eq_left bound]
  · rw [holds.cursor_eq, cursor_between]
    exact ⟨fits, moved.symm⟩

/-- Bytes are put at the cursor. -/
theorem wp_store_put
    {new : List UInt8} (asserts : halt .assertion) :
    wp (store new)
      (fun _ kb' =>
        kb'.cursor = kb.cursor.put new ∧ kb'.size = kb.size)
      halt kb := by
  refine wp_store kb.holds_self ?_ fun _ => asserts
  intro _ kb' holds
  refine ⟨?_, holds.size_eq⟩
  rw [holds.cursor_eq, cursor_between, Cursor.put_between]

/-- Data are trimmed, and the cursor only where it was among them. -/
theorem wp_trimHead_trim
    {count : Nat} (asserts : halt .assertion) :
    wp (trimHead count)
      (fun _ kb' =>
        (count ≤ kb.cursor.data.length ∧
          kb'.cursor = kb.cursor.trim count) ∧
        kb'.size = kb.size)
      halt kb := by
  have ordered := kb.sp_le_cp
  by_cases bound : count ≤ kb.len
  · have position : max kb.cp (kb.sp + count) - (kb.sp + count) =
        kb.cp - kb.sp - count := by
      omega
    have trimmed :
        wp (trimHead count)
          (fun _ kb' =>
            kb'.size = kb.size ∧ kb'.data = kb.data.drop count)
          halt kb :=
      wp_trimHead_data bound fun kb' size data => ⟨size, data⟩
    refine wp_imp (wp_returned trimmed) ?_
    rintro _ kb' ⟨⟨size, data⟩, returns⟩
    refine ⟨⟨kb.length_cursor ▸ bound, Cursor.ext data ?_⟩, size⟩
    simp only [trimHead, bound, ↓reduceDIte, Except.ok.injEq,
      Prod.mk.injEq, true_and] at returns
    subst returns
    exact position
  · unfold wp trimHead
    simp only [bound, ↓reduceDIte]
    exact asserts

/-- The cursor moves back over data before it. -/
theorem wp_backward_back
    {count : Nat} (asserts : halt .assertion) :
    wp (backward count)
      (fun _ kb' =>
        (count ≤ kb.cursor.pos ∧
          kb'.cursor = kb.cursor.backward count) ∧
        kb'.size = kb.size)
      halt kb := by
  by_cases bound : count ≤ kb.headingdata
  · have moves : kb.cp - count - kb.sp = kb.cp - kb.sp - count := by
      omega
    unfold wp backward
    simp only [bound, ↓reduceDIte, and_true]
    exact ⟨bound, Cursor.ext rfl moves⟩
  · unfold wp backward
    simp only [bound, ↓reduceDIte]
    exact asserts

/-- Memory before the data becomes data. -/
theorem wp_prepend_gap
    {count : Nat} (asserts : halt .assertion) :
    wp (prepend count)
      (fun _ kb' =>
        (∃ gap : List UInt8, gap.length = count ∧
          kb'.cursor = kb.cursor.prepend gap) ∧
        kb'.size = kb.size)
      halt kb := by
  by_cases bound : count ≤ kb.sp
  · refine wp_prepend kb.holds_self bound ?_
    intro gap kb' length holds
    refine ⟨⟨gap, length, ?_⟩, holds.size_eq⟩
    rw [holds.cursor_eq, cursor_between, Cursor.prepend_between]
  · unfold wp prepend
    simp only [bound, ↓reduceDIte]
    exact asserts

/-- Room is made without moving the data or the cursor in them. -/
theorem wp_prepareRead_room (asserts : halt .assertion) :
    wp prepareRead
      (fun _ kb' =>
        kb'.cursor = kb.cursor ∧ kb'.size = kb.size ∧
          0 < kb'.trailingspace)
      halt kb := by
  unfold prepareRead
  simp only [wp_bind, wp_gets, wp_ite, wp_pure, true_and]
  refine ⟨fun _ => ?_, Nat.pos_of_ne_zero⟩
  · refine wp_realign kb.holds_self fun kb' holds => ?_
    refine ⟨fun _ => asserts, fun room => ⟨?_, ?_, ?_⟩⟩
    · rw [holds.cursor_eq, cursor_between]
    · exact holds.size_eq
    · exact Nat.pos_of_ne_zero room

/-- What is read is appended. -/
theorem wp_fill_extend
    {new : List UInt8} (bound : new.length ≤ kb.trailingspace) :
    wp (fill new)
      (fun _ kb' =>
        kb'.cursor = kb.cursor.extend new ∧ kb'.size = kb.size)
      halt kb := by
  have room := kb.holds_self.trailingspace_eq
  have within := kb.holds_self.le_size
  refine wp_fill kb.holds_self (by omega) fun kb' holds _ => ?_
  refine ⟨?_, holds.size_eq⟩
  rw [holds.cursor_eq, cursor_between, Cursor.extend_between]

/-- A number is read. -/
theorem wp_get
    {α : Type} {width : Nat} {assemble : List UInt8 → α} {toNat : α → Nat}
    (value : ∀ bytes, bytes.length = width →
      toNat (assemble bytes) = bigEndian bytes)
    (asserts : halt .assertion) :
    wp (returning
        (fetch width >>= fun bytes => pure (assemble bytes))
        fun v => .value (toNat v))
      (fun result kb' =>
        Gets width kb.cursor result kb'.cursor ∧ kb'.size = kb.size)
      halt kb := by
  simp only [wp_returning, wp_bind, wp_pure]
  refine wp_imp (wp_fetch_here asserts) ?_
  rintro bytes kb' ⟨⟨here, length, moved⟩, size⟩
  refine ⟨⟨?_, moved⟩, size⟩
  rw [value bytes length, here]

/-- A string is written. -/
theorem wp_put
    {bytes new : List UInt8} (same : bytes = new)
    (asserts : halt .assertion) :
    wp (returning (store bytes) fun _ => .done)
      (fun result kb' =>
        (result = .done ∧ kb'.cursor = kb.cursor.put new) ∧
        kb'.size = kb.size)
      halt kb := by
  subst same
  refine wp_returning.mpr (wp_imp (wp_store_put asserts) ?_)
  rintro _ kb' ⟨stored, size⟩
  exact ⟨⟨rfl, stored⟩, size⟩

/-- `read` answers once, after room is made. -/
theorem sound_read (answers : List (FdAnswer (List UInt8))) :
    kb.Sound (.read answers) := by
  refine wp_returning.mpr ?_
  unfold readFd
  rw [wp_bind]
  refine wp_imp (wp_prepareRead_room (.inl rfl)) ?_
  rintro _ kb₁ ⟨same, size, room⟩
  rw [wp_bind, wp_gets]
  simp only [Acts]
  cases settled answers with
  | none => exact .inr rfl
  | some answer =>
      cases answer with
      | error error => exact ⟨⟨rfl, same⟩, size⟩
      | ok arriving =>
          cases arriving with
          | nil =>
              simp only [List.take_nil, ↓reduceIte, wp_pure, true_and]
              exact ⟨same, size⟩
          | cons first rest =>
              have arrives :
                  (first :: rest).take kb₁.trailingspace ≠ [] := by
                intro none
                rcases List.take_eq_nil_iff.mp none with full | empty
                · omega
                · cases empty
              simp only [arrives, ↓reduceIte, wp_bind]
              refine wp_imp (wp_fill_extend (List.length_take_le _ _)) ?_
              rintro _ kb' ⟨extended, size'⟩
              rw [same] at extended
              exact ⟨⟨rfl, _, room, extended⟩, size'.trans size⟩

/-- `write` answers once, with how much it accepts. -/
theorem sound_write (answers : List (FdAnswer Nat)) :
    kb.Sound (.write answers) := by
  refine wp_returning.mpr ?_
  unfold writeFd
  simp only [Acts]
  cases settled answers with
  | none => exact .inr rfl
  | some answer =>
      cases answer with
      | error error => exact ⟨⟨rfl, rfl⟩, rfl⟩
      | ok accepted =>
          simp only [wp_bind, wp_gets, wp_ite, wp_pure, length_cursor,
            and_true, true_and]
          refine ⟨fun none => ?_, fun some => ?_⟩
          · simp only [none, ↓reduceIte]
          · refine wp_imp (wp_trimHead_trim (.inl rfl)) ?_
            rintro _ kb' ⟨⟨_, trimmed⟩, size⟩
            rw [if_neg some]
            exact ⟨trimmed, size⟩

/-! ### Every call -/

/-- A call that returns acts as it should; else an assertion stops it. -/
theorem sound_call
    {call : BufCall} (fits : call.Fits kb.size) : kb.Sound call := by
  have asserts : Stop.assertion = .assertion ∨ Stop.assertion = .starved :=
    .inl rfl
  cases call with
  | init =>
      refine wp_returning.mpr (wp_start kb.holds_self fun kb' holds => ?_)
      rw [holds.cursor_eq, cursor_between]
      exact ⟨⟨rfl, Cursor.start_between _ _⟩, holds.size_eq⟩
  | start =>
      refine wp_returning.mpr (wp_start kb.holds_self fun kb' holds => ?_)
      rw [holds.cursor_eq, cursor_between]
      exact ⟨⟨rfl, Cursor.start_between _ _⟩, holds.size_eq⟩
  | reset headingspace =>
      refine wp_returning.mpr
        (wp_reset kb.holds_self fits fun kb' holds => ?_)
      exact ⟨⟨rfl, holds.cursor_eq⟩, holds.size_eq⟩
  | forward count =>
      refine wp_returning.mpr
        (wp_forward kb.holds_self ?_ fun _ => asserts)
      intro bound kb' holds
      obtain ⟨fits, moved⟩ :=
        Cursor.forward_between kb.before kb.after bound
      rw [holds.cursor_eq, cursor_between]
      exact ⟨⟨rfl, fits, moved.symm⟩, holds.size_eq⟩
  | backward count =>
      refine wp_returning.mpr (wp_imp (wp_backward_back asserts) ?_)
      rintro _ kb' ⟨⟨bound, moved⟩, size⟩
      exact ⟨⟨rfl, bound, moved⟩, size⟩
  | ends =>
      exact wp_returning.mpr
        ⟨⟨rfl, Cursor.ext rfl kb.length_cursor.symm⟩, rfl⟩
  | trimHead count =>
      refine wp_returning.mpr (wp_imp (wp_trimHead_trim asserts) ?_)
      rintro _ kb' ⟨⟨bound, trimmed⟩, size⟩
      exact ⟨⟨rfl, bound, trimmed⟩, size⟩
  | realign =>
      refine wp_returning.mpr
        (wp_realign kb.holds_self fun kb' holds => ?_)
      rw [holds.cursor_eq, ← cursor_between]
      exact ⟨⟨rfl, rfl⟩, holds.size_eq⟩
  | prepend count =>
      refine wp_returning.mpr (wp_imp (wp_prepend_gap asserts) ?_)
      rintro _ kb' ⟨⟨gap, length, prepended⟩, size⟩
      exact ⟨⟨rfl, gap, length, prepended⟩, size⟩
  | get8 => exact wp_get (fun _ => octet_eq) asserts
  | get16 => exact wp_get (fun _ => word16_eq) asserts
  | get32 => exact wp_get (fun _ => word32_eq) asserts
  | get64 => exact wp_get (fun _ => word64_eq) asserts
  | put8 v => exact wp_put rfl asserts
  | put16 v => exact wp_put (bytes16_eq v) asserts
  | put32 v => exact wp_put (bytes32_eq v) asserts
  | put64 v => exact wp_put (bytes64_eq v) asserts
  | put data => exact wp_put rfl asserts
  | putnull count => exact wp_put rfl asserts
  | read answers => exact sound_read answers
  | write answers => exact sound_write answers

end KcnBuf

/-! ### Runs -/

namespace RawBuf

/-- `kcn_buf_data_new` on uninitialised `memory`, and `kcn_buf_init`. -/
def new (memory : List UInt8) : RawBuf where
  kbSize := memory.length
  kbSp := 0
  kbCp := 0
  kbEp := 0
  kbBuf := memory

/-- A call that meets the assertions. -/
def Step (kb : RawBuf) (label : BufCall × BufResult) (kb' : RawBuf) :
    Prop :=
  label.1.Fits kb.kbSize ∧ call label.1 kb = .ok (label.2, kb')

/-- The positions are in order, and show a string and a cursor. -/
structure Shows (kb : RawBuf) (p : Cursor UInt8) : Prop where
  sp_le_cp : kb.kbSp ≤ kb.kbCp
  cp_le_ep : kb.kbCp ≤ kb.kbEp
  ep_le_size : kb.kbEp ≤ kb.kbSize
  length_buf : kb.kbBuf.length = kb.kbSize
  data_eq : p.data = slice kb.kbBuf kb.kbSp kb.len
  pos_eq : p.pos = kb.kbCp - kb.kbSp

variable {kb : RawBuf} {p : Cursor UInt8}

theorem shows_raw (kb : KcnBuf) : kb.raw.Shows kb.cursor :=
  ⟨kb.sp_le_cp, kb.cp_le_ep, kb.ep_le_size, kb.length_bytes, rfl, rfl⟩

/-- Positions in order are those of a buffer. -/
theorem Shows.exists_raw (shows : kb.Shows p) :
    ∃ kb' : KcnBuf, kb'.raw = kb ∧ kb'.cursor = p :=
  ⟨⟨kb.kbSize, kb.kbSp, kb.kbCp, kb.kbEp, kb.kbBuf, shows.sp_le_cp,
      shows.cp_le_ep, shows.ep_le_size, shows.length_buf⟩,
    rfl, Cursor.ext shows.data_eq.symm shows.pos_eq.symm⟩

/-- What a call that fits does to a buffer that shows a string. -/
def Refines (kb : RawBuf) (p : Cursor UInt8) (call : BufCall) : Prop :=
  wp (RawBuf.call call)
    (fun result kb' =>
      (∃ p', kb'.Shows p' ∧ Acts p (call, result) p') ∧
        kb'.kbSize = kb.kbSize)
    (fun reason => reason = .assertion ∨ reason = .starved) kb

theorem Shows.refines
    (shows : kb.Shows p) {call : BufCall} (fits : call.Fits kb.kbSize) :
    kb.Refines p call := by
  obtain ⟨kb, rfl, rfl⟩ := shows.exists_raw
  have sound := kb.sound_call fits
  by_cases resets : ∃ headingspace, call = .reset headingspace
  · obtain ⟨headingspace, rfl⟩ := resets
    have nothing :
        [] = slice kb.bytes headingspace (headingspace - headingspace) := by
      rw [Nat.sub_self]
      rfl
    exact ⟨⟨Cursor.empty, ⟨Nat.le_refl _, Nat.le_refl _, fits,
      kb.length_bytes, nothing, (Nat.sub_self _).symm⟩, rfl, rfl⟩, rfl⟩
  · have other (headingspace : Nat) : call ≠ .reset headingspace :=
      fun same => resets ⟨headingspace, same⟩
    refine (mirrors_call other).wp (wp_imp sound ?_)
    rintro result kb' ⟨acts, size⟩
    exact ⟨⟨kb'.cursor, shows_raw kb', acts⟩, size⟩

end RawBuf

/--
Every sequence of calls that meets the assertions keeps the positions in order
and is one of operations on a string with a cursor; so is each next call, which
else an assertion stops.
-/
theorem buffer_refines
    {memory : List UInt8} {labels : List (BufCall × BufResult)}
    {kb : RawBuf}
    (run : Run RawBuf.Step (RawBuf.new memory) labels kb) :
    kb.kbSize = memory.length ∧
      ∃ p, Run Acts Cursor.empty labels p ∧ kb.Shows p ∧
        ∀ call : BufCall, call.Fits kb.kbSize → kb.Refines p call := by
  have reaches :
      kb.kbSize = memory.length ∧
        ∃ p, Run Acts Cursor.empty labels p ∧ kb.Shows p := by
    induction run with
    | nil =>
        exact ⟨rfl, Cursor.empty, .nil, RawBuf.shows_raw (.new memory)⟩
    | snoc _ last inductionHypothesis =>
        obtain ⟨size, p, simulated, shows⟩ := inductionHypothesis
        obtain ⟨fits, returns⟩ := last
        obtain ⟨⟨p', shows', acts⟩, same⟩ :=
          wp_ok (shows.refines fits) returns
        exact ⟨same.trans size, p', .snoc simulated acts, shows'⟩
  obtain ⟨size, p, simulated, shows⟩ := reaches
  exact ⟨size, p, simulated, shows, fun _ => shows.refines⟩

/-- A number written and half read again. -/
theorem buffer_refines_half :
    4 = 4 ∧
      ∃ p,
        Run Acts Cursor.empty
          [(.reset 1, .done), (.put16 0x1234, .done), (.start, .done),
            (.get8, .value 0x12)] p ∧
        (RawBuf.mk 4 1 2 3 [0, 0x12, 0x34, 0]).Shows p ∧
        ∀ call : BufCall, call.Fits 4 →
          (RawBuf.mk 4 1 2 3 [0, 0x12, 0x34, 0]).Refines p call := by
  have reset : RawBuf.Step (.new [0, 0, 0, 0]) (.reset 1, .done)
      ⟨4, 1, 1, 1, [0, 0, 0, 0]⟩ :=
    ⟨show 1 ≤ 4 by decide, rfl⟩
  have put : RawBuf.Step ⟨4, 1, 1, 1, [0, 0, 0, 0]⟩ (.put16 0x1234, .done)
      ⟨4, 1, 3, 3, [0, 0x12, 0x34, 0]⟩ :=
    ⟨trivial, rfl⟩
  have start : RawBuf.Step ⟨4, 1, 3, 3, [0, 0x12, 0x34, 0]⟩
      (.start, .done) ⟨4, 1, 1, 3, [0, 0x12, 0x34, 0]⟩ :=
    ⟨trivial, rfl⟩
  have get : RawBuf.Step ⟨4, 1, 1, 3, [0, 0x12, 0x34, 0]⟩
      (.get8, .value 0x12) ⟨4, 1, 2, 3, [0, 0x12, 0x34, 0]⟩ :=
    ⟨trivial, rfl⟩
  exact buffer_refines (.snoc (.snoc (.snoc (.snoc .nil reset) put) start)
    get)

end Kcn
