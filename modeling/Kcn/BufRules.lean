import Kcn.Buf

namespace Kcn.KcnBuf

open Program Bytes

/-!
# The buffer operations on byte strings

A buffer is described by its start and by the data before and after the
cursor.  Each operation gets one rule in these terms; no later proof looks at
the positions or at the memory outside the data.
-/

/-- The data from the start to the cursor. -/
def before (kb : KcnBuf) : List UInt8 :=
  slice kb.bytes kb.sp kb.headingdata

/-- The data from the cursor to the end. -/
def after (kb : KcnBuf) : List UInt8 :=
  slice kb.bytes kb.cp kb.trailingdata

/-- The data of the buffer. -/
def data (kb : KcnBuf) : List UInt8 :=
  slice kb.bytes kb.sp kb.len

theorem length_before (kb : KcnBuf) :
    kb.before.length = kb.cp - kb.sp := by
  have := kb.length_bytes
  have := kb.cp_le_ep
  have := kb.ep_le_size
  rw [before, length_slice, headingdata]
  omega

theorem length_after (kb : KcnBuf) :
    kb.after.length = kb.ep - kb.cp := by
  have := kb.length_bytes
  have := kb.ep_le_size
  rw [after, length_slice, trailingdata]
  omega

theorem data_eq (kb : KcnBuf) : kb.data = kb.before ++ kb.after := by
  have := kb.sp_le_cp
  have := kb.cp_le_ep
  have whole : kb.len = kb.headingdata + kb.trailingdata := by
    unfold len headingdata trailingdata
    omega
  rw [data, whole, slice_add, before, after]
  congr 2
  unfold headingdata
  omega

/-- The contents of a buffer in terms of byte strings. -/
structure Holds
    (kb : KcnBuf)
    (size sp : Nat)
    (before after : List UInt8) : Prop where
  size_eq : kb.size = size
  sp_eq : kb.sp = sp
  before_eq : kb.before = before
  after_eq : kb.after = after

theorem holds_self (kb : KcnBuf) :
    kb.Holds kb.size kb.sp kb.before kb.after :=
  ⟨rfl, rfl, rfl, rfl⟩

namespace Holds

variable
  {kb : KcnBuf} {size sp : Nat} {before after : List UInt8}

theorem cp_eq (holds : kb.Holds size sp before after) :
    kb.cp = sp + before.length := by
  have := kb.sp_le_cp
  rw [← holds.before_eq, length_before, ← holds.sp_eq]
  omega

theorem ep_eq (holds : kb.Holds size sp before after) :
    kb.ep = sp + before.length + after.length := by
  have := kb.cp_le_ep
  rw [← holds.cp_eq, ← holds.after_eq, length_after]
  omega

theorem le_size (holds : kb.Holds size sp before after) :
    sp + before.length + after.length ≤ size := by
  rw [← holds.ep_eq, ← holds.size_eq]
  exact kb.ep_le_size

theorem len_eq (holds : kb.Holds size sp before after) :
    kb.len = before.length + after.length := by
  rw [len, holds.ep_eq, holds.sp_eq]
  omega

theorem headingdata_eq (holds : kb.Holds size sp before after) :
    kb.headingdata = before.length := by
  rw [headingdata, holds.cp_eq, holds.sp_eq]
  omega

theorem trailingdata_eq (holds : kb.Holds size sp before after) :
    kb.trailingdata = after.length := by
  rw [trailingdata, holds.ep_eq, holds.cp_eq]
  omega

theorem trailingspace_eq (holds : kb.Holds size sp before after) :
    kb.trailingspace = size - (sp + before.length + after.length) := by
  rw [trailingspace, holds.ep_eq, holds.size_eq]

theorem data_eq (holds : kb.Holds size sp before after) :
    kb.data = before ++ after := by
  rw [KcnBuf.data_eq, holds.before_eq, holds.after_eq]

/-- The memory at the start position reads as the data. -/
theorem slice_data (holds : kb.Holds size sp before after) :
    slice kb.bytes sp (before.length + after.length) =
      before ++ after := by
  rw [← holds.data_eq, data, holds.len_eq, holds.sp_eq]

/-- A prefix of the data behind the cursor can be read at the cursor. -/
theorem slice_after
    (holds : kb.Holds size sp before after)
    {count : Nat} (bound : count ≤ after.length) :
    slice kb.bytes kb.cp count = after.take count := by
  rw [← holds.after_eq, KcnBuf.after]
  unfold slice
  rw [List.take_take, Nat.min_eq_left]
  rw [holds.trailingdata_eq]
  exact bound

end Holds

variable
  {size sp : Nat} {before after : List UInt8}
  {halt : Stop → Prop} {kb : KcnBuf}

/-- Positions and memory determine what a buffer holds. -/
theorem holds_of_slice
    (sizeEq : kb.size = size)
    (spEq : kb.sp = sp)
    (cpEq : kb.cp = sp + before.length)
    (epEq : kb.ep = sp + before.length + after.length)
    (dataEq :
      slice kb.bytes sp (before.length + after.length) =
        before ++ after) :
    kb.Holds size sp before after := by
  have split := dataEq
  rw [slice_add] at split
  have room := kb.ep_le_size
  have memory := kb.length_bytes
  obtain ⟨beforeEq, afterEq⟩ :=
    List.append_inj split (by rw [length_slice]; omega)
  refine ⟨sizeEq, spEq, ?_, ?_⟩
  · rw [KcnBuf.before, headingdata, cpEq, spEq,
      Nat.add_sub_cancel_left, beforeEq]
  · rw [KcnBuf.after, trailingdata, epEq, cpEq,
      Nat.add_sub_cancel_left, afterEq]

/-- A new buffer is empty. -/
theorem holds_new (memory : List UInt8) :
    (new memory).Holds memory.length 0 [] [] :=
  holds_of_slice rfl rfl rfl rfl rfl

/-- `reset` forgets the data. -/
theorem wp_reset
    {post : Unit → KcnBuf → Prop}
    (holds : kb.Holds size sp before after)
    {headingspace : Nat} (fits : headingspace ≤ size)
    (next : ∀ kb', kb'.Holds size headingspace [] [] → post () kb') :
    wp (reset headingspace) post halt kb := by
  have fits' : headingspace ≤ kb.size := holds.size_eq ▸ fits
  unfold wp reset
  simp only [fits', ↓reduceDIte]
  exact next _ (holds_of_slice holds.size_eq rfl rfl rfl (by simp))

/-- `forward` moves the cursor over data. -/
theorem wp_forward
    {post : Unit → KcnBuf → Prop}
    (holds : kb.Holds size sp before after)
    {count : Nat}
    (next : count ≤ after.length →
      ∀ kb', kb'.Holds size sp
        (before ++ after.take count) (after.drop count) →
      post () kb')
    (fail : after.length < count → halt .assertion) :
    wp (forward count) post halt kb := by
  unfold wp forward
  by_cases bound : count ≤ after.length
  · have fits : count ≤ kb.trailingdata := by
      rw [holds.trailingdata_eq]
      exact bound
    simp only [fits, ↓reduceDIte]
    refine next bound _
      (holds_of_slice holds.size_eq holds.sp_eq ?_ ?_ ?_)
    · simp [holds.cp_eq, Nat.min_eq_left bound, Nat.add_assoc]
    · simp [holds.ep_eq]
      omega
    · have shape := holds.slice_data
      have total :
          (before ++ after.take count).length +
              (after.drop count).length =
            before.length + after.length := by
        simp
        omega
      rw [total]
      simpa using shape
  · have exceeds : ¬ count ≤ kb.trailingdata := by
      rw [holds.trailingdata_eq]
      exact bound
    simp only [exceeds, ↓reduceDIte]
    exact fail (Nat.lt_of_not_le bound)

/-- `start` moves the cursor back to the start. -/
theorem wp_start
    {post : Unit → KcnBuf → Prop}
    (holds : kb.Holds size sp before after)
    (next : ∀ kb', kb'.Holds size sp [] (before ++ after) →
      post () kb') :
    wp start post halt kb := by
  refine next _ (holds_of_slice holds.size_eq holds.sp_eq ?_ ?_ ?_)
  · simp [holds.sp_eq]
  · simp [holds.ep_eq, Nat.add_assoc]
  · simpa using holds.slice_data

/-- `trim_head` drops data at the start, wherever the cursor is. -/
theorem wp_trimHead_data
    {post : Unit → KcnBuf → Prop}
    {count : Nat} (bound : count ≤ kb.len)
    (next : ∀ kb', kb'.size = kb.size →
      kb'.data = kb.data.drop count →
      post () kb') :
    wp (trimHead count) post halt kb := by
  unfold wp trimHead
  simp only [bound, ↓reduceDIte]
  refine next _ rfl ?_
  unfold data slice len
  simp [List.drop_take, List.drop_drop, Nat.sub_sub]

/-- `trim_head` of all the data before the cursor. -/
theorem wp_trimHead_headingdata
    {post : Unit → KcnBuf → Prop}
    (holds : kb.Holds size sp before after)
    (next : ∀ kb', kb'.Holds size (sp + before.length) [] after →
      post () kb') :
    wp (trimHead before.length) post halt kb := by
  have fits : before.length ≤ kb.len := by
    rw [holds.len_eq]
    omega
  unfold wp trimHead
  simp only [fits, ↓reduceDIte]
  refine next _ (holds_of_slice holds.size_eq ?_ ?_ ?_ ?_)
  · simp [holds.sp_eq]
  · simp [holds.cp_eq, holds.sp_eq]
  · simp [holds.ep_eq]
  · have shape := holds.slice_data
    rw [slice_add] at shape
    have room := kb.ep_le_size
    have memory := kb.length_bytes
    have bound := holds.ep_eq
    simpa using
      (List.append_inj shape (by rw [length_slice]; omega)).2

/-- `trim_head` past the cursor drops all before it and moves it along. -/
theorem wp_trimHead_beyond
    {post : Unit → KcnBuf → Prop}
    (holds : kb.Holds size sp before after)
    {count : Nat} (bound : count ≤ after.length)
    (next : ∀ kb',
      kb'.Holds size (sp + before.length + count) []
        (after.drop count) →
      post () kb') :
    wp (trimHead (before.length + count)) post halt kb := by
  have fits : before.length + count ≤ kb.len := by
    rw [holds.len_eq]
    omega
  unfold wp trimHead
  simp only [fits, ↓reduceDIte]
  refine next _ (holds_of_slice holds.size_eq ?_ ?_ ?_ ?_)
  · simp [holds.sp_eq, Nat.add_assoc]
  · simp [holds.cp_eq, holds.sp_eq]
    omega
  · simp [holds.ep_eq]
    omega
  · have shape := holds.slice_data
    have split :
        before.length + after.length =
          (before.length + count) + (after.length - count) := by
      omega
    rw [split, slice_add] at shape
    have cut :
        before ++ after =
          (before ++ after.take count) ++ after.drop count := by
      simp
    rw [cut] at shape
    have room := kb.ep_le_size
    have memory := kb.length_bytes
    have ends := holds.ep_eq
    simpa [Nat.add_assoc] using
      (List.append_inj shape
        (by rw [length_slice]; simp; omega)).2

/-- `backward` moves the cursor back over data. -/
theorem wp_backward
    {post : Unit → KcnBuf → Prop} {here : List UInt8}
    (holds : kb.Holds size sp (before ++ here) after)
    (next : ∀ kb', kb'.Holds size sp before (here ++ after) →
      post () kb') :
    wp (backward here.length) post halt kb := by
  have fits : here.length ≤ kb.headingdata := by
    rw [holds.headingdata_eq, List.length_append]
    omega
  unfold wp backward
  simp only [fits, ↓reduceDIte]
  have cpEq := holds.cp_eq
  have epEq := holds.ep_eq
  have shape := holds.slice_data
  rw [List.length_append] at cpEq epEq shape
  refine next _ (holds_of_slice holds.size_eq holds.sp_eq ?_ ?_ ?_)
  · exact Nat.sub_eq_of_eq_add (cpEq.trans (Nat.add_assoc _ _ _).symm)
  · rw [List.length_append, ← Nat.add_assoc, Nat.add_assoc sp]
    exact epEq
  · rw [List.length_append, ← Nat.add_assoc, ← List.append_assoc]
    exact shape

/-- `prepend` takes memory before the start into the data. -/
theorem wp_prepend
    {post : Unit → KcnBuf → Prop}
    (holds : kb.Holds size sp before after)
    {count : Nat} (bound : count ≤ sp)
    (next : ∀ gap kb', gap.length = count →
      kb'.Holds size (sp - count) [] (gap ++ before ++ after) →
      post () kb') :
    wp (prepend count) post halt kb := by
  have fits : count ≤ kb.sp := by
    rw [holds.sp_eq]
    exact bound
  have room := holds.le_size
  have memory := kb.length_bytes
  have sizeEq := holds.size_eq
  unfold wp prepend
  simp only [fits, ↓reduceDIte]
  have gapLength :
      (slice kb.bytes (sp - count) count).length = count := by
    rw [length_slice]
    omega
  refine next (slice kb.bytes (sp - count) count) _ gapLength
    (holds_of_slice sizeEq ?_ ?_ ?_ ?_)
  · simp [holds.sp_eq]
  · simp [holds.sp_eq]
  · have epEq := holds.ep_eq
    simp only [List.length_nil, List.length_append, gapLength]
    omega
  · have total :
        ([] : List UInt8).length +
            (slice kb.bytes (sp - count) count ++ before ++
              after).length =
          count + (before.length + after.length) := by
      simp only [List.length_nil, List.length_append, gapLength]
      omega
    have start : sp - count + count = sp := by
      omega
    rw [total, slice_add, start, holds.slice_data]
    simp

/-- `realign` moves the data to the head of the block. -/
theorem wp_realign
    {post : Unit → KcnBuf → Prop}
    (holds : kb.Holds size sp before after)
    (next : ∀ kb', kb'.Holds size 0 before after → post () kb') :
    wp realign post halt kb := by
  refine next _ (holds_of_slice holds.size_eq rfl ?_ ?_ ?_)
  · simp [holds.cp_eq, holds.sp_eq]
  · simp [holds.len_eq]
  · have stored :=
      slice_overwrite_self kb.bytes 0
        (slice kb.bytes kb.sp kb.len) (Nat.zero_le _)
    have lengthEq :
        (slice kb.bytes kb.sp kb.len).length =
          before.length + after.length := by
      have := holds.data_eq
      rw [data] at this
      rw [this, List.length_append]
    rw [lengthEq] at stored
    rw [stored]
    exact holds.data_eq

/-- The get operations consume bytes at the cursor. -/
theorem wp_fetch
    {post : List UInt8 → KcnBuf → Prop}
    (holds : kb.Holds size sp before after)
    {count : Nat}
    (next : count ≤ after.length →
      ∀ kb', kb'.Holds size sp
        (before ++ after.take count) (after.drop count) →
      post (after.take count) kb')
    (fail : after.length < count → halt .assertion) :
    wp (fetch count) post halt kb := by
  unfold fetch
  simp only [wp_bind, wp_gets, wp_pure]
  refine wp_forward holds ?_ fail
  intro bound kb' holds'
  rw [holds.slice_after bound]
  exact next bound kb' holds'

/-- The put operations overwrite data at the cursor and extend it. -/
theorem wp_store
    {post : Unit → KcnBuf → Prop}
    (holds : kb.Holds size sp before after)
    {new : List UInt8}
    (next : sp + before.length + new.length ≤ size →
      ∀ kb', kb'.Holds size sp
        (before ++ new) (after.drop new.length) →
      post () kb')
    (fail : size < sp + before.length + new.length →
      halt .assertion) :
    wp (store new) post halt kb := by
  have room := holds.le_size
  have cpEq := holds.cp_eq
  have epEq := holds.ep_eq
  have sizeEq := holds.size_eq
  have memory := kb.length_bytes
  unfold wp store
  by_cases bound : sp + before.length + new.length ≤ size
  · have fits : max kb.ep (kb.cp + new.length) ≤ kb.size := by
      omega
    simp only [fits, ↓reduceDIte]
    refine next bound _
      (holds_of_slice sizeEq holds.sp_eq ?_ ?_ ?_)
    · simp [cpEq, Nat.add_assoc]
    · simp only [List.length_append, List.length_drop]
      omega
    · have inside : kb.cp ≤ kb.bytes.length := by
        omega
      have heading :
          slice kb.bytes sp before.length = before := by
        have := holds.before_eq
        rwa [KcnBuf.before, holds.sp_eq, holds.headingdata_eq] at this
      have trailing :
          slice kb.bytes (kb.cp + new.length)
              (after.drop new.length).length =
            after.drop new.length := by
        have shape := holds.after_eq
        rw [KcnBuf.after, holds.trailingdata_eq] at shape
        rw [← shape, slice, slice, List.drop_take,
          List.drop_drop]
        simp
      rw [List.length_append, slice_add, slice_add,
        slice_overwrite_disjoint _ _ _ _ _ inside
          (by left; omega),
        heading, ← cpEq, slice_overwrite_self _ _ _ inside,
        slice_overwrite_disjoint _ _ _ _ _ inside
          (by right; omega)]
      rw [show sp + (before.length + new.length) =
          kb.cp + new.length by omega, trailing]
  · have exceeds :
        ¬ max kb.ep (kb.cp + new.length) ≤ kb.size := by
      omega
    simp only [exceeds, ↓reduceDIte]
    exact fail (Nat.lt_of_not_le bound)

/-- A read appends to the data. -/
theorem wp_fill
    {post : Unit → KcnBuf → Prop}
    (holds : kb.Holds size sp before after)
    {new : List UInt8}
    (bound : sp + before.length + after.length + new.length ≤ size)
    (next : ∀ kb', kb'.Holds size sp before (after ++ new) →
      kb'.bytes = overwrite kb.bytes kb.ep new →
      post () kb') :
    wp (fill new) post halt kb := by
  have cpEq := holds.cp_eq
  have epEq := holds.ep_eq
  have sizeEq := holds.size_eq
  have memory := kb.length_bytes
  have fits : kb.ep + new.length ≤ kb.size := by
    omega
  unfold wp fill
  simp only [fits, ↓reduceDIte]
  refine next _ (holds_of_slice sizeEq holds.sp_eq cpEq ?_ ?_) rfl
  · simp [epEq]
    omega
  · have inside : kb.ep ≤ kb.bytes.length := by
      omega
    rw [List.length_append, ← Nat.add_assoc, slice_add,
      slice_overwrite_disjoint _ _ _ _ _ inside
        (by left; omega),
      holds.slice_data,
      show sp + (before.length + after.length) = kb.ep by omega,
      slice_overwrite_self _ _ _ inside, List.append_assoc]

/-- A stored octet put back in its place has the bits of that place. -/
theorem testBit_place16
    (value shift : UInt16) (low : shift.toNat < 16) (i : Nat) :
    (((value >>> shift) &&& 0xff).toUInt8.toUInt16 <<<
        shift).toNat.testBit i =
      (decide (shift.toNat ≤ i ∧ i < shift.toNat + 8 ∧ i < 16) &&
        value.toNat.testBit i) := by
  have small : shift.toNat % 16 = shift.toNat :=
    Nat.mod_eq_of_lt low
  simp only [UInt16.toNat_shiftLeft, UInt8.toNat_toUInt16,
    UInt16.toNat_toUInt8, UInt16.toNat_and, UInt16.toNat_shiftRight,
    small]
  rw [Nat.testBit_mod_two_pow, Nat.testBit_shiftLeft,
    Nat.testBit_mod_two_pow, Nat.testBit_and,
    show (0xff : UInt16).toNat = 2 ^ 8 - 1 from rfl,
    Nat.testBit_two_pow_sub_one, Nat.testBit_shiftRight]
  by_cases above : shift.toNat ≤ i
  · rw [show shift.toNat + (i - shift.toNat) = i by omega]
    grind
  · simp [above]

/-- `kcn_buf_get16` reads what `kcn_buf_put16` stores. -/
@[simp] theorem word16_bytes16 (value : UInt16) :
    word16 (bytes16 value) = value := by
  apply UInt16.toNat_inj.mp
  apply Nat.eq_of_testBit_eq
  intro i
  have low := testBit_place16 value 0 (by decide) i
  simp only [UInt16.shiftLeft_zero, UInt16.shiftRight_zero] at low
  simp only [word16, bytes16, octet, List.getD_cons_zero,
    List.getD_cons_succ, UInt16.toNat_or, Nat.testBit_or, low]
  rw [testBit_place16 _ _ (by decide)]
  by_cases small : i < 16
  · cases value.toNat.testBit i <;> simp
    omega
  · have bound : value.toNat < 2 ^ i :=
      Nat.lt_of_lt_of_le value.toNat_lt
        (Nat.pow_le_pow_right (by decide) (by omega))
    simp [Nat.testBit_lt_two_pow bound]

/-- A stored octet put back in its place has the bits of that place. -/
theorem testBit_place64
    (value shift : UInt64) (low : shift.toNat < 64) (i : Nat) :
    (((value >>> shift) &&& 0xff).toUInt8.toUInt64 <<<
        shift).toNat.testBit i =
      (decide (shift.toNat ≤ i ∧ i < shift.toNat + 8 ∧ i < 64) &&
        value.toNat.testBit i) := by
  have small : shift.toNat % 64 = shift.toNat :=
    Nat.mod_eq_of_lt low
  simp only [UInt64.toNat_shiftLeft, UInt8.toNat_toUInt64,
    UInt64.toNat_toUInt8, UInt64.toNat_and, UInt64.toNat_shiftRight,
    small]
  rw [Nat.testBit_mod_two_pow, Nat.testBit_shiftLeft,
    Nat.testBit_mod_two_pow, Nat.testBit_and,
    show (0xff : UInt64).toNat = 2 ^ 8 - 1 from rfl,
    Nat.testBit_two_pow_sub_one, Nat.testBit_shiftRight]
  by_cases above : shift.toNat ≤ i
  · rw [show shift.toNat + (i - shift.toNat) = i by omega]
    grind
  · simp [above]

/-- `kcn_buf_get64` reads what `kcn_buf_put64` stores. -/
@[simp] theorem word64_bytes64 (value : UInt64) :
    word64 (bytes64 value) = value := by
  apply UInt64.toNat_inj.mp
  apply Nat.eq_of_testBit_eq
  intro i
  have low := testBit_place64 value 0 (by decide) i
  simp only [UInt64.shiftLeft_zero, UInt64.shiftRight_zero] at low
  simp only [word64, bytes64, octet, List.getD_cons_zero,
    List.getD_cons_succ, UInt64.toNat_or, Nat.testBit_or, low]
  rw [testBit_place64 _ _ (by decide), testBit_place64 _ _ (by decide),
    testBit_place64 _ _ (by decide), testBit_place64 _ _ (by decide),
    testBit_place64 _ _ (by decide), testBit_place64 _ _ (by decide),
    testBit_place64 _ _ (by decide)]
  by_cases small : i < 64
  · cases value.toNat.testBit i <;> simp
    omega
  · have bound : value.toNat < 2 ^ i :=
      Nat.lt_of_lt_of_le value.toNat_lt
        (Nat.pow_le_pow_right (by decide) (by omega))
    simp [Nat.testBit_lt_two_pow bound]

/-- An octet put behind a number is added to it in its place. -/
theorem or_octet (high octet place : Nat) (small : octet < 256) :
    high * 2 ^ (place + 8) ||| octet * 2 ^ place =
      (high * 256 + octet) * 2 ^ place := by
  have bound : octet * 2 ^ place < 2 ^ (place + 8) := by
    rw [Nat.pow_add, Nat.mul_comm]
    exact Nat.mul_lt_mul_of_pos_left small (Nat.pow_pos (by decide))
  rw [Nat.mul_comm high, ← Nat.two_pow_add_eq_or_of_lt bound, Nat.pow_add]
  ring

theorem octet_lt (octet : UInt8) {place width : Nat}
    (low : place + 8 ≤ width) : octet.toNat * 2 ^ place < 2 ^ width := by
  have small : octet.toNat < 2 ^ 8 := octet.toNat_lt
  calc
    octet.toNat * 2 ^ place < 2 ^ 8 * 2 ^ place :=
      Nat.mul_lt_mul_of_pos_right small (Nat.pow_pos (by decide))
    _ = 2 ^ (place + 8) := by rw [Nat.pow_add, Nat.mul_comm]
    _ ≤ 2 ^ width := Nat.pow_le_pow_right (by decide) low

theorem toNat_place (octet : UInt8) (place : UInt64)
    (low : place.toNat ≤ 56) :
    (octet.toUInt64 <<< place).toNat = octet.toNat * 2 ^ place.toNat := by
  have bound : octet.toNat * 2 ^ place.toNat < 2 ^ 64 :=
    octet_lt octet (by omega)
  rw [UInt64.toNat_shiftLeft, UInt8.toNat_toUInt64,
    Nat.mod_eq_of_lt (by omega : place.toNat < 64),
    Nat.shiftLeft_eq, Nat.mod_eq_of_lt bound]

theorem toNat_word16 (a b : UInt8) :
    (word16 [a, b]).toNat = a.toNat * 256 + b.toNat := by
  have bound : a.toNat * 256 < 65536 :=
    octet_lt a (show 8 + 8 ≤ 16 by decide)
  simpa [word16, octet, Nat.shiftLeft_eq, Nat.mod_eq_of_lt bound] using
    or_octet a.toNat b.toNat 0 b.toNat_lt

theorem toNat_word32 (a b c d : UInt8) :
    (word32 [a, b, c, d]).toNat =
      ((a.toNat * 256 + b.toNat) * 256 + c.toNat) * 256 + d.toNat := by
  have boundA : a.toNat * 16777216 < 4294967296 :=
    octet_lt a (show 24 + 8 ≤ 32 by decide)
  have boundB : b.toNat * 65536 < 4294967296 :=
    octet_lt b (show 16 + 8 ≤ 32 by decide)
  have boundC : c.toNat * 256 < 4294967296 :=
    octet_lt c (show 8 + 8 ≤ 32 by decide)
  have value : (word32 [a, b, c, d]).toNat =
      a.toNat * 2 ^ (16 + 8) ||| b.toNat * 2 ^ (8 + 8) |||
        c.toNat * 2 ^ (0 + 8) ||| d.toNat * 2 ^ 0 := by
    simp [word32, octet, Nat.shiftLeft_eq, Nat.mod_eq_of_lt boundA,
      Nat.mod_eq_of_lt boundB, Nat.mod_eq_of_lt boundC]
  rw [value, or_octet _ _ 16 b.toNat_lt, or_octet _ _ 8 c.toNat_lt,
    or_octet _ _ 0 d.toNat_lt]
  simp

theorem toNat_word64 (a b c d e f g h : UInt8) :
    (word64 [a, b, c, d, e, f, g, h]).toNat =
      ((((((a.toNat * 256 + b.toNat) * 256 + c.toNat) * 256 +
        d.toNat) * 256 + e.toNat) * 256 + f.toNat) * 256 +
        g.toNat) * 256 + h.toNat := by
  have last : h.toUInt64.toNat = h.toNat * 2 ^ 0 := by simp
  simp only [word64, octet, List.getD_cons_zero, List.getD_cons_succ,
    UInt64.toNat_or, last]
  rw [toNat_place a 56 (by decide), toNat_place b 48 (by decide),
    toNat_place c 40 (by decide), toNat_place d 32 (by decide),
    toNat_place e 24 (by decide), toNat_place f 16 (by decide),
    toNat_place g 8 (by decide)]
  change
    a.toNat * 2 ^ (48 + 8) ||| b.toNat * 2 ^ (40 + 8) |||
      c.toNat * 2 ^ (32 + 8) ||| d.toNat * 2 ^ (24 + 8) |||
      e.toNat * 2 ^ (16 + 8) ||| f.toNat * 2 ^ (8 + 8) |||
      g.toNat * 2 ^ (0 + 8) ||| h.toNat * 2 ^ 0 = _
  rw [or_octet _ _ 48 b.toNat_lt, or_octet _ _ 40 c.toNat_lt,
    or_octet _ _ 32 d.toNat_lt, or_octet _ _ 24 e.toNat_lt,
    or_octet _ _ 16 f.toNat_lt, or_octet _ _ 8 g.toNat_lt,
    or_octet _ _ 0 h.toNat_lt]
  simp

/-- The octet of a word at a place is a digit to base 256. -/
theorem toNat_octet (value place : UInt64) :
    (((value >>> place) &&& 0xff).toUInt8).toNat =
      value.toNat / 2 ^ (place.toNat % 64) % 256 := by
  have mask : (0xff : UInt64).toNat = 2 ^ 8 - 1 := rfl
  rw [UInt64.toNat_toUInt8, UInt64.toNat_and, UInt64.toNat_shiftRight,
    mask, Nat.and_two_pow_sub_one_eq_mod, Nat.shiftRight_eq_div_pow]
  simp

/-- `kcn_buf_put64` stores what `kcn_buf_get64` has read. -/
theorem bytes64_word64
    {bytes : List UInt8} (length : bytes.length = 8) :
    bytes64 (word64 bytes) = bytes := by
  match bytes, length with
  | [a, b, c, d, e, f, g, h], _ =>
      have value := toNat_word64 a b c d e f g h
      have sa := a.toNat_lt
      have sb := b.toNat_lt
      have sc := c.toNat_lt
      have sd := d.toNat_lt
      have se := e.toNat_lt
      have sf := f.toNat_lt
      have sg := g.toNat_lt
      have sh := h.toNat_lt
      unfold bytes64
      generalize word64 [a, b, c, d, e, f, g, h] = word at value
      have low (mask : UInt64) :
          word &&& mask = (word >>> 0) &&& mask := by
        simp
      rw [low]
      simp only [List.cons.injEq, ← UInt8.toNat_inj, toNat_octet, value,
        and_true]
      simp
      omega

/-- `kcn_buf_put16` stores what `kcn_buf_get16` has read. -/
theorem bytes16_word16
    {bytes : List UInt8} (length : bytes.length = 2) :
    bytes16 (word16 bytes) = bytes := by
  match bytes, length with
  | [a, b], _ =>
      have value := toNat_word16 a b
      have sa := a.toNat_lt
      have sb := b.toNat_lt
      have mask : (0xff : UInt16).toNat = 2 ^ 8 - 1 := rfl
      unfold bytes16
      generalize word16 [a, b] = word at value
      simp only [List.cons.injEq, ← UInt8.toNat_inj, and_true,
        UInt16.toNat_toUInt8, UInt16.toNat_and, mask,
        Nat.and_two_pow_sub_one_eq_mod, UInt16.toNat_shiftRight,
        Nat.shiftRight_eq_div_pow, value]
      simp
      omega

/-- The get operations assemble numbers from big-endian strings. -/
theorem octet_eq {bytes : List UInt8} (length : bytes.length = 1) :
    (octet bytes 0).toNat = bigEndian bytes := by
  match bytes, length with
  | [a], _ => simp [bigEndian, octet]

theorem word16_eq {bytes : List UInt8} (length : bytes.length = 2) :
    (word16 bytes).toNat = bigEndian bytes := by
  match bytes, length with
  | [a, b], _ =>
      rw [toNat_word16]
      simp [bigEndian, Nat.mul_comm]

theorem word32_eq {bytes : List UInt8} (length : bytes.length = 4) :
    (word32 bytes).toNat = bigEndian bytes := by
  match bytes, length with
  | [a, b, c, d], _ =>
      rw [toNat_word32]
      simp [bigEndian, Nat.mul_comm]

theorem word64_eq {bytes : List UInt8} (length : bytes.length = 8) :
    (word64 bytes).toNat = bigEndian bytes := by
  match bytes, length with
  | [a, b, c, d, e, f, g, h], _ =>
      rw [toNat_word64]
      simp [bigEndian, Nat.mul_comm]

/-- The put operations store numbers as big-endian strings. -/
theorem bytes16_eq (v : UInt16) : bytes16 v = toBigEndian 2 v.toNat := by
  have mask : (0xff : UInt16).toNat = 2 ^ 8 - 1 := rfl
  simp only [bytes16, toBigEndian, List.cons.injEq, ← UInt8.toNat_inj,
    UInt16.toNat_toUInt8, UInt16.toNat_and, mask,
    Nat.and_two_pow_sub_one_eq_mod, UInt16.toNat_shiftRight,
    Nat.shiftRight_eq_div_pow, UInt8.toNat_ofNat']
  simp

theorem bytes32_eq (v : UInt32) : bytes32 v = toBigEndian 4 v.toNat := by
  have mask : (0xff : UInt32).toNat = 2 ^ 8 - 1 := rfl
  simp only [bytes32, toBigEndian, List.cons.injEq, ← UInt8.toNat_inj,
    UInt32.toNat_toUInt8, UInt32.toNat_and, mask,
    Nat.and_two_pow_sub_one_eq_mod, UInt32.toNat_shiftRight,
    Nat.shiftRight_eq_div_pow, UInt8.toNat_ofNat']
  simp

theorem bytes64_eq (v : UInt64) : bytes64 v = toBigEndian 8 v.toNat := by
  have mask : (0xff : UInt64).toNat = 2 ^ 8 - 1 := rfl
  simp only [bytes64, toBigEndian, List.cons.injEq, ← UInt8.toNat_inj,
    UInt64.toNat_toUInt8, UInt64.toNat_and, mask,
    Nat.and_two_pow_sub_one_eq_mod, UInt64.toNat_shiftRight,
    Nat.shiftRight_eq_div_pow, UInt8.toNat_ofNat']
  simp

@[simp] theorem length_bytes16 (value : UInt16) :
    (bytes16 value).length = 2 :=
  rfl

@[simp] theorem length_bytes64 (value : UInt64) :
    (bytes64 value).length = 8 :=
  rfl

end Kcn.KcnBuf
