import Kcn.FileRules

namespace Kcn.KcndbFile

open Program Bytes FileCtx KcnBuf

/-!
# A buffer as a window on its file

After a reset and a seek, the buffer of a file holds the bytes of the file
from the seek on, as far as they were read.  The cursor moves through them.
-/

/-- The data of the buffer are the bytes of the file from `base` on. -/
structure Window
    (file : KcndbFile) (base : Nat)
    (before after : List UInt8) : Prop where
  holds : file.kb.Holds kcndbFileBufsiz 0 before after
  data :
    before ++ after =
      slice file.content base (before.length + after.length)
  off_eq : file.off = base + (before.length + after.length)

namespace Window

variable
  {file : KcndbFile} {base : Nat} {before after : List UInt8}

/-- The data behind the cursor are the bytes of the file there. -/
theorem after_eq (window : file.Window base before after) :
    after =
      slice file.content (base + before.length) after.length := by
  have data := window.data
  rw [slice_add] at data
  have total := congrArg List.length window.data
  rw [List.length_append, length_slice] at total
  exact (List.append_inj data (by rw [length_slice]; omega)).2

/-- So is every part of them that starts at the cursor. -/
theorem take_after
    (window : file.Window base before after)
    {count : Nat} (bound : count ≤ after.length) :
    after.take count =
      slice file.content (base + before.length) count := by
  have whole := congrArg (List.take count) window.after_eq
  rw [slice, List.take_take, Nat.min_eq_left bound] at whole
  exact whole

/-- The data lie inside the file. -/
theorem inside
    (window : file.Window base before after)
    (nonempty : 0 < before.length + after.length) :
    base + (before.length + after.length) ≤ file.content.length := by
  have total := congrArg List.length window.data
  rw [List.length_append, length_slice] at total
  omega

end Window

variable {halt : Stop → Prop} {ctx : FileCtx}
  {base : Nat} {before after : List UInt8}

/-- `kcndb_file_ensure` widens the window. -/
theorem wp_ensure_window
    {post : Bool → FileCtx → Prop} {len : Nat}
    (window : ctx.file.Window base before after)
    (starved : halt .starved)
    (overflow : kcndbFileBufsiz < len → halt .assertion)
    (enough : ∀ ctx' taken new,
      ctx.env.Took Event.IsRead taken ctx'.env →
      Trace.Clean taken →
      ctx'.file.content = ctx.file.content →
      ctx'.file.Window base before (after ++ new) →
      len ≤ before.length + (after ++ new).length →
      new.length =
        Trace.moved
          (min
            (kcndbFileBufsiz - (before.length + after.length))
            (ctx.file.content.length -
              (base + (before.length + after.length))))
          taken →
      post true ctx')
    (ended : ∀ ctx' taken,
      ctx.env.Took Event.IsRead taken ctx'.env →
      Trace.Clean taken →
      ctx'.file.content = ctx.file.content →
      ctx.file.content.length < base + len →
      post false ctx')
    (failed : ∀ ctx' taken,
      ctx.env.Took Event.IsRead taken ctx'.env →
      ¬ Trace.Clean taken →
      ctx'.file.content = ctx.file.content →
      post false ctx') :
    wp (ensure len) post halt ctx := by
  have sizeEq := window.holds.size_eq
  have lenEq := window.holds.len_eq
  refine wp_ensure starved
    (fun short => overflow (by rw [← sizeEq]; exact short)) ?_
  intro ok ctx' taken new ensured
  have grown := ensured.grown
  obtain ⟨spEq, amount⟩ := ensured.moved window.holds.sp_eq
  have offEq := grown.off_eq
  rw [window.off_eq] at offEq
  have wider : ctx'.file.Window base before (after ++ new) := by
    refine ⟨⟨grown.size_eq.trans sizeEq, spEq,
      grown.before_eq.trans window.holds.before_eq, ?_⟩, ?_, ?_⟩
    · rw [grown.after_eq, window.holds.after_eq]
    · have newEq := grown.new_eq
      rw [window.off_eq] at newEq
      rw [List.length_append, ← Nat.add_assoc, slice_add,
        grown.content_eq, ← window.data, ← newEq,
        List.append_assoc]
    · rw [offEq, List.length_append]
      omega
  have lenEq' := wider.holds.len_eq
  cases ok with
  | true =>
      obtain ⟨clean, large⟩ := ensured.enough rfl
      rw [sizeEq, lenEq, window.off_eq] at amount
      exact enough ctx' taken new grown.took clean grown.content_eq
        wider (by omega) amount
  | false =>
      rcases ensured.short rfl with
          ⟨clean, _, atEnd⟩ | ⟨unclean, _⟩
      · refine ended ctx' taken grown.took clean grown.content_eq ?_
        have below := ensured.below rfl
        rw [grown.content_eq] at atEnd
        rw [List.length_append] at lenEq'
        omega
      · exact failed ctx' taken grown.took unclean grown.content_eq

/-- The window once the cursor passed `count` bytes. -/
theorem Window.advance
    {file : KcndbFile} (window : file.Window base before after)
    {count : Nat} (bound : count ≤ after.length)
    {kb : KcnBuf}
    (holds :
      kb.Holds kcndbFileBufsiz 0 (before ++ after.take count)
        (after.drop count)) :
    ({ file with kb := kb } : KcndbFile).Window base
      (before ++ after.take count) (after.drop count) := by
  have total :
      (before ++ after.take count).length +
          (after.drop count).length =
        before.length + after.length := by
    simp
    omega
  refine ⟨holds, ?_, ?_⟩
  · rw [total, ← window.data, List.append_assoc,
      List.take_append_drop]
  · rw [total]
    exact window.off_eq

variable {file : KcndbFile}

/-- The get operations read the file at the cursor. -/
theorem wp_window_fetch
    {post : List UInt8 → KcnBuf → Prop} {count : Nat}
    (window : file.Window base before after)
    (next : count ≤ after.length →
      ∀ kb,
        ({ file with kb := kb } : KcndbFile).Window base
          (before ++ after.take count) (after.drop count) →
        post (slice file.content (base + before.length) count) kb)
    (short : after.length < count → halt .assertion) :
    wp (fetch count) post halt file.kb := by
  refine wp_fetch window.holds ?_ short
  intro bound kb holds
  rw [window.take_after bound]
  exact next bound kb (window.advance bound holds)

/-- `kcn_buf_get16` -/
theorem wp_window_get16
    {post : UInt16 → KcnBuf → Prop}
    (window : file.Window base before after)
    (next : 2 ≤ after.length →
      ∀ kb,
        ({ file with kb := kb } : KcndbFile).Window base
          (before ++ after.take 2) (after.drop 2) →
        post (word16 (slice file.content (base + before.length) 2))
          kb)
    (short : after.length < 2 → halt .assertion) :
    wp get16 post halt file.kb := by
  unfold get16
  rw [wp_bind]
  exact wp_window_fetch window next short

/-- `kcn_buf_get64` -/
theorem wp_window_get64
    {post : UInt64 → KcnBuf → Prop}
    (window : file.Window base before after)
    (next : 8 ≤ after.length →
      ∀ kb,
        ({ file with kb := kb } : KcndbFile).Window base
          (before ++ after.take 8) (after.drop 8) →
        post (word64 (slice file.content (base + before.length) 8))
          kb)
    (short : after.length < 8 → halt .assertion) :
    wp get64 post halt file.kb := by
  unfold get64
  rw [wp_bind]
  exact wp_window_fetch window next short

/-- `kcn_buf_forward` -/
theorem wp_window_forward
    {post : Unit → KcnBuf → Prop} {count : Nat}
    (window : file.Window base before after)
    (next : count ≤ after.length →
      ∀ kb,
        ({ file with kb := kb } : KcndbFile).Window base
          (before ++ after.take count) (after.drop count) →
        post () kb)
    (short : after.length < count → halt .assertion) :
    wp (forward count) post halt file.kb := by
  refine wp_forward window.holds ?_ short
  intro bound kb holds
  exact next bound kb (window.advance bound holds)

end Kcn.KcndbFile
