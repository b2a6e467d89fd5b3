import Mathlib.Data.List.Forall2
import Kcn.Frames
import Kcn.Load
import Kcn.Parse

namespace Kcn

open Program Bytes KcnBuf NetCtx

/-!
# Both ways to send add messages

What `kcndbctl_msg_add_send` and `readfile` put into the output queue, for any
strings on the command line and any data in the file.
-/

namespace KcndbctlMsg

/--
`kcndbctl_msg_add_send` up to its event loop; false where it reports failure.
-/
def msgAddSend {δ : Type} (type : Nat) (v loc : List UInt8) :
    NetOp δ Bool :=
  match kcnStrtoull v 0 ullongMax with
  | .error _ => pure false
  | .ok ullv =>
      KcnClient.addSend {
        kmaType := type
        kmaTime := kcnTimeNow.toUInt64
        kmaVal := ullv
        kmaLoc := loc
      }

end KcndbctlMsg

/-- The server decodes the message to the given one. -/
def Carries (message : List UInt8) (kma : KcnMsgAdd) : Prop :=
  ∀ (ctx : MsgCtx) (size sp : Nat) (rest : List UInt8),
    ctx.kb.Holds size sp [] (message ++ rest) →
    ∃ kmh kb kb',
      KcnMsg.headerDecode ctx = .ok (some kmh, { ctx with kb := kb }) ∧
        kmh.kmhType = KcnMsgType.add.code ∧
        kmh.kmhLen ≤ kcnMsgMaxbodysiz ∧
        KcnMsg.addDecode kmh { ctx with kb := kb } =
          .ok (some kma, { ctx with kb := kb' }) ∧
        kb'.Holds size (sp + message.length) [] rest

/-- The frame of an add message that is not too long. -/
theorem carries_frame
    {kma : KcnMsgAdd}
    (type : kma.kmaType < 256)
    (short : kma.kmaLoc.length ≤ kcnMsgMaxlocsiz) :
    Carries (frame .add (addBody kma)) kma := by
  have fits : (addBody kma).length ≤ kcnMsgMaxbodysiz := by
    rw [length_addBody]
    exact Nat.add_le_of_le_sub' (by decide) short
  intro ctx size sp rest holds
  obtain ⟨kb, header, holds₁⟩ := KcnMsg.headerDecode_frame fits holds
  obtain ⟨kb', decoded, holds₂⟩ :=
    KcnMsg.addDecode_decodes type { ctx with kb := kb } size
      (sp + kcnMsgHdrsiz) rest holds₁
  refine ⟨_, kb, kb', header, rfl, fits, decoded, ?_⟩
  rw [length_frame, ← Nat.add_assoc]
  exact holds₂

variable {δ : Type} {ctx ctx' : NetCtx δ} {halt : Stop → Prop}

/-- The output buffer has the size of the longest message. -/
def Output (ctx : NetCtx δ) : Prop :=
  ctx.kn.knObufdata.kbdSize = kcnMsgMaxsiz

/-- The queue has the messages behind those that it had. -/
def Queues
    (ctx ctx' : NetCtx δ) (kmas : List KcnMsgAdd) : Prop :=
  ∃ kbds : List KcnBufData,
    ctx'.kn.knObufq = ctx.kn.knObufq ++ kbds ∧
      List.Forall₂ (fun kbd kma => Carries kbd.init.data kma) kbds kmas

/-- Failure is reported and nothing is queued, or the message is queued. -/
def Sent
    (ctx ctx' : NetCtx δ) (ok : Bool) (kma : KcnMsgAdd) : Prop :=
  ok = false ∧ Queues ctx ctx' [] ∨ Queues ctx ctx' [kma]

theorem Queues.refl (ctx : NetCtx δ) : Queues ctx ctx [] :=
  ⟨[], (List.append_nil _).symm, .nil⟩

/-- A message that is not too long is queued as its frame. -/
theorem wp_addSend_short
    {kma : KcnMsgAdd}
    (output : Output ctx)
    (starved : halt .starved)
    (type : kma.kmaType < 256)
    (short : kma.kmaLoc.length ≤ kcnMsgMaxlocsiz) :
    wp (KcnClient.addSend kma)
      (fun ok ctx' =>
        Sent ctx ctx' ok kma ∧ (ok = true → Queues ctx ctx' [kma]) ∧
          Output ctx')
      halt ctx := by
  have fits : (addBody kma).length ≤ kcnMsgMaxbodysiz := by
    rw [length_addBody]
    exact Nat.add_le_of_le_sub' (by decide) short
  unfold KcnClient.addSend
  rw [wp_bind]
  apply wp_encode (KcnMsg.addEncode_encodes kma) output fits
  intro kb sizeEq data
  have none : Queues ctx (obufLens.set ctx kb) [] := .refl ctx
  unfold KcnNet.write
  simp only [wp_bind, state, wp_gets]
  split
  · simp only [sys, NetIo.setErrno, wp_bind, wp_zoom, wp_modify, wp_pure]
    exact ⟨Or.inl ⟨rfl, none⟩, fun sent => (by cases sent), sizeEq⟩
  · simp only [KcnNet.enqueue, sys, wp_bind, wp_zoom]
    apply NetIo.wp_malloc_cases fun _ => starved
    · intro rest _
      simp only [if_true, wp_bind, setKn, wp_modify, wp_pure]
      have carries :
          Carries
            (KcnBufData.dup (KcnBufData.ofBuf kb).init).init.data kma := by
        rw [KcnBufData.data_dup, data]
        exact carries_frame type short
      have queues {answers : List NetAnswer} {evwrite : Bool}
          {env : Env} {queued : List (List UInt8)} :
          Queues ctx {
            (obufLens.set ctx kb) with
            kn := {
              (obufLens.set ctx kb).kn with
              knObufq :=
                ctx.kn.knObufq ++
                  [KcnBufData.dup (KcnBufData.ofBuf kb).init]
              evwrite := evwrite
            }
            io := {
              ctx.io with
              answers := answers
              env := env
              queued := queued
            }
          } [kma] :=
        ⟨_, rfl, .cons carries .nil⟩
      apply KcnNet.wp_writeEnable starved
      · intro _
        simp only [if_true, wp_bind, wp_modify, wp_pure]
        exact ⟨Or.inr queues, fun _ => queues, sizeEq⟩
      · intro env rest' _
        simp only [if_true, wp_bind, wp_modify, wp_pure]
        exact ⟨Or.inr queues, fun _ => queues, sizeEq⟩
      · intro error env rest' _
        rw [if_neg Bool.false_ne_true, wp_pure]
        exact ⟨Or.inr queues, fun sent => (by cases sent), sizeEq⟩
    · intro rest _
      exact ⟨Or.inl ⟨rfl, none⟩, fun sent => (by cases sent), sizeEq⟩

/-- A locator that is too long does not fit into the output buffer. -/
theorem wp_addSend_long
    {kma : KcnMsgAdd} {post : Bool → NetCtx δ → Prop}
    (output : Output ctx)
    (long : kcnMsgMaxlocsiz < kma.kmaLoc.length) :
    wp (KcnClient.addSend kma) post (fun reason => reason = .assertion)
      ctx := by
  have size : ctx.kn.knObufdata.init.size = kcnMsgMaxsiz := output
  have header : kcnMsgHdrsiz ≤ ctx.kn.knObufdata.init.size := by
    rw [size]
    decide
  unfold KcnClient.addSend KcnMsg.addEncode put8 put64 put
  simp only [wp_bind, wp_zoom]
  apply wp_reset (holds_self _) header
  intro kb₀ holds₀
  rw [size] at holds₀
  apply KcnMsg.wp_storeBody holds₀ (by simp [kcnMsgHdrsiz, kcnMsgMaxsiz])
  intro kb₁ holds₁
  apply KcnMsg.wp_storeBody holds₁ (by simp [kcnMsgHdrsiz, kcnMsgMaxsiz])
  intro kb₂ holds₂
  apply KcnMsg.wp_storeBody holds₂ (by simp [kcnMsgHdrsiz, kcnMsgMaxsiz])
  intro kb₃ holds₃
  apply wp_store holds₃
  · intro fits
    exfalso
    simp [kcnMsgHdrsiz, kcnMsgMaxsiz, kcnMsgMaxlocsiz, kcnMsgMaxbodysiz,
      kcnMsgAddMinsiz, kcnMsgResponseMinsiz] at fits long
    omega
  · intro _
    rfl

/-! ### The command line -/

namespace KcndbctlMsg

/-- What is sent for a command line with a value that is a number. -/
def addOf (type : Nat) (ullv : UInt64) (loc : List UInt8) : KcnMsgAdd where
  kmaType := type
  kmaTime := kcnTimeNow.toUInt64
  kmaVal := ullv
  kmaLoc := loc

/-- No assertion fails, and what is queued is decoded to what was given. -/
def Respects
    (type : Nat) (v loc : List UInt8) (ctx : NetCtx δ) : Prop :=
  wp (msgAddSend type v loc)
    (fun ok ctx' =>
      ok = false ∧ Queues ctx ctx' [] ∨
        ∃ ullv, kcnStrtoull v 0 ullongMax = .ok ullv ∧
          Queues ctx ctx' [addOf type ullv loc])
    (fun reason => reason = .starved) ctx

theorem respects_iff
    {type : Nat}
    (output : Output ctx)
    (typeBound : type < 256)
    (v loc : List UInt8) :
    Respects type v loc ctx ↔
      loc.length ≤ kcnMsgMaxlocsiz ∨
        ∃ error, kcnStrtoull v 0 ullongMax = .error error := by
  unfold Respects msgAddSend
  cases parsed : kcnStrtoull v 0 ullongMax with
  | error error =>
      constructor
      · intro _
        exact Or.inr ⟨error, rfl⟩
      · intro _
        exact Or.inl ⟨rfl, .refl ctx⟩
  | ok ullv =>
      constructor
      · intro respects
        by_contra neither
        obtain ⟨long, _⟩ := not_or.mp neither
        have fails :
            wp (KcnClient.addSend (addOf type ullv loc))
              (fun _ _ => False) (fun reason => reason = .assertion)
              ctx :=
          wp_addSend_long output (Nat.lt_of_not_le long)
        obtain ⟨reason, rfl, isAssertion⟩ := wp_clash respects fails
        cases isAssertion
      · rintro (short | ⟨error, refused⟩)
        · have typeBound' : (addOf type ullv loc).kmaType < 256 :=
            typeBound
          have sends :
              wp (KcnClient.addSend (addOf type ullv loc)) _
                (fun reason => reason = .starved) ctx :=
            wp_addSend_short output rfl typeBound' short
          apply wp_imp sends
          rintro ok ctx' ⟨⟨rfl, none⟩ | queues, _, _⟩
          · exact Or.inl ⟨rfl, none⟩
          · exact Or.inr ⟨ullv, rfl, queues⟩
        · cases refused

end KcndbctlMsg

/-! ### The file -/

namespace KcndbctlFile

open KcnFile

/--
The lines at the head of the data are sent one after the other: each message
is queued and decoded to what the parser makes of its line.
-/
inductive Lines (type : Nat) :
    NetCtx Unit → List UInt8 → List KcnMsgAdd → List UInt8 →
      NetCtx Unit → Prop where
  | nil (kn : NetCtx Unit) (data : List UInt8) :
      Lines type kn data [] data kn
  | cons
      {kn kn₁ kn' : NetCtx Unit} {data later rest : List UInt8}
      {kma : KcnMsgAdd} {kmas : List KcnMsgAdd} :
      fieldsOf type data = .ok (kma, later) →
      KcnClient.addSend kma kn = .ok (true, kn₁) →
      Queues kn kn₁ [kma] →
      Lines type kn₁ later kmas rest kn' →
      Lines type kn data (kma :: kmas) rest kn'

/--
The line behind those that are sent is refused: the parser does not accept it,
or `kcn_client_add_send` reports failure.
-/
inductive Refuses (type : Nat) (kn : NetCtx Unit) (data : List UInt8) :
    Stop → Prop where
  | invalidField
      (kmas : List KcnMsgAdd) (rest : List UInt8) (kn' : NetCtx Unit)
      (error : Errno) :
      Lines type kn data kmas rest kn' →
      fieldsOf type rest = .error error →
      error ≠ Errno.eagain →
      Refuses type kn data .invalidField
  | notSent
      (kmas : List KcnMsgAdd) (rest later : List UInt8)
      (kn' kn'' : NetCtx Unit) (kma : KcnMsgAdd) :
      Lines type kn data kmas rest kn' →
      fieldsOf type rest = .ok (kma, later) →
      KcnClient.addSend kma kn' = .ok (false, kn'') →
      Sent kn' kn'' false kma →
      Refuses type kn data .notSent
  | starved : Refuses type kn data .starved

theorem Refuses.cons
    {type : Nat} {kn kn₁ : NetCtx Unit} {data later : List UInt8}
    {kma : KcnMsgAdd} {reason : Stop}
    (parsed : fieldsOf type data = .ok (kma, later))
    (sent : KcnClient.addSend kma kn = .ok (true, kn₁))
    (queues : Queues kn kn₁ [kma])
    (refuses : Refuses type kn₁ later reason) :
    Refuses type kn data reason := by
  cases refuses with
  | invalidField kmas rest kn' error lines failed other =>
      exact .invalidField (kma :: kmas) rest kn' error
        (.cons parsed sent queues lines) failed other
  | notSent kmas rest later' kn' kn'' kma' lines parsed' unsent nothing =>
      exact .notSent (kma :: kmas) rest later' kn' kn'' kma'
        (.cons parsed sent queues lines) parsed' unsent nothing
  | starved =>
      exact .starved

/--
Why no more lines are sent: more of the file is unread and the rest is shorter
than a message, or the rest is no complete line.  The rest stays in the buffer,
unless it is no complete line and has a blank.
-/
inductive Left
    (type unread : Nat) (rest : List UInt8) (kf' : KcnFile) : Prop where
  | waits :
      0 < unread →
      rest.length < kcnMsgMaxsiz →
      kf'.kfFile.file.kb.data = rest →
      Left type unread rest kf'
  | cut :
      fieldsOf type rest = .error Errno.eagain →
      ((∀ c ∈ rest, isspace c = false) →
        kf'.kfFile.file.kb.data = rest) →
      Left type unread rest kf'

/-- Between two calls the cursor is at the start and the counter is right. -/
structure Boundary (kf : KcnFile) : Prop where
  before_eq : kf.kfFile.file.kb.before = []
  counter :
    kf.kfSize = kf.kfFile.file.kb.len + (unreadOf kf).length

/-- The bytes of the file that a call reads. -/
def Next (kf : KcnFile) (new : List UInt8) : Prop :=
  new = slice kf.kfFile.file.content kf.kfFile.file.off new.length

/--
A call that returns: nothing is read as the read fails or the file is at its
end, or all complete lines of the data with what is read next are sent.
-/
inductive Reads (kf : KcnFile) (again : Bool) (kf' : KcnFile) : Prop where
  | failed :
      again = true →
      ¬ kf.kfFile.env.trace.Clean →
      kf'.kfKn = kf.kfKn →
      kf'.kfFile.file.kb.data = kf.kfFile.file.kb.data →
      Reads kf again kf'
  | ended :
      again = false →
      unreadOf kf = [] →
      kf'.kfKn = kf.kfKn →
      kf'.kfFile.file.kb.data = kf.kfFile.file.kb.data →
      Reads kf again kf'
  | lines (new : List UInt8) (kmas : List KcnMsgAdd) (rest : List UInt8) :
      again = true →
      new ≠ [] →
      Next kf new →
      Lines kf.kfType kf.kfKn (kf.kfFile.file.kb.data ++ new) kmas rest
        kf'.kfKn →
      Left kf.kfType (unreadOf kf').length rest kf' →
      Reads kf again kf'

/-- A call that gives up, with what was sent before. -/
def Reported (kf : KcnFile) (reason : Stop) : Prop :=
  ∃ new, Next kf new ∧
    Refuses kf.kfType kf.kfKn (kf.kfFile.file.kb.data ++ new) reason

/--
No assertion fails: a call sends the lines that are complete, each message
being decoded to its line, and is at a boundary again, or it reports a line
that is refused.
-/
def Respects (kf : KcnFile) : Prop :=
  wp (readfile true)
    (fun again kf' =>
      Reads kf again kf' ∧ Boundary kf' ∧ Output kf'.kfKn ∧
        kf'.kfType = kf.kfType)
    (Reported kf) kf

variable {kf : KcnFile} {data : List UInt8} {size sp rounds : Nat}

/-- What the loop over the lines does to the data. -/
structure Looped
    (kf : KcnFile) (data : List UInt8) (kmas : List KcnMsgAdd)
    (rest : List UInt8) (kf' : KcnFile) : Prop where
  aside : Aside kf kf'
  before_eq : kf'.kfFile.file.kb.before = []
  output : Output kf'.kfKn
  lines : Lines kf.kfType kf.kfKn data kmas rest kf'.kfKn
  left : Left kf.kfType kf.kfSize rest kf'

/-- A buffer with the cursor at its start. -/
theorem data_of_holds {kb : KcnBuf}
    (holds : kb.Holds size sp [] data) : kb.data = data := by
  rw [holds.data_eq, List.nil_append]

/-- The attempt to parse a line that is not complete ends the loop. -/
theorem wp_start_cut
    {kb₁ : KcnBuf} {before : List UInt8} {halt : Stop → Prop}
    (output : Output kf.kfKn)
    (parsed : fieldsOf kf.kfType data = .error Errno.eagain)
    (holds₁ : kb₁.Holds size sp before [])
    (same : (∀ c ∈ data, isspace c = false) → before = data) :
    wp (zoom kbLens KcnBuf.start)
      (fun _ kf' => ∃ kmas rest, Looped kf data kmas rest kf')
      halt (kbLens.set kf kb₁) := by
  rw [wp_zoom]
  apply wp_start holds₁
  intro kb₂ holds₂
  rw [List.append_nil] at holds₂
  refine ⟨[], data, ⟨rfl, rfl, rfl, rfl, rfl⟩, holds₂.before_eq, output,
    .nil _ _, .cut parsed fun noBlank => ?_⟩
  exact (data_of_holds holds₂).trans (same noBlank)

/-- Each line in the buffer is queued as it is parsed. -/
theorem wp_lineLoop_any
    (holds : kf.kfFile.file.kb.Holds size sp [] data)
    (output : Output kf.kfKn)
    (type : kf.kfType < 256)
    (bound : data.length < rounds) :
    wp (lineLoop rounds)
      (fun _ kf' => ∃ kmas rest, Looped kf data kmas rest kf')
      (Refuses kf.kfType kf.kfKn data) kf := by
  induction rounds generalizing kf data sp with
  | zero =>
      exact absurd bound (Nat.not_lt_zero _)
  | succ rounds inductionHypothesis =>
      have lenEq : kf.kfFile.file.kb.len = data.length := by
        rw [holds.len_eq, List.length_nil, Nat.zero_add]
      unfold lineLoop
      rw [wp_bind, wp_gets, id]
      split
      · rw [wp_bind, wp_zoom]
        apply wp_imp (wp_fields_of kf.kfType holds)
        rintro result kb₁ ⟨rfl, leaves⟩
        generalize parsed : fieldsOf kf.kfType data = whole at leaves
        cases leaves with
        | parsed kma taken later typeEq short shorter holds₁ =>
            simp only [Except.map, wp_bind, wp_zoom]
            have type' : kma.kmaType < 256 := typeEq ▸ type
            apply wp_imp
              (wp_returned (wp_addSend_short output .starved type' short))
            rintro ok kn' ⟨⟨sent, queues, output'⟩, returned⟩
            cases ok with
            | false =>
                rw [if_neg Bool.false_ne_true]
                exact .notSent [] data later kf.kfKn kn' kma (.nil _ _)
                  parsed returned sent
            | true =>
                rw [if_pos rfl]
                simp only [wp_bind, wp_modify, wp_gets, wp_zoom]
                have heading : kb₁.headingdata = taken.length :=
                  holds₁.headingdata_eq
                simp only [KcnFile.knLens, kbLens, heading]
                apply wp_trimHead_headingdata holds₁
                intro kb₂ holds₂
                refine wp_mono
                  (inductionHypothesis holds₂ output' type
                    (Nat.lt_of_lt_of_le shorter
                      (Nat.le_of_lt_succ bound))) ?_ ?_
                · rintro _ kf' ⟨kmas, rest, looped⟩
                  have aside := looped.aside
                  exact ⟨kma :: kmas, rest,
                    ⟨aside.type_eq, aside.size_eq, aside.content_eq,
                      aside.off_eq, aside.env_eq⟩,
                    looped.before_eq, looped.output,
                    .cons parsed returned (queues rfl) looped.lines,
                    looped.left⟩
                · intro reason refuses
                  exact refuses.cons parsed returned (queues rfl)
        | untouched graphs holds₁ =>
            simp only [Except.map, ne_eq, not_true_eq_false, if_false]
            exact wp_start_cut output parsed holds₁ fun _ => rfl
        | touched word c later left dataEq space holds₁ =>
            simp only [Except.map, ne_eq, not_true_eq_false, if_false]
            apply wp_start_cut output parsed holds₁
            intro noBlank
            have blank := noBlank c (by simp [dataEq])
            rw [space] at blank
            cases blank
        | failed error other =>
            simp only [Except.map, ne_eq, other, not_false_eq_true,
              if_true]
            exact .invalidField [] data kf.kfKn error (.nil _ _) parsed
              other
      · rename_i waits
        obtain ⟨more, few⟩ := not_or.mp waits
        refine ⟨[], data, Aside.refl kf, holds.before_eq, output,
          .nil _ _, .waits (Nat.pos_of_ne_zero more) ?_
            (data_of_holds holds)⟩
        exact lenEq ▸ Nat.lt_of_not_le few

/-- `readfile` behind its read, with what was read. -/
theorem wp_taken_any
    (boundary : Boundary kf)
    (holds : kf.kfFile.file.kb.Holds size sp [] data)
    (output : Output kf.kfKn)
    (type : kf.kfType < 256) :
    wp taken
      (fun again kf' => again = true ∧ Boundary kf' ∧
        Output kf'.kfKn ∧ kf'.kfType = kf.kfType ∧
        ∃ kmas rest,
          Lines kf.kfType kf.kfKn data kmas rest kf'.kfKn ∧
            Left kf.kfType (unreadOf kf').length rest kf')
      (Refuses kf.kfType kf.kfKn data) kf := by
  have lenEq : kf.kfFile.file.kb.len = data.length := by
    rw [holds.len_eq, List.length_nil, Nat.zero_add]
  have enough : ¬ kf.kfSize < kf.kfFile.file.kb.len := by
    rw [boundary.counter]
    omega
  have unread :
      kf.kfSize - kf.kfFile.file.kb.len = (unreadOf kf).length := by
    rw [boundary.counter, Nat.add_sub_cancel_left]
  unfold taken
  simp only [wp_bind, wp_gets, if_neg enough, wp_modify, wp_pure]
  have bound : data.length < kf.kfFile.file.kb.len + 1 :=
    Nat.lt_succ_of_le (Nat.le_of_eq lenEq.symm)
  have holds' :
      ({ kf with kfSize := kf.kfSize - kf.kfFile.file.kb.len } :
          KcnFile).kfFile.file.kb.Holds size sp [] data :=
    holds
  apply wp_imp (wp_lineLoop_any holds' output type bound)
  rintro _ kf' ⟨kmas, rest, looped⟩
  have aside := looped.aside
  have same : (unreadOf kf').length = (unreadOf kf).length := by
    rw [unreadOf, unreadOf, aside.content_eq, aside.off_eq]
  refine ⟨trivial, ⟨looped.before_eq, ?_⟩, looped.output, aside.type_eq,
    kmas, rest, looped.lines, ?_⟩
  · show kf'.kfSize + kf'.kfFile.file.kb.len =
      kf'.kfFile.file.kb.len + (unreadOf kf').length
    rw [aside.size_eq, same, ← unread, Nat.add_comm]
  · have left : Left kf.kfType (unreadOf kf').length rest kf' := by
      rw [same, ← unread]
      exact looped.left
    cases left with
    | waits more few dataEq =>
        exact .waits more few dataEq
    | cut parsed dataEq =>
        exact .cut parsed dataEq

/-- The data that is read moves the boundary. -/
theorem Boundary.grown
    {taken : Trace} {new : List UInt8} {part : FileCtx}
    (boundary : Boundary kf)
    (grown : KcndbFile.Grown kf.kfFile taken new part) :
    Boundary (fileLens.set kf part) ∧
      part.file.kb.data = kf.kfFile.file.kb.data ++ new := by
  have beforeEq := boundary.before_eq
  have sizes := congrArg List.length grown.new_eq
  rw [length_slice] at sizes
  refine ⟨⟨grown.before_eq.trans beforeEq, ?_⟩, ?_⟩
  · have counter := boundary.counter
    have lenEq := grown.len_eq
    have unread :
        (unreadOf (fileLens.set kf part)).length + new.length =
          (unreadOf kf).length := by
      simp only [unreadOf, fileLens, List.length_drop, grown.content_eq,
        grown.off_eq]
      omega
    show kf.kfSize = part.file.kb.len + _
    omega
  · rw [data_eq, data_eq, grown.before_eq, grown.after_eq,
      List.append_assoc]

/-- A read that brings nothing leaves the boundary and the data. -/
theorem Boundary.idle
    {taken : Trace} {part : FileCtx}
    (boundary : Boundary kf)
    (grown : KcndbFile.Grown kf.kfFile taken [] part) :
    Boundary (fileLens.set kf part) ∧
      (fileLens.set kf part).kfFile.file.kb.data =
        kf.kfFile.file.kb.data := by
  obtain ⟨boundary', dataEq⟩ := boundary.grown grown
  rw [List.append_nil] at dataEq
  exact ⟨boundary', dataEq⟩

/-- A call that has room in its buffer. -/
theorem Boundary.respects
    (boundary : Boundary kf)
    (output : Output kf.kfKn)
    (type : kf.kfType < 256)
    (room : kf.kfFile.file.kb.len < kf.kfFile.file.kb.size) :
    Respects kf := by
  have nothing : Next kf [] := by simp [Next]
  unfold Respects readfile
  rw [if_pos rfl, wp_bind, wp_zoom]
  apply KcndbFile.wp_bufRead ⟨[], nothing, .starved⟩
  · intro full
    exact absurd full (Nat.ne_of_lt room)
  · intro error part result _
    cases result with
    | failed taken error grown unclean _ =>
        obtain ⟨boundary', dataEq⟩ := boundary.idle grown
        rw [if_neg error.errno_ne_zero]
        refine ⟨.failed ?_ ?_ rfl dataEq, boundary', output, rfl⟩
        · exact decide_eq_true error.errno_ne_eshutdown
        · intro clean
          have split : kf.kfFile.env.trace = taken ++ part.env.trace :=
            grown.took.trace_eq
          rw [split, Trace.clean_append] at clean
          exact unclean clean.1
    | ended taken grown _ atEnd =>
        obtain ⟨boundary', dataEq⟩ := boundary.idle grown
        rw [if_neg (by decide)]
        exact ⟨.ended rfl (List.drop_eq_nil_of_le atEnd) rfl dataEq,
          boundary', output, rfl⟩
    | got taken new grown _ some _ =>
        rw [if_pos rfl]
        obtain ⟨boundary', dataEq⟩ := boundary.grown grown
        have holds :
            (fileLens.set kf part).kfFile.file.kb.Holds
              part.file.kb.size part.file.kb.sp []
              (kf.kfFile.file.kb.data ++ new) := by
          refine ⟨rfl, rfl, boundary'.before_eq, ?_⟩
          have split := data_eq part.file.kb
          have beforeEq : part.file.kb.before = [] :=
            boundary'.before_eq
          rw [beforeEq, List.nil_append] at split
          exact split.symm.trans dataEq
        apply wp_mono (wp_taken_any boundary' holds output type)
        · rintro again kf' ⟨isAgain, boundary'', output', typeEq, kmas,
            rest, lines, left⟩
          exact ⟨.lines new kmas rest isAgain some grown.new_eq lines left,
            boundary'', output', typeEq⟩
        · intro reason refuses
          exact ⟨new, grown.new_eq, refuses⟩

theorem respects_iff
    (boundary : Boundary kf)
    (output : Output kf.kfKn)
    (type : kf.kfType < 256) :
    Respects kf ↔ kf.kfFile.file.kb.len < kf.kfFile.file.kb.size := by
  constructor
  · intro respects
    by_contra noRoom
    have fails :
        wp (readfile true) (fun _ _ => False)
          (fun reason => reason = .assertion) kf := by
      unfold readfile
      rw [if_pos rfl, wp_bind, wp_zoom]
      exact wp_bufRead_full rfl (Nat.le_of_not_lt noRoom)
    obtain ⟨reason, ⟨_, _, refuses⟩, rfl⟩ := wp_clash respects fails
    cases refuses
  · exact boundary.respects output type

end KcndbctlFile

open KcndbctlFile in
/-- The file `1 1 a` with a newline, which one read brings. -/
def oneLineFile : KcnFile :=
  opened 1 [0x31, 0x20, 0x31, 0x20, 0x61, 0x0a] [0, 0, 0, 0, 0, 0]
    { errno := 0, trace := [.read .full] } (KcndbctlFile.loader 1)

/-- One message was queued, and nothing is left in the buffer. -/
def showsSent
    (result : Except Stop (Bool × KcndbctlFile.KcnFile)) : Bool :=
  match result with
  | .ok (again, kf') =>
      again && kf'.kfKn.kn.knObufq.length == 1 &&
        kf'.kfFile.file.kb.data == []
  | .error _ => false

end Kcn
