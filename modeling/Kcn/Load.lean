import Kcn.Fields
import Kcn.Results

namespace Kcn

open Program Bytes KcnBuf NetCtx

/-!
# What is sent for a file

A file is loaded completely, however it is read, if and only if each of its
lines ends with a newline and fits into `KCN_MSG_MAXSIZ` bytes.
-/

/-- A file of lines; `last` has no newline. -/
structure TextFile where
  lines : List Line
  last : Option Line

namespace TextFile

/-- The bytes of lines that end with newlines and of a last one. -/
def textOf (lines : List Line) (last : Option Line) : List UInt8 :=
  (lines.map Line.full).flatten ++ (last.map Line.text).getD []

/-- The bytes of a file. -/
def content (file : TextFile) : List UInt8 :=
  textOf file.lines file.last

/-- All lines of a file. -/
def all (file : TextFile) : List Line :=
  file.lines ++ file.last.toList

/-- The file has lines, which all end with newlines and are short. -/
structure Loadable (file : TextFile) : Prop where
  nonempty : file.lines ≠ []
  terminated : file.last = none
  short : ∀ line ∈ file.lines, line.full.length ≤ kcnMsgMaxsiz

end TextFile

namespace Line

/-- The bytes of the message that is to be sent for a line. -/
def message (type : Nat) (line : Line) : List UInt8 :=
  frame .add (addBody (line.add type))

end Line

namespace KcndbctlFile

open TextFile KcnFile

/-! ### Sending -/

/-- The connection is alive, and there is memory for some messages. -/
structure CanSend (count : Nat) (kn : NetCtx Unit) : Prop where
  alive : kn.kn.knState ≠ .disconnected
  armed : kn.kn.evwrite = true
  output : kn.kn.knObufdata.kbdSize = kcnMsgMaxsiz
  memory : List.replicate count (.malloc true) <+: kn.io.answers

/-- The message of a line is queued. -/
theorem wp_addSend
    {halt : Stop → Prop} {count : Nat} {kn : NetCtx Unit}
    (canSend : CanSend (count + 1) kn)
    (line : Line) (type : Nat) :
    wp (KcnClient.addSend (line.add type))
      (fun ok kn' =>
        ok = true ∧ CanSend count kn' ∧
          kn'.io.queued = kn.io.queued ++ [line.message type])
      halt kn := by
  have fits : (addBody (line.add type)).length ≤ kcnMsgMaxbodysiz := by
    have short := line.loc_le
    rw [length_addBody]
    unfold kcnMsgMaxlocsiz at short
    unfold kcnMsgAddMinsiz kcnMsgResponseMinsiz kcnMsgMaxbodysiz
      kcnMsgMaxsiz kcnMsgHdrsiz at *
    simp only [Line.add]
    omega
  unfold KcnClient.addSend
  rw [wp_bind]
  apply wp_encode (KcnMsg.addEncode_encodes _) canSend.output fits
  intro kb sizeEq data
  obtain ⟨rest, answers⟩ := canSend.memory
  have answered :
      kn.io.answers =
        .malloc true :: (List.replicate count (.malloc true) ++ rest) :=
    answers.symm
  unfold KcnNet.write
  simp only [wp_bind, state, wp_gets]
  rw [if_neg (show (obufLens.set kn kb).kn.knState ≠ _ from canSend.alive)]
  simp only [KcnNet.enqueue, sys, wp_bind, wp_zoom]
  apply NetIo.wp_malloc_cases
  · intro missing
    exact absurd answered (missing _ _)
  · intro rest' granted
    have restEq :
        rest' = List.replicate count (.malloc true) ++ rest :=
      (List.cons.inj (granted.symm.trans answered)).2
    simp only [↓reduceIte, wp_bind, setKn, wp_modify, wp_pure]
    have armed : kn.kn.evwrite = true := canSend.armed
    simp only [KcnNet.writeEnable, wp_bind, wp_gets, obufLens, armed]
    refine ⟨rfl, ?_, ?_⟩
    · exact {
        alive := canSend.alive
        armed := rfl
        output := sizeEq
        memory := ⟨rest, restEq.symm⟩
      }
    · exact congrArg (fun message => kn.io.queued ++ [message]) data
  · intro rest' refused
    cases refused.symm.trans answered

/-! ### The lines in the buffer -/

/-- What the loop over the lines leaves alone. -/
structure Aside (kf kf' : KcnFile) : Prop where
  type_eq : kf'.kfType = kf.kfType
  size_eq : kf'.kfSize = kf.kfSize
  content_eq : kf'.kfFile.file.content = kf.kfFile.file.content
  off_eq : kf'.kfFile.file.off = kf.kfFile.file.off
  env_eq : kf'.kfFile.env = kf.kfFile.env

/-- The first lines in the buffer are sent. -/
structure Parsed
    (kf : KcnFile) (bytes : List UInt8) (lines : List Line)
    (last : Option Line) (done later : List Line) (rest : List UInt8)
    (kf' : KcnFile) : Prop where
  aside : Aside kf kf'
  lines_eq : lines = done ++ later
  bytes_eq : bytes = (done.map Line.full).flatten ++ rest
  canSend : CanSend (later ++ last.toList).length kf'.kfKn
  queued_eq :
    kf'.kfKn.io.queued =
      kf.kfKn.io.queued ++ done.map (Line.message kf.kfType)

/-- How the loop over the lines ends. -/
inductive Outcome
    (kf : KcnFile) (size : Nat) (bytes unread : List UInt8)
    (lines : List Line) (last : Option Line) (kf' : KcnFile) : Prop where
  | waits (done later : List Line) (rest : List UInt8) (sp : Nat) :
      Parsed kf bytes lines last done later rest kf' →
      unread ≠ [] →
      rest.length < kcnMsgMaxsiz →
      kf'.kfFile.file.kb.Holds size sp [] rest →
      Outcome kf size bytes unread lines last kf'
  | drained (sp : Nat) :
      Parsed kf bytes lines last lines [] [] kf' →
      last = none →
      unread = [] →
      kf'.kfFile.file.kb.Holds size sp [] [] →
      Outcome kf size bytes unread lines last kf'
  | cut
      (done later : List Line) (rest left : List UInt8) (line : Line)
      (sp : Nat) :
      Parsed kf bytes lines last done later rest kf' →
      (later ++ last.toList).head? = some line →
      rest <+: line.text →
      (unread = [] ∨ kcnMsgMaxsiz ≤ rest.length) →
      Cut line rest left →
      left.length = rest.length →
      kf'.kfFile.file.kb.Holds size sp [] left →
      Outcome kf size bytes unread lines last kf'

variable
  {size sp : Nat} {halt : Stop → Prop}
  {kf kf₁ kf' : KcnFile} {bytes unread : List UInt8}
  {lines later done : List Line} {last : Option Line} {line : Line}

theorem Aside.refl (kf : KcnFile) : Aside kf kf :=
  ⟨rfl, rfl, rfl, rfl, rfl⟩

theorem Aside.trans (first : Aside kf kf₁) (second : Aside kf₁ kf') :
    Aside kf kf' where
  type_eq := second.type_eq.trans first.type_eq
  size_eq := second.size_eq.trans first.size_eq
  content_eq := second.content_eq.trans first.content_eq
  off_eq := second.off_eq.trans first.off_eq
  env_eq := second.env_eq.trans first.env_eq

/-- Nothing is sent yet. -/
theorem Parsed.nil
    (aside : Aside kf kf')
    (canSend : CanSend (lines ++ last.toList).length kf.kfKn)
    (same : kf'.kfKn = kf.kfKn) :
    Parsed kf bytes lines last [] lines bytes kf' where
  aside := aside
  lines_eq := rfl
  bytes_eq := rfl
  canSend := same ▸ canSend
  queued_eq := by
    rw [same, List.map_nil, List.append_nil]

/-- A line is sent before the others. -/
theorem Parsed.cons
    {rest : List UInt8}
    (aside : Aside kf kf₁)
    (sent :
      kf₁.kfKn.io.queued =
        kf.kfKn.io.queued ++ [line.message kf.kfType])
    (parsed : Parsed kf₁ bytes lines last done later rest kf') :
    Parsed kf (line.full ++ bytes) (line :: lines) last (line :: done)
      later rest kf' where
  aside := aside.trans parsed.aside
  lines_eq := congrArg (line :: ·) parsed.lines_eq
  bytes_eq := by
    rw [List.map_cons, List.flatten_cons, List.append_assoc,
      ← parsed.bytes_eq]
  canSend := parsed.canSend
  queued_eq := by
    rw [parsed.queued_eq, sent, aside.type_eq, List.append_assoc]
    rfl

theorem Outcome.cons
    (aside : Aside kf kf₁)
    (sent :
      kf₁.kfKn.io.queued =
        kf.kfKn.io.queued ++ [line.message kf.kfType])
    (outcome : Outcome kf₁ size bytes unread lines last kf') :
    Outcome kf size (line.full ++ bytes) unread (line :: lines) last
      kf' := by
  cases outcome with
  | waits done later rest sp parsed more few holds =>
      exact .waits _ later rest sp (parsed.cons aside sent) more few
        holds
  | drained sp parsed isNone empty holds =>
      exact .drained sp (parsed.cons aside sent) isNone empty holds
  | cut done later rest left line' sp parsed head inside why shape
      lengthEq holds =>
      exact .cut _ later rest left line' sp (parsed.cons aside sent)
        head inside why shape lengthEq holds

/-- The data in the buffer is the head of the first line, or has it all. -/
theorem head_of_textOf
    (text : bytes ++ unread = textOf (line :: lines) last) :
    (∃ rest, bytes = line.full ++ rest ∧
        rest ++ unread = textOf lines last) ∨
      bytes <+: line.text := by
  have split :
      bytes ++ unread =
        line.text ++ (Line.newline :: textOf lines last) := by
    rw [text]
    simp [textOf, Line.full]
  rcases prefix_append_cases ⟨unread, split⟩ with
    inside | ⟨rest, rfl, _⟩
  · exact Or.inr inside
  · apply Or.inl
    refine ⟨rest, by simp [Line.full], ?_⟩
    rw [List.append_assoc, List.cons_append] at split
    have tail := List.append_cancel_left split
    exact (List.cons.inj tail).2

theorem Outcome.aside
    (outcome : Outcome kf size bytes unread lines last kf') :
    Aside kf kf' := by
  cases outcome with
  | waits _ _ _ _ parsed _ _ _ =>
      exact parsed.aside
  | drained _ parsed _ _ _ =>
      exact parsed.aside
  | cut _ _ _ _ _ _ parsed _ _ _ _ _ _ =>
      exact parsed.aside

/-- A line that is not complete ends the loop. -/
theorem wp_lineLoop_cut
    {rounds : Nat}
    (holds : kf.kfFile.file.kb.Holds size sp [] bytes)
    (cond : kf.kfSize = 0 ∨ kcnMsgMaxsiz ≤ bytes.length)
    (inside : bytes <+: line.text)
    (next : ∀ left kb',
      Cut line bytes left →
      left.length = bytes.length →
      kb'.Holds size sp [] left →
      post () (kbLens.set kf kb')) :
    wp (lineLoop (rounds + 1)) post halt kf := by
  have enters :
      kf.kfSize = 0 ∨ kcnMsgMaxsiz ≤ kf.kfFile.file.kb.len := by
    rw [holds.len_eq, List.length_nil, Nat.zero_add]
    exact cond
  unfold lineLoop
  rw [wp_bind, wp_gets, id, if_pos enters, wp_bind, wp_zoom]
  apply wp_fields_again kf.kfType inside holds
  intro left kb₁ shape lengthEq holds₁
  simp only [ne_eq, not_true_eq_false, if_false]
  rw [wp_zoom]
  apply wp_start holds₁
  intro kb₂ holds₂
  rw [List.append_nil] at holds₂
  exact next left kb₂ shape lengthEq holds₂

/-- A line that is complete is sent, and the loop goes on behind it. -/
theorem wp_lineLoop_line
    {rounds count : Nat} {rest : List UInt8}
    (holds : kf.kfFile.file.kb.Holds size sp [] (line.full ++ rest))
    (cond :
      kf.kfSize = 0 ∨ kcnMsgMaxsiz ≤ (line.full ++ rest).length)
    (canSend : CanSend (count + 1) kf.kfKn)
    {post : Unit → KcnFile → Prop}
    (next : ∀ kf₁ sp₁,
      Aside kf kf₁ →
      CanSend count kf₁.kfKn →
      kf₁.kfKn.io.queued =
        kf.kfKn.io.queued ++ [line.message kf.kfType] →
      kf₁.kfFile.file.kb.Holds size sp₁ [] rest →
      wp (lineLoop rounds) post halt kf₁) :
    wp (lineLoop (rounds + 1)) post halt kf := by
  have enters :
      kf.kfSize = 0 ∨ kcnMsgMaxsiz ≤ kf.kfFile.file.kb.len := by
    rw [holds.len_eq, List.length_nil, Nat.zero_add]
    exact cond
  unfold lineLoop
  rw [wp_bind, wp_gets, id, if_pos enters, wp_bind, wp_zoom]
  apply wp_fields line kf.kfType holds
  intro taken kb₁ _ holds₁
  simp only [wp_bind, wp_zoom]
  apply wp_imp (wp_addSend canSend line kf.kfType)
  rintro ok kn' ⟨rfl, canSend', queuedEq⟩
  rw [if_pos rfl]
  simp only [wp_bind, wp_modify, wp_gets, wp_zoom]
  have heading : kb₁.headingdata = taken.length := holds₁.headingdata_eq
  simp only [KcnFile.knLens, kbLens, heading]
  apply wp_trimHead_headingdata holds₁
  intro kb₂ holds₂
  exact next _ _ ⟨rfl, rfl, rfl, rfl, rfl⟩ canSend' queuedEq holds₂

/-- The loop over the lines violates no assertion and finds no bad field. -/
theorem wp_lineLoop
    {rounds : Nat}
    (holds : kf.kfFile.file.kb.Holds size sp [] bytes)
    (text : bytes ++ unread = textOf lines last)
    (counter : kf.kfSize = unread.length)
    (canSend : CanSend (lines ++ last.toList).length kf.kfKn)
    (bound : bytes.length < rounds) :
    wp (lineLoop rounds)
      (fun _ kf' => Outcome kf size bytes unread lines last kf')
      halt kf := by
  induction rounds generalizing kf bytes lines sp with
  | zero =>
      exact absurd bound (Nat.not_lt_zero _)
  | succ rounds inductionHypothesis =>
      by_cases cond : kf.kfSize = 0 ∨ kcnMsgMaxsiz ≤ bytes.length
      · have why : unread = [] ∨ kcnMsgMaxsiz ≤ bytes.length := by
          rw [counter, List.length_eq_zero_iff] at cond
          exact cond
        cases lines with
        | nil =>
            cases last with
            | none =>
                obtain ⟨rfl, rfl⟩ := List.append_eq_nil_iff.mp text
                have enters :
                    kf.kfSize = 0 ∨
                      kcnMsgMaxsiz ≤ kf.kfFile.file.kb.len :=
                  Or.inl counter
                unfold lineLoop
                rw [wp_bind, wp_gets, id, if_pos enters, wp_bind,
                  wp_zoom]
                apply wp_fields_nil kf.kfType holds
                intro kb₁ holds₁
                simp only [ne_eq, not_true_eq_false, if_false]
                rw [wp_zoom]
                apply wp_start holds₁
                intro kb₂ holds₂
                exact .drained sp
                  (.nil ⟨rfl, rfl, rfl, rfl, rfl⟩ canSend rfl) rfl rfl
                  holds₂
            | some line =>
                have inside : bytes <+: line.text := ⟨unread, text⟩
                apply wp_lineLoop_cut holds cond inside
                intro left kb' shape lengthEq holds'
                exact .cut [] [] bytes left line sp
                  (.nil ⟨rfl, rfl, rfl, rfl, rfl⟩ canSend rfl) rfl
                  inside why shape lengthEq holds'
        | cons line lines =>
            rcases head_of_textOf text with ⟨rest, rfl, text'⟩ | inside
            · apply wp_lineLoop_line holds cond canSend
              intro kf₁ sp₁ aside canSend₁ queuedEq holds₁
              have shorter : rest.length < rounds := by
                rw [List.length_append, Line.length_full] at bound
                omega
              apply wp_imp
                (inductionHypothesis holds₁ text'
                  (aside.size_eq.trans counter) canSend₁ shorter)
              intro _ kf' outcome
              exact outcome.cons aside queuedEq
            · apply wp_lineLoop_cut holds cond inside
              intro left kb' shape lengthEq holds'
              exact .cut [] (line :: lines) bytes left line sp
                (.nil ⟨rfl, rfl, rfl, rfl, rfl⟩ canSend rfl) rfl inside
                why shape lengthEq holds'
      · obtain ⟨some, few⟩ := not_or.mp cond
        have stays :
            ¬ (kf.kfSize = 0 ∨
              kcnMsgMaxsiz ≤ kf.kfFile.file.kb.len) := by
          rw [holds.len_eq, List.length_nil, Nat.zero_add]
          exact cond
        have more : unread ≠ [] := by
          rintro rfl
          exact some counter
        unfold lineLoop
        rw [wp_bind, wp_gets, id, if_neg stays]
        exact .waits [] lines bytes sp (.nil (.refl kf) canSend rfl) more
          (Nat.lt_of_not_le few) holds

/-! ### The events of the file -/

/-- The bytes of the file that were not read. -/
def unreadOf (kf : KcnFile) : List UInt8 :=
  kf.kfFile.file.content.drop kf.kfFile.file.off

/-- The lines `done` are sent, and the data goes on with the others. -/
structure Loading
    (file : TextFile) (queue : List (List UInt8)) (type size : Nat)
    (done later : List Line) (bytes : List UInt8) (kf : KcnFile) :
    Prop where
  type_eq : kf.kfType = type
  content_eq : kf.kfFile.file.content = file.content
  lines_eq : file.lines = done ++ later
  text : bytes ++ unreadOf kf = textOf later file.last
  counter : kf.kfSize = bytes.length + (unreadOf kf).length
  canSend : CanSend (later ++ file.last.toList).length kf.kfKn
  queued_eq :
    kf.kfKn.io.queued = queue ++ done.map (Line.message type)
  holds : ∃ sp, kf.kfFile.file.kb.Holds size sp [] bytes

variable
  {file : TextFile} {queue : List (List UInt8)} {type : Nat}
  {rest : List UInt8} {done₁ later₁ : List Line}

/-- The state after the lines in the buffer were handled. -/
def counted (kf : KcnFile) : KcnFile :=
  { kf with kfSize := kf.kfSize + kf.kfFile.file.kb.len }

/-- The state in which the lines in the buffer are handled. -/
def uncounted (kf : KcnFile) : KcnFile :=
  { kf with kfSize := (unreadOf kf).length }

theorem Aside.unreadOf_eq (aside : Aside (uncounted kf) kf') :
    unreadOf (counted kf') = unreadOf kf := by
  show kf'.kfFile.file.content.drop kf'.kfFile.file.off = _
  rw [aside.content_eq, aside.off_eq]
  rfl

/-- What is read follows the data in the buffer. -/
theorem Loading.grow
    {new : List UInt8} {kb : KcnBuf}
    (loading : Loading file queue type size done later bytes kf)
    (env : Env)
    (newEq :
      new =
        slice kf.kfFile.file.content kf.kfFile.file.off new.length)
    (holds : kb.Holds size kb.sp [] (bytes ++ new)) :
    Loading file queue type size done later (bytes ++ new)
      (fileLens.set kf {
        file := {
          content := kf.kfFile.file.content
          off := kf.kfFile.file.off + new.length
          kb := kb
        }
        env := env
      }) := by
  have split :
      new ++
          kf.kfFile.file.content.drop
            (kf.kfFile.file.off + new.length) =
        unreadOf kf := by
    have taken : (unreadOf kf).take new.length = new := newEq.symm
    have whole := List.take_append_drop new.length (unreadOf kf)
    rw [taken] at whole
    rw [← List.drop_drop]
    exact whole
  have length := congrArg List.length split
  rw [List.length_append] at length
  exact {
    loading with
    text := by
      have text := loading.text
      rw [← split, ← List.append_assoc] at text
      exact text
    counter := by
      rw [List.length_append, Nat.add_assoc]
      exact loading.counter.trans
        (congrArg (bytes.length + ·) length.symm)
    holds := ⟨kb.sp, holds⟩
  }

/-- The lines that were sent are done. -/
theorem Loading.parsed
    (loading : Loading file queue type size done later bytes kf)
    (parsed :
      Parsed (uncounted kf) bytes later file.last done₁ later₁ rest kf')
    (holds : kf'.kfFile.file.kb.Holds size sp [] rest) :
    Loading file queue type size (done ++ done₁) later₁ rest
      (counted kf') := by
  have same : unreadOf kf' = unreadOf kf := parsed.aside.unreadOf_eq
  have typeEq : (uncounted kf).kfType = type := loading.type_eq
  have text := loading.text
  rw [parsed.bytes_eq, parsed.lines_eq, textOf, List.map_append,
    List.flatten_append, List.append_assoc, List.append_assoc] at text
  have sizeEq : kf'.kfSize = (unreadOf kf).length := parsed.aside.size_eq
  exact {
    type_eq := parsed.aside.type_eq.trans typeEq
    content_eq := parsed.aside.content_eq.trans loading.content_eq
    lines_eq := by
      rw [loading.lines_eq, parsed.lines_eq, List.append_assoc]
    text := by
      show rest ++ unreadOf kf' = _
      rw [same]
      exact List.append_cancel_left text
    counter := by
      show kf'.kfSize + kf'.kfFile.file.kb.len =
        rest.length + (unreadOf kf').length
      rw [sizeEq, same, holds.len_eq, List.length_nil, Nat.zero_add,
        Nat.add_comm]
    canSend := parsed.canSend
    queued_eq := by
      have queued := parsed.queued_eq
      rw [typeEq] at queued
      show kf'.kfKn.io.queued = _
      rw [queued, List.map_append, ← List.append_assoc]
      exact congrArg (· ++ _) loading.queued_eq
    holds := ⟨sp, holds⟩
  }

theorem Loading.wp_taken
    (loading : Loading file queue type size done later bytes kf) :
    wp taken
      (fun again kf'' => again = true ∧ ∃ kf', kf'' = counted kf' ∧
        Outcome (uncounted kf) size bytes (unreadOf kf) later file.last
          kf')
      halt kf := by
  obtain ⟨sp, holds⟩ := loading.holds
  have lenEq : kf.kfFile.file.kb.len = bytes.length := by
    rw [holds.len_eq, List.length_nil, Nat.zero_add]
  have left :
      kf.kfSize - kf.kfFile.file.kb.len = (unreadOf kf).length := by
    rw [loading.counter, lenEq]
    exact Nat.add_sub_cancel_left _ _
  have enough : ¬ kf.kfSize < kf.kfFile.file.kb.len := by
    rw [loading.counter, lenEq]
    omega
  unfold taken
  simp only [wp_bind, wp_gets, if_neg enough, wp_modify, left]
  have lines :
      wp (lineLoop (kf.kfFile.file.kb.len + 1))
        (fun _ kf' =>
          Outcome (uncounted kf) size bytes (unreadOf kf) later file.last
            kf')
        halt (uncounted kf) := by
    have holds' : (uncounted kf).kfFile.file.kb.Holds size sp [] bytes :=
      holds
    apply wp_lineLoop holds' loading.text rfl loading.canSend
    exact Nat.lt_succ_of_le (Nat.le_of_eq lenEq.symm)
  apply wp_imp lines
  intro _ kf' outcome
  exact ⟨rfl, kf', rfl, outcome⟩

/-- Between two events the data waits for more or is used up. -/
def Settled (bytes : List UInt8) (kf : KcnFile) : Prop :=
  unreadOf kf ≠ [] ∧ bytes.length < kcnMsgMaxsiz ∨
    bytes = [] ∧ unreadOf kf = []

/-- The data and what follows it is a part of the file. -/
theorem Loading.length_le
    (loading : Loading file queue type size done later bytes kf) :
    bytes.length + (unreadOf kf).length ≤ file.content.length := by
  have whole :
      file.content =
        (done.map Line.full).flatten ++ (bytes ++ unreadOf kf) := by
    rw [loading.text, TextFile.content, loading.lines_eq, textOf, textOf,
      List.map_append, List.flatten_append, List.append_assoc]
  rw [whole, List.length_append, List.length_append]
  exact Nat.le_add_left _ _

/-- Data that waits is shorter than the buffer. -/
theorem Loading.room
    (loading : Loading file queue type size done later bytes kf)
    (sizeEq : size = bufsize file.content.length)
    (short : bytes.length < file.content.length ∧
      bytes.length < maxbufsiz) :
    kf.kfFile.file.kb.len < kf.kfFile.file.kb.size := by
  obtain ⟨sp, holds⟩ := loading.holds
  rw [holds.len_eq, List.length_nil, Nat.zero_add, holds.size_eq, sizeEq]
  unfold bufsize
  split
  · exact short.1
  · exact short.2

theorem Settled.short
    (settled : Settled bytes kf)
    (loading : Loading file queue type size done later bytes kf)
    (nonempty : file.content ≠ []) :
    bytes.length < file.content.length ∧ bytes.length < maxbufsiz := by
  rcases settled with ⟨more, few⟩ | ⟨rfl, _⟩
  · have positive := List.length_pos_iff.mpr more
    have inside := loading.length_le
    unfold kcnMsgMaxsiz at few
    unfold maxbufsiz
    omega
  · exact ⟨List.length_pos_iff.mpr nonempty, by decide⟩

/-- There is nothing to read only if the offset is at the end. -/
theorem unreadOf_eq_nil :
    unreadOf kf = [] ↔
      kf.kfFile.file.content.length ≤ kf.kfFile.file.off :=
  List.drop_eq_nil_iff

/-- Once all is read and used up, all lines are sent. -/
theorem Loading.finished
    (loading : Loading file queue type size done later bytes kf)
    (used : bytes = [])
    (none : unreadOf kf = []) :
    later = [] ∧ file.last = .none := by
  have text := loading.text
  rw [used, none, List.append_nil, textOf] at text
  obtain ⟨noLines, noLast⟩ := List.append_eq_nil_iff.mp text.symm
  constructor
  · cases later with
    | nil =>
        rfl
    | cons line later =>
        rw [List.map_cons, List.flatten_cons] at noLines
        have empty := (List.append_eq_nil_iff.mp noLines).1
        cases (List.append_eq_nil_iff.mp empty).2
  · cases last : file.last with
    | none =>
        rfl
    | some line =>
        rw [last] at noLast
        have empty : line.text = [] := noLast
        have positive := line.length_time_lt
        rw [empty] at positive
        exact absurd positive (Nat.not_lt_zero _)

/-- Short lines that end with newlines are never cut. -/
theorem Outcome.settled
    (outcome :
      Outcome (uncounted kf) size bytes (unreadOf kf) later none kf')
    (loading : Loading file queue type size done later bytes kf)
    (terminated : file.last = none)
    (short : ∀ line ∈ later, line.full.length ≤ kcnMsgMaxsiz) :
    ∃ done₁ later₁ rest,
      Loading file queue type size (done ++ done₁) later₁ rest
          (counted kf') ∧
        Settled rest (counted kf') := by
  have same := outcome.aside.unreadOf_eq
  cases outcome with
  | waits done₁ later₁ rest sp parsed more few holds =>
      exact ⟨done₁, later₁, rest,
        loading.parsed (terminated ▸ parsed) holds,
        Or.inl ⟨same ▸ more, few⟩⟩
  | drained sp parsed _ empty holds =>
      exact ⟨later, [], [],
        loading.parsed (terminated ▸ parsed) holds,
        Or.inr ⟨rfl, same.trans empty⟩⟩
  | cut done₁ later₁ rest left line sp parsed head inside why _ _ _ =>
      exfalso
      rw [Option.toList_none, List.append_nil] at head
      obtain ⟨others, rfl⟩ : ∃ others, later₁ = line :: others := by
        cases later₁ with
        | nil =>
            cases head
        | cons first others =>
            cases head
            exact ⟨others, rfl⟩
      have fits : line.full.length ≤ kcnMsgMaxsiz := by
        apply short
        rw [parsed.lines_eq]
        exact List.mem_append_right _ List.mem_cons_self
      have below := inside.length_le
      have lengthEq := line.length_full
      rcases why with empty | long
      · have text := loading.text
        rw [parsed.bytes_eq, parsed.lines_eq, terminated, empty, textOf,
          List.map_append, List.flatten_append, List.append_assoc,
          List.append_assoc, List.append_nil] at text
        have tail := congrArg List.length (List.append_cancel_left text)
        rw [List.map_cons, List.flatten_cons] at tail
        simp only [List.length_append] at tail
        omega
      · omega

/-- Less is left to be read. -/
theorem length_unreadOf_lt
    {new : List UInt8} {kb : KcnBuf} {env : Env}
    (some : new ≠ [])
    (more : kf.kfFile.file.off < kf.kfFile.file.content.length) :
    (unreadOf (fileLens.set kf {
      file := {
        content := kf.kfFile.file.content
        off := kf.kfFile.file.off + new.length
        kb := kb
      }
      env := env
    })).length < (unreadOf kf).length := by
  have positive := List.length_pos_iff.mpr some
  simp only [unreadOf, fileLens, List.length_drop]
  omega

/-- The events of a file that can be loaded. -/
theorem wp_readLoop
    {rounds : Nat}
    (loadable : file.Loadable)
    (sizeEq : size = bufsize file.content.length)
    (nonempty : file.content ≠ [])
    (loading : Loading file queue type size done later bytes kf)
    (settled : Settled bytes kf)
    (delivers :
      kf.kfFile.env.trace.Delivers ((unreadOf kf).length + 1))
    (bound : (unreadOf kf).length + 1 < rounds) :
    wp (readLoop rounds)
      (fun _ kf' =>
        kf'.kfKn.io.queued =
          queue ++ file.lines.map (Line.message type))
      halt kf := by
  induction rounds generalizing done later bytes kf with
  | zero =>
      exact absurd bound (Nat.not_lt_zero _)
  | succ rounds inductionHypothesis =>
      obtain ⟨event, trace, answer, moves, left⟩ :=
        delivers.next (Nat.succ_pos _)
      have room :=
        loading.room sizeEq (settled.short loading nonempty)
      obtain ⟨sp, holds⟩ := loading.holds
      unfold readLoop readfile
      rw [if_pos rfl, wp_bind, wp_bind, wp_zoom]
      by_cases more :
          kf.kfFile.file.off < kf.kfFile.file.content.length
      · apply KcndbFile.wp_bufRead_moves answer moves room more
        intro new kb some newEq _ _ holds'
        rw [if_pos rfl]
        have holds'' : kb.Holds size kb.sp [] (bytes ++ new) := by
          rw [holds.size_eq, holds.before_eq, holds.after_eq] at holds'
          exact holds'
        have grown :=
          loading.grow { kf.kfFile.env with trace := trace } newEq
            holds''
        apply wp_imp grown.wp_taken
        rintro again kf'' ⟨rfl, kf', rfl, outcome⟩
        rw [if_pos rfl]
        have fits : ∀ line ∈ later, line.full.length ≤ kcnMsgMaxsiz := by
          intro line member
          apply loadable.short
          rw [loading.lines_eq]
          exact List.mem_append_right _ member
        have fewer := lt_of_eq_of_lt
          (congrArg List.length outcome.aside.unreadOf_eq)
          (length_unreadOf_lt some more)
        have envEq := outcome.aside.env_eq
        rw [loadable.terminated] at outcome
        obtain ⟨done₁, later₁, rest, loading', settled'⟩ :=
          outcome.settled grown loadable.terminated fits
        apply inductionHypothesis loading' settled'
        · show kf'.kfFile.env.trace.Delivers _
          rw [envEq]
          exact left _ (Nat.succ_lt_succ fewer)
        · exact Nat.lt_of_lt_of_le (Nat.succ_lt_succ fewer)
            (Nat.le_of_lt_succ bound)
      · have none : unreadOf kf = [] :=
          unreadOf_eq_nil.mpr (Nat.le_of_not_lt more)
        have used : bytes = [] := by
          rcases settled with ⟨some, _⟩ | ⟨used, _⟩
          · exact absurd none some
          · exact used
        obtain ⟨rfl, _⟩ := loading.finished used none
        apply KcndbFile.wp_bufRead_end answer moves room
          (Nat.le_of_not_lt more)
        intro kb
        rw [if_neg (by decide), wp_pure, if_neg (by decide), wp_pure]
        have queued := loading.queued_eq
        have lines := loading.lines_eq
        rw [List.append_nil] at lines
        rw [lines]
        exact queued

/-! ### Files that cannot be loaded -/

/-- A full buffer fails the assertion of `kcn_buf_read`. -/
theorem wp_bufRead_full
    {ctx : FileCtx} {post : Errno → FileCtx → Prop}
    (assertion : halt .assertion)
    (full : ctx.file.kb.size ≤ ctx.file.kb.len) :
    wp KcndbFile.bufRead post halt ctx := by
  unfold KcndbFile.bufRead
  rw [wp_bind, FileCtx.buf, wp_zoom]
  apply KcndbFile.wp_prepareRead fun _ => assertion
  intro kb holds _ space
  rw [holds.trailingspace_eq] at space
  have lenEq : ctx.file.kb.len = _ := (holds_self ctx.file.kb).len_eq
  simp only [FileCtx.kbLens] at space
  omega

/-- A line whose separator is overwritten is left, or an invalid field. -/
theorem wp_lineLoop_spoiled
    {rounds : Nat} {rest : List UInt8}
    (holds :
      kf.kfFile.file.kb.Holds size sp []
        (line.time.digits ++ 0 :: rest)) :
    wp (lineLoop rounds) (fun _ kf' => kf' = kf) (fun _ => True) kf := by
  cases rounds with
  | zero =>
      trivial
  | succ rounds =>
      unfold lineLoop
      rw [wp_bind, wp_gets, id]
      split
      · rw [wp_bind, wp_zoom]
        apply wp_fields_spoiled line kf.kfType holds
        intro kb₁
        have differs : Errno.einval ≠ Errno.eagain := by decide
        simp only [differs, ne_eq, not_false_eq_true, if_true]
        trivial
      · rfl

theorem wp_taken_spoiled
    {rest : List UInt8} {post : Bool → KcnFile → Prop}
    (holds :
      kf.kfFile.file.kb.Holds size sp []
        (line.time.digits ++ 0 :: rest))
    (next : ∀ left, post true { kf with kfSize := left }) :
    wp taken post (fun _ => True) kf := by
  unfold taken
  simp only [wp_bind, wp_gets]
  split
  · trivial
  · simp only [wp_bind, wp_modify]
    have holds' :
        ({ kf with
          kfSize := kf.kfSize - kf.kfFile.file.kb.len } :
            KcnFile).kfFile.file.kb.Holds size sp []
          (line.time.digits ++ 0 :: rest) :=
      holds
    apply wp_imp (wp_lineLoop_spoiled holds')
    rintro _ kf' rfl
    exact next _

/-- Once a separator is overwritten nothing is sent any more. -/
theorem wp_readLoop_spoiled
    {rounds : Nat} {rest : List UInt8}
    (holds :
      kf.kfFile.file.kb.Holds size sp [] (line.time.digits ++ 0 :: rest)) :
    wp (readLoop rounds)
      (fun _ kf' => kf'.kfKn.io.queued = kf.kfKn.io.queued)
      (fun _ => True) kf := by
  induction rounds generalizing kf size sp rest with
  | zero =>
      trivial
  | succ rounds inductionHypothesis =>
      unfold readLoop readfile
      rw [if_pos rfl, wp_bind, wp_bind, wp_zoom]
      apply KcndbFile.wp_bufRead trivial fun _ => trivial
      intro error part result _
      have grownHolds {taken : Trace} {new : List UInt8}
          (grown :
            KcndbFile.Grown (fileLens.get kf) taken new part) :
          part.file.kb.Holds size part.file.kb.sp []
            (line.time.digits ++ 0 :: (rest ++ new)) := by
        refine ⟨grown.size_eq.trans holds.size_eq, rfl,
          grown.before_eq.trans holds.before_eq, ?_⟩
        have afterEq :
            part.file.kb.after = kf.kfFile.file.kb.after ++ new :=
          grown.after_eq
        rw [afterEq, holds.after_eq, List.append_assoc, List.cons_append]
      have quiet {taken : Trace}
          (grown : KcndbFile.Grown (fileLens.get kf) taken [] part)
          (again : Bool) :
          wp (if again then readLoop rounds else pure ())
            (fun _ kf' => kf'.kfKn.io.queued = kf.kfKn.io.queued)
            (fun _ => True) (fileLens.set kf part) := by
        cases again with
        | true =>
            rw [if_pos rfl]
            have holds' :
                (fileLens.set kf part).kfFile.file.kb.Holds size
                  part.file.kb.sp []
                  (line.time.digits ++ 0 :: (rest ++ [])) :=
              grownHolds grown
            exact inductionHypothesis holds'
        | false =>
            rw [if_neg Bool.false_ne_true]
            rfl
      cases result with
      | failed taken error grown _ _ =>
          rw [if_neg error.errno_ne_zero, wp_pure]
          exact quiet grown _
      | ended taken grown _ _ =>
          rw [if_neg (by decide), wp_pure]
          exact quiet grown _
      | got taken new grown _ _ _ =>
          rw [if_pos rfl]
          have holds' :
              (fileLens.set kf part).kfFile.file.kb.Holds size
                part.file.kb.sp []
                (line.time.digits ++ 0 :: (rest ++ new)) :=
            grownHolds grown
          apply wp_taken_spoiled holds'
          intro left
          rw [if_pos rfl]
          apply inductionHypothesis
          exact holds'

/-- There is a last line without a newline, or a line that is too long. -/
def Bad (later : List Line) (last : Option Line) : Prop :=
  last ≠ none ∨ ∃ line ∈ later, kcnMsgMaxsiz < line.full.length

/-- The data in the buffer is short, or a part of the first timestamp. -/
def Tight
    (later : List Line) (last : Option Line) (bytes : List UInt8) :
    Prop :=
  bytes.length < kcnMsgMaxsiz ∨
    ∃ line, (later ++ last.toList).head? = some line ∧
      bytes <+: line.time.digits

/-- Some lines are not sent. -/
def Behind
    (file : TextFile) (queue : List (List UInt8)) (kf : KcnFile) : Prop :=
  kf.kfKn.io.queued.length < queue.length + file.all.length

/-- A line is not longer than data that has it and others. -/
theorem length_full_le (member : line ∈ done) :
    line.full.length ≤ (done.map Line.full).flatten.length := by
  obtain ⟨first, second, rfl⟩ := List.append_of_mem member
  rw [List.map_append, List.map_cons, List.flatten_append,
    List.flatten_cons, List.length_append, List.length_append]
  omega

/-- One more byte does not make a long line complete. -/
theorem Tight.short
    {new : List UInt8}
    (tight : Tight (done ++ later) last bytes)
    (one : new.length ≤ 1)
    (whole : bytes ++ new = (done.map Line.full).flatten ++ rest) :
    ∀ line ∈ done, line.full.length ≤ kcnMsgMaxsiz := by
  intro line member
  have inside := length_full_le member
  have lengthEq := congrArg List.length whole
  rw [List.length_append, List.length_append] at lengthEq
  rcases tight with few | ⟨first, head, inTime⟩
  · omega
  · exfalso
    cases done with
    | nil =>
        cases member
    | cons first' done =>
        cases head
        have isFirst : first ∈ first :: done := List.mem_cons_self
        have first_le := length_full_le isFirst
        have below := inTime.length_le
        have longer := first.length_time_lt
        rw [first.length_full] at first_le
        omega

/-- The bad line is among those that are left. -/
theorem Bad.of_append
    (bad : Bad (done ++ later) last)
    (short : ∀ line ∈ done, line.full.length ≤ kcnMsgMaxsiz) :
    Bad later last := by
  rcases bad with some | ⟨line, member, long⟩
  · exact Or.inl some
  · rcases List.mem_append.mp member with early | late
    · exact absurd long (Nat.not_lt.mpr (short line early))
    · exact Or.inr ⟨line, late, long⟩

theorem Bad.nonempty (bad : Bad later last) :
    later ++ last.toList ≠ [] := by
  intro empty
  obtain ⟨rfl, noLast⟩ := List.append_eq_nil_iff.mp empty
  rcases bad with some | ⟨_, member, _⟩
  · cases last with
    | none =>
        exact some rfl
    | some line =>
        cases noLast
  · cases member

/-- As long as lines are left, some are not sent. -/
theorem Loading.behind
    (loading : Loading file queue type size done later bytes kf)
    (left : later ++ file.last.toList ≠ []) :
    Behind file queue kf := by
  have positive := List.length_pos_iff.mpr left
  unfold Behind
  rw [loading.queued_eq, TextFile.all, loading.lines_eq,
    List.append_assoc, List.length_append, List.length_append,
    List.length_map]
  omega

/-- A bad file goes on with the bad line, or its separator is lost. -/
theorem Outcome.bad
    {old new : List UInt8}
    (outcome :
      Outcome (uncounted kf) size bytes (unreadOf kf) later file.last kf')
    (loading : Loading file queue type size done later bytes kf)
    (bad : Bad later file.last)
    (tight : Tight later file.last old)
    (one : new.length ≤ 1)
    (grown : bytes = old ++ new) :
    (∃ done₁ later₁ rest,
      Loading file queue type size (done ++ done₁) later₁ rest
          (counted kf') ∧
        Bad later₁ file.last ∧ Tight later₁ file.last rest) ∨
      Behind file queue kf' ∧
        ∃ (line : Line) (sp : Nat) (rest : List UInt8),
          kf'.kfFile.file.kb.Holds size sp []
            (line.time.digits ++ 0 :: rest) := by
  have shortOf {done₁ later₁ : List Line} {rest : List UInt8}
      (parsed :
        Parsed (uncounted kf) bytes later file.last done₁ later₁ rest
          kf') :
      ∀ line ∈ done₁, line.full.length ≤ kcnMsgMaxsiz := by
    have tight' := tight
    rw [parsed.lines_eq] at tight'
    exact tight'.short one (grown.symm.trans parsed.bytes_eq)
  have badOf {done₁ later₁ : List Line} {rest : List UInt8}
      (parsed :
        Parsed (uncounted kf) bytes later file.last done₁ later₁ rest
          kf') :
      Bad later₁ file.last := by
    have bad' := bad
    rw [parsed.lines_eq] at bad'
    exact bad'.of_append (shortOf parsed)
  cases outcome with
  | waits done₁ later₁ rest sp parsed more few holds =>
      exact Or.inl ⟨done₁, later₁, rest, loading.parsed parsed holds,
        badOf parsed, Or.inl few⟩
  | drained sp parsed isNone _ holds =>
      have bad' := badOf parsed
      rw [isNone] at bad'
      exact absurd rfl bad'.nonempty
  | cut done₁ later₁ rest left line sp parsed head _ _ shape _ holds =>
      cases shape with
      | whole inTime =>
          exact Or.inl ⟨done₁, later₁, rest,
            loading.parsed parsed holds, badOf parsed,
            Or.inr ⟨line, head, inTime⟩⟩
      | spoiled rest' =>
          apply Or.inr
          refine ⟨?_, line, sp, rest', holds⟩
          have positive :=
            List.length_pos_iff.mpr (badOf parsed).nonempty
          have queued := congrArg List.length parsed.queued_eq
          have before := congrArg List.length loading.queued_eq
          have lines := congrArg List.length loading.lines_eq
          have lines' := congrArg List.length parsed.lines_eq
          have same :
              (uncounted kf).kfKn.io.queued = kf.kfKn.io.queued := rfl
          unfold Behind TextFile.all
          rw [same] at queued
          simp only [List.length_append, List.length_map] at *
          omega

/-- A bad file that is read byte by byte is not sent completely. -/
theorem wp_readLoop_bad
    {rounds : Nat}
    (loading : Loading file queue type size done later bytes kf)
    (bad : Bad later file.last)
    (tight : Tight later file.last bytes)
    (delivers :
      kf.kfFile.env.trace.Delivers ((unreadOf kf).length + 1))
    (single : ∀ event ∈ kf.kfFile.env.trace,
      event = .read (.short 1)) :
    wp (readLoop rounds) (fun _ kf' => Behind file queue kf')
      (fun _ => True) kf := by
  induction rounds generalizing done later bytes kf with
  | zero =>
      trivial
  | succ rounds inductionHypothesis =>
      obtain ⟨event, trace, answer, moves, left⟩ :=
        delivers.next (Nat.succ_pos _)
      obtain ⟨sp, holds⟩ := loading.holds
      unfold readLoop readfile
      rw [if_pos rfl, wp_bind, wp_bind, wp_zoom]
      by_cases room :
          kf.kfFile.file.kb.len < kf.kfFile.file.kb.size
      · by_cases more :
            kf.kfFile.file.off < kf.kfFile.file.content.length
        · apply KcndbFile.wp_bufRead_moves answer moves room more
          intro new kb some newEq count _ holds'
          rw [if_pos rfl]
          have isSingle : event = .read (.short 1) := by
            apply single
            rw [answer]
            exact List.mem_cons_self
          have one : new.length ≤ 1 := count 1 isSingle
          have holds'' : kb.Holds size kb.sp [] (bytes ++ new) := by
            rw [holds.size_eq, holds.before_eq, holds.after_eq]
              at holds'
            exact holds'
          have grown :=
            loading.grow { kf.kfFile.env with trace := trace } newEq
              holds''
          apply wp_imp grown.wp_taken
          rintro again kf'' ⟨rfl, kf', rfl, outcome⟩
          rw [if_pos rfl]
          have fewer := lt_of_eq_of_lt
            (congrArg List.length outcome.aside.unreadOf_eq)
            (length_unreadOf_lt some more)
          have traceEq : (counted kf').kfFile.env.trace = trace :=
            congrArg Env.trace outcome.aside.env_eq
          rcases outcome.bad grown bad tight one rfl with
            ⟨done₁, later₁, rest, loading', bad', tight'⟩ |
            ⟨behind, line, sp', rest, holds₁⟩
          · apply inductionHypothesis loading' bad' tight'
            · rw [traceEq]
              exact left _ (Nat.succ_lt_succ fewer)
            · intro later member
              apply single
              rw [answer]
              rw [traceEq] at member
              exact List.mem_cons_of_mem _ member
          · have holds₂ :
                (counted kf').kfFile.file.kb.Holds size sp' []
                  (line.time.digits ++ 0 :: rest) :=
              holds₁
            apply wp_imp (wp_readLoop_spoiled holds₂)
            intro _ kf₂ same
            unfold Behind
            rw [same]
            exact behind
        · apply KcndbFile.wp_bufRead_end answer moves room
            (Nat.le_of_not_lt more)
          intro kb
          rw [if_neg (by decide), wp_pure, if_neg (by decide), wp_pure]
          exact loading.behind bad.nonempty
      · exact wp_bufRead_full trivial (Nat.le_of_not_lt room)

/-! ### All files -/

/-- The state in which the file is open and nothing is read. -/
def opened
    (type : Nat) (content memory : List UInt8) (env : Env)
    (kn : NetCtx Unit) : KcnFile where
  kfType := type
  kfSize := content.length
  kfLine := 0
  kfFile := {
    file := { content := content, off := 0, kb := KcnBuf.new memory }
    env := env
  }
  kfKn := kn

/-- Nothing is sent at first. -/
theorem loading_opened
    {memory : List UInt8} {env : Env} {kn : NetCtx Unit}
    (canSend : CanSend file.all.length kn) :
    Loading file kn.io.queued type memory.length [] file.lines []
      (opened type file.content memory env kn) where
  type_eq := rfl
  content_eq := rfl
  lines_eq := rfl
  text := rfl
  counter := (Nat.zero_add _).symm
  canSend := canSend
  queued_eq := (List.append_nil _).symm
  holds := ⟨0, holds_new memory⟩

/-- A connection with memory for some messages. -/
def loader (count : Nat) : NetCtx Unit :=
  built 3 [] (List.replicate kcnMsgMaxsiz 0)
    { errno := 0, trace := [] } (List.replicate count (.malloc true)) []

theorem canSend_loader (count : Nat) : CanSend count (loader count) where
  alive := nofun
  armed := rfl
  output := List.length_replicate
  memory := List.prefix_refl _

/-- Reads of one byte each. -/
def bytewise (count : Nat) : Env where
  errno := 0
  trace := List.replicate count (.read (.short 1))

theorem delivers_bytewise (count : Nat) :
    (bytewise count).trace.Delivers count where
  moves := by
    intro event member
    rw [List.eq_of_mem_replicate member]
    trivial
  enough := Nat.le_of_eq List.length_replicate.symm

/-- All lines of the file are sent, in order. -/
def Sends
    (file : TextFile) (type : Nat) (memory : List UInt8) (env : Env)
    (kn : NetCtx Unit) : Prop :=
  ∃ kf, process type file.content memory env kn = .ok ((), kf) ∧
    kf.kfKn.io.queued =
      kn.io.queued ++ file.all.map (Line.message type)

/-- A file whose lines are short and end with newlines is sent. -/
theorem sends_of_loadable
    {memory : List UInt8} {env : Env} {kn : NetCtx Unit}
    (loadable : file.Loadable)
    (memoryEq : memory.length = bufsize file.content.length)
    (delivers : env.trace.Delivers (file.content.length + 1))
    (canSend : CanSend file.all.length kn) :
    Sends file type memory env kn := by
  have nonempty : file.content ≠ [] := by
    intro empty
    have lines := (List.append_eq_nil_iff.mp empty).1
    obtain ⟨line, others, linesEq⟩ :=
      List.exists_cons_of_ne_nil loadable.nonempty
    rw [linesEq] at lines
    have full := (List.append_eq_nil_iff.mp lines).1
    cases (List.append_eq_nil_iff.mp full).2
  have settled :
      Settled [] (opened type file.content memory env kn) :=
    Or.inl ⟨nonempty, by decide⟩
  have runs :
      wp (readLoop (env.trace.length + 1))
        (fun _ kf' =>
          kf'.kfKn.io.queued =
            kn.io.queued ++ file.lines.map (Line.message type))
        (fun _ => False) (opened type file.content memory env kn) := by
    apply wp_readLoop loadable memoryEq nonempty (loading_opened canSend)
      settled delivers
    exact Nat.lt_succ_of_le delivers.enough
  obtain ⟨_, kf, returns, queued⟩ := wp_returns runs
  have all : file.all = file.lines := by
    rw [TextFile.all, loadable.terminated, Option.toList_none,
      List.append_nil]
  exact ⟨kf, returns, all ▸ queued⟩

/-- Other files are not sent when they are read byte by byte. -/
theorem not_sends
    (notLoadable : ¬ file.Loadable) :
    ¬ Sends file type
      (List.replicate (bufsize file.content.length) 0)
      (bytewise (file.content.length + 1))
      (loader file.all.length) := by
  rintro ⟨kf, returns, queued⟩
  have loading :
      Loading file (loader file.all.length).io.queued type
        (List.replicate (bufsize file.content.length) (0 : UInt8)).length
        [] file.lines []
        (opened type file.content
          (List.replicate (bufsize file.content.length) 0)
          (bytewise (file.content.length + 1))
          (loader file.all.length)) :=
    loading_opened (canSend_loader _)
  have runs :
      wp (readLoop ((bytewise (file.content.length + 1)).trace.length + 1))
        (fun _ kf' => Behind file (loader file.all.length).io.queued kf')
        (fun _ => True)
        (opened type file.content
          (List.replicate (bufsize file.content.length) 0)
          (bytewise (file.content.length + 1))
          (loader file.all.length)) := by
    by_cases bad : Bad file.lines file.last
    · apply wp_readLoop_bad loading bad (Or.inl (by decide))
        (delivers_bytewise _)
      intro event member
      exact List.eq_of_mem_replicate member
    · -- Only the empty file is left, whose buffer has no bytes.
      obtain ⟨isNone, short⟩ := not_or.mp bad
      have noLines : file.lines = [] := by
        by_contra some
        apply notLoadable
        refine ⟨some, not_not.mp isNone, ?_⟩
        intro line member
        by_contra long
        exact short ⟨line, member, Nat.lt_of_not_le long⟩
      have empty : file.content = [] := by
        rw [TextFile.content, noLines, not_not.mp isNone]
        rfl
      rw [empty]
      unfold readLoop readfile
      rw [if_pos rfl, wp_bind, wp_bind, wp_zoom]
      exact wp_bufRead_full trivial (Nat.le_refl 0)
  have behind := wp_ok runs returns
  unfold Behind at behind
  rw [queued, List.length_append, List.length_map] at behind
  exact absurd behind (Nat.lt_irrefl _)

/--
All lines of a file are sent however it is read, if and only if it is not
empty, each line ends with a newline and has at most `KCN_MSG_MAXSIZ` bytes
with it.
-/
theorem load_complete (file : TextFile) (type : Nat) :
    (∀ (memory : List UInt8) (env : Env) (kn : NetCtx Unit),
      memory.length = bufsize file.content.length →
      env.trace.Delivers (file.content.length + 1) →
      CanSend file.all.length kn →
      Sends file type memory env kn) ↔
    file.Loadable := by
  constructor
  · intro always
    by_contra notLoadable
    apply not_sends notLoadable
    exact always _ _ _ List.length_replicate (delivers_bytewise _)
      (canSend_loader _)
  · intro loadable memory env kn memoryEq delivers canSend
    exact sends_of_loadable loadable memoryEq delivers canSend

/-- A number of one digit. -/
def one : Number where
  digits := [0x31]
  nonempty := nofun
  all := List.forall_mem_singleton.mpr rfl
  fits := by decide

/-- The file `1 1 a`, without a newline. -/
def unterminated : TextFile where
  lines := []
  last := some {
    time := one
    val := one
    loc := [0x61]
    first := 0x20
    second := 0x20
    first_blank := rfl
    second_blank := rfl
    loc_nonempty := nofun
    loc_graph := List.forall_mem_singleton.mpr rfl
    loc_le := by decide
  }

/-- The optional newline is not optional, however the file is read. -/
theorem load_unterminated :
    unterminated.content = [0x31, 0x20, 0x31, 0x20, 0x61] ∧
      ¬ Sends unterminated 1 (List.replicate 5 0) (bytewise 6)
        (loader 1) := by
  refine ⟨by decide, ?_⟩
  have notLoadable : ¬ unterminated.Loadable := by
    intro loadable
    cases loadable.terminated
  exact not_sends notLoadable

end KcndbctlFile

end Kcn
