import Kcn.Load
import Kcn.Parse
import Mathlib.Data.List.Forall2

namespace Kcn

open Program Bytes KcnBuf NetCtx

/-!
# The bytes that remain of a file

`kf_size` is lowered by the data in the buffer before its lines are parsed, and
raised by what is left of them.  Between two calls of `readfile` it counts the
bytes that are not sent yet, and at the head of the loop those that are not read
yet.
-/

namespace KcndbctlFile

open KcnFile

/-! ### The steps of a load -/

/-- Between two callbacks, or at the head of the loop of `readfile`. -/
inductive Point where
  | outside
  | loopHead
  deriving Repr, DecidableEq

/-- The state of a load. -/
structure LoadState where
  kf : KcnFile
  point : Point

/-- What happens in a load. -/
inductive LoadEvent where
  | idle
  | elsewhere (kn : NetCtx Unit)
  | notRead (error : Errno)
  | read
  | line (bytes : List UInt8)
  | incomplete
  | enough

/-- The condition of the loop. -/
def Enters (kf : KcnFile) : Prop :=
  kf.kfSize = 0 ∨ kcnMsgMaxsiz ≤ kf.kfFile.file.kb.len

/-- A file after it was read, with the counter lowered. -/
def lowered (kf : KcnFile) (file : FileCtx) : KcnFile :=
  { kf with kfFile := file, kfSize := kf.kfSize - file.file.kb.len }

/-- A file after a line was sent, with one line more. -/
def another (kf : KcnFile) (kn : NetCtx Unit) : KcnFile :=
  { kf with kfKn := kn, kfLine := kf.kfLine + 1 }

/--
The steps of the callbacks, and of others that use the connection.  The buffer
`kb` is what the parser leaves.
-/
inductive LoadStep : LoadState → LoadEvent → LoadState → Prop where
  | idle {kf : KcnFile} :
      LoadStep ⟨kf, .outside⟩ .idle ⟨kf, .outside⟩
  | elsewhere {kf : KcnFile} (kn : NetCtx Unit) :
      LoadStep ⟨kf, .outside⟩ (.elsewhere kn)
        ⟨knLens.set kf kn, .outside⟩
  | notRead {kf : KcnFile} {error : Errno} {file : FileCtx} :
      KcndbFile.bufRead kf.kfFile = .ok (error, file) →
      error ≠ 0 →
      LoadStep ⟨kf, .outside⟩ (.notRead error)
        ⟨fileLens.set kf file, .outside⟩
  | read {kf : KcnFile} {file : FileCtx} :
      KcndbFile.bufRead kf.kfFile = .ok (0, file) →
      LoadStep ⟨kf, .outside⟩ .read ⟨lowered kf file, .loopHead⟩
  | line {kf : KcnFile} {kma : KcnMsgAdd} {kb kb' : KcnBuf}
      {kn : NetCtx Unit} :
      Enters kf →
      fields kf.kfType kf.kfFile.file.kb = .ok (.ok kma, kb) →
      KcnClient.addSend kma kf.kfKn = .ok (true, kn) →
      trimHead kb.headingdata kb = .ok ((), kb') →
      LoadStep ⟨kf, .loopHead⟩ (.line kb.before)
        ⟨kbLens.set (another kf kn) kb', .loopHead⟩
  | incomplete {kf : KcnFile} {kb kb' : KcnBuf} :
      Enters kf →
      fields kf.kfType kf.kfFile.file.kb =
        .ok (.error Errno.eagain, kb) →
      KcnBuf.start kb = .ok ((), kb') →
      LoadStep ⟨kf, .loopHead⟩ .incomplete
        ⟨counted (kbLens.set kf kb'), .outside⟩
  | enough {kf : KcnFile} :
      ¬ Enters kf →
      LoadStep ⟨kf, .loopHead⟩ .enough ⟨counted kf, .outside⟩

/-- The bytes of the lines that were sent. -/
def sentBytes (events : List LoadEvent) : List UInt8 :=
  (events.map fun event =>
    match event with
    | .line bytes => bytes
    | _ => []).flatten

theorem sentBytes_snoc (events : List LoadEvent) (event : LoadEvent) :
    sentBytes (events ++ [event]) =
      sentBytes events ++ sentBytes [event] := by
  simp only [sentBytes, List.map_append, List.flatten_append]

/-! ### What the parser does to the data -/

/-- Data some blanks of which may be overwritten by NULs. -/
def Worn (data original : List UInt8) : Prop :=
  List.Forall₂ (fun b c => b = c ∨ b = 0 ∧ isspace c = true) data original

namespace Worn

variable {data original middle more more' : List UInt8}

theorem refl (data : List UInt8) : Worn data data :=
  List.forall₂_same.mpr fun _ _ => .inl rfl

theorem append (first : Worn data original) (later : Worn more more') :
    Worn (data ++ more) (original ++ more') :=
  List.rel_append first later

theorem trans (first : Worn data middle) (later : Worn middle original) :
    Worn data original := by
  induction first generalizing original with
  | nil =>
      cases later
      exact .nil
  | cons head _ inductionHypothesis =>
      cases later with
      | cons head' tail' =>
          refine .cons ?_ (inductionHypothesis tail')
          rcases head with rfl | ⟨rfl, blank⟩
          · exact head'
          · rcases head' with rfl | ⟨rfl, blank'⟩
            · exact .inr ⟨rfl, blank⟩
            · exact .inr ⟨rfl, blank'⟩

theorem length_eq (worn : Worn data original) :
    data.length = original.length :=
  List.Forall₂.length_eq worn

/-- A blank is overwritten. -/
theorem blank
    {word rest : List UInt8} {c : UInt8} (space : isspace c = true) :
    Worn ((word ++ [0]) ++ rest) (word ++ c :: rest) := by
  rw [List.append_assoc]
  exact (refl word).append (.cons (.inr ⟨rfl, space⟩) (refl rest))

end Worn

variable
  {size sp : Nat} {before data : List UInt8} {kb : KcnBuf}
  {halt : Stop → Prop}

/-- The parser takes from the data, which it may wear. -/
def Takes
    (size sp : Nat) (data : List UInt8) {α : Type}
    (result : Except Errno α) (kb : KcnBuf) : Prop :=
  (∃ taken rest, kb.Holds size sp taken rest ∧
      Worn (taken ++ rest) data) ∨
    ∃ error, error ≠ Errno.eagain ∧ result = .error error

/-- The parser takes a line from any data, or a part of it. -/
theorem wp_fields_takes
    (type : Nat) (holds : kb.Holds size sp [] data) :
    wp (fields type) (fun result kb' => Takes size sp data result kb')
      halt kb := by
  unfold fields
  rw [wp_bind]
  apply wp_get64_of holds
  · intro word c rest time kb₁ dataEq space _ holds₁
    have worn₁ : Worn ((word ++ [0]) ++ rest) data := by
      rw [dataEq]
      exact .blank space
    simp only [wp_bind]
    apply wp_get64_of holds₁
    · intro word' c' rest' val kb₂ restEq space' _ holds₂
      have worn₂ :
          Worn ((word ++ [0]) ++ ((word' ++ [0]) ++ rest')) data := by
        refine .trans (.append (.refl _) ?_) worn₁
        rw [restEq]
        exact .blank space'
      simp only [wp_bind]
      apply wp_getstr_of holds₂
      · intro loc c'' rest'' kb₃ restEq' _ _ holds₃
        refine .inl ⟨_, _, holds₃, ?_⟩
        rw [restEq'] at worn₂
        simpa using worn₂
      · intro kb₃ _ holds₃
        refine .inl ⟨_, _, holds₃, ?_⟩
        simpa using worn₂
      · intro error _ other _
        exact .inr ⟨error, other, rfl⟩
    · intro kb₂ _ _ holds₂
      refine .inl ⟨_, _, holds₂, ?_⟩
      simpa using worn₁
    · intro error _ other _
      exact .inr ⟨error, other, rfl⟩
  · intro kb₁ _ _ holds₁
    refine .inl ⟨_, _, holds₁, ?_⟩
    simpa using Worn.refl data
  · intro error _ other _
    exact .inr ⟨error, other, rfl⟩

/-! ### The invariant -/

/--
The bytes `sent` and the data in the buffer are the file up to its offset, but
for the blanks that were overwritten.
-/
structure Covers
    (content sent : List UInt8) (file : FileCtx) : Prop where
  content_eq : file.file.content = content
  off_le : file.file.off ≤ content.length
  before_eq : file.file.kb.before = []
  worn : Worn (sent ++ file.file.kb.data) (content.take file.file.off)

/-- What the counter is, by where the load is. -/
structure Accounted
    (content : List UInt8) (events : List LoadEvent) (s : LoadState) :
    Prop where
  covers : Covers content (sentBytes events) s.kf.kfFile
  outside :
    s.point = .outside →
    s.kf.kfSize + (sentBytes events).length = content.length
  loopHead :
    s.point = .loopHead →
    s.kf.kfSize + s.kf.kfFile.file.off = content.length

variable
  {content sent : List UInt8} {events : List LoadEvent}
  {kf : KcnFile} {file file' : FileCtx} {kb' : KcnBuf}

/-- What was read was sent or is in the buffer. -/
theorem Covers.length_eq (covers : Covers content sent file) :
    sent.length + file.file.kb.len = file.file.off := by
  have same := covers.worn.length_eq
  rw [List.length_append, List.length_take,
    Nat.min_eq_left covers.off_le] at same
  rw [← same, KcndbFile.length_data]

/-- A read appends to the data. -/
theorem Covers.grown
    {taken : Trace} {new : List UInt8}
    (covers : Covers content sent file)
    (grown : KcndbFile.Grown file taken new file') :
    Covers content sent file' where
  content_eq := grown.content_eq.trans covers.content_eq
  off_le := by
    have inside := grown.off_le (covers.content_eq ▸ covers.off_le)
    rw [grown.content_eq, covers.content_eq] at inside
    exact inside
  before_eq := grown.before_eq.trans covers.before_eq
  worn := by
    have data : file'.file.kb.data = file.file.kb.data ++ new := by
      rw [data_eq, data_eq, grown.before_eq, grown.after_eq,
        List.append_assoc]
    have taken : content.take file'.file.off =
        content.take file.file.off ++ new := by
      have newEq := grown.new_eq
      rw [covers.content_eq] at newEq
      rw [grown.off_eq, List.take_add]
      exact congrArg _ newEq.symm
    rw [data, taken, ← List.append_assoc]
    exact covers.worn.append (.refl new)

/-- The parser moves data to what is sent. -/
theorem Covers.parsed
    {taken rest : List UInt8}
    (covers : Covers content sent kf.kfFile)
    (worn : Worn (taken ++ rest) kf.kfFile.file.kb.data)
    (holds : kb'.Holds size sp [] rest) :
    Covers content (sent ++ taken) (kbLens.set kf kb').kfFile where
  content_eq := covers.content_eq
  off_le := covers.off_le
  before_eq := holds.before_eq
  worn := by
    show Worn ((sent ++ taken) ++ kb'.data) _
    rw [holds.data_eq, List.nil_append, List.append_assoc]
    exact ((Worn.refl sent).append worn).trans covers.worn

theorem accounted_opened
    {type : Nat} {memory : List UInt8} {env : Env} {kn : NetCtx Unit} :
    Accounted content []
      ⟨opened type content memory env kn, .outside⟩ where
  covers := {
    content_eq := rfl
    off_le := Nat.zero_le _
    before_eq := (holds_new memory).before_eq
    worn := by
      show Worn ([] ++ (KcnBuf.new memory).data) _
      rw [(holds_new memory).data_eq]
      exact .nil
  }
  outside := fun _ => rfl
  loopHead := nofun

/-- The data in the buffer is part of what is not sent. -/
theorem Accounted.len_le
    (accounted : Accounted content events ⟨kf, .outside⟩)
    (covers : Covers content (sentBytes events) file) :
    file.file.kb.len ≤ kf.kfSize := by
  have size : kf.kfSize + (sentBytes events).length = content.length :=
    accounted.outside rfl
  have same := covers.length_eq
  have inside := covers.off_le
  omega

/-- What a read leaves. -/
theorem Accounted.covers_read
    (accounted : Accounted content events ⟨kf, .outside⟩)
    {error : Errno}
    (returns : KcndbFile.bufRead kf.kfFile = .ok (error, file)) :
    Covers content (sentBytes events) file := by
  have reads :
      wp KcndbFile.bufRead
        (fun _ file => Covers content (sentBytes events) file)
        (fun _ => True) kf.kfFile := by
    refine KcndbFile.wp_bufRead trivial (fun _ => trivial) ?_
    intro _ file result _
    cases result with
    | failed _ _ grown _ _ => exact accounted.covers.grown grown
    | ended _ grown _ _ => exact accounted.covers.grown grown
    | got _ _ grown _ _ _ => exact accounted.covers.grown grown
  have covers := wp_ok reads returns
  exact covers

theorem Accounted.of_outside
    (sentEq : sentBytes events = sent)
    (covers : Covers content sent kf.kfFile)
    (size : kf.kfSize + sent.length = content.length) :
    Accounted content events ⟨kf, .outside⟩ := by
  subst sentEq
  exact ⟨covers, fun _ => size, nofun⟩

theorem Accounted.of_loopHead
    (sentEq : sentBytes events = sent)
    (covers : Covers content sent kf.kfFile)
    (size : kf.kfSize + kf.kfFile.file.off = content.length) :
    Accounted content events ⟨kf, .loopHead⟩ := by
  subst sentEq
  exact ⟨covers, nofun, fun _ => size⟩

/-- What is left in the buffer is counted again. -/
theorem Accounted.of_counted
    (sentEq : sentBytes events = sent)
    (covers : Covers content sent kf.kfFile)
    (size : kf.kfSize + kf.kfFile.file.off = content.length) :
    Accounted content events ⟨counted kf, .outside⟩ := by
  refine .of_outside sentEq covers ?_
  have same := covers.length_eq
  show kf.kfSize + kf.kfFile.file.kb.len + sent.length = content.length
  omega

/-- What the parser takes of the data in the buffer. -/
theorem Covers.takes
    {type : Nat} {result : Except Errno KcnMsgAdd}
    (covers : Covers content sent kf.kfFile)
    (parses :
      fields type kf.kfFile.file.kb = .ok (result, kb)) :
    (∃ size sp taken rest, kb.Holds size sp taken rest ∧
        Worn (taken ++ rest) kf.kfFile.file.kb.data) ∨
      ∃ error, error ≠ Errno.eagain ∧ result = .error error := by
  have holds := kf.kfFile.file.kb.holds_self
  have data := kf.kfFile.file.kb.data_eq
  rw [covers.before_eq] at holds data
  rw [data]
  have runs :
      wp (fields type)
        (fun result kb' =>
          Takes kf.kfFile.file.kb.size kf.kfFile.file.kb.sp
            ([] ++ kf.kfFile.file.kb.after) result kb')
        (fun _ => True) kf.kfFile.file.kb :=
    wp_fields_takes type holds
  rcases wp_ok runs parses with ⟨taken, rest, holds', worn⟩ | other
  · exact .inl ⟨_, _, taken, rest, holds', worn⟩
  · exact .inr other

/-- Each step keeps the account. -/
theorem Accounted.step
    {s s' : LoadState} {event : LoadEvent}
    (accounted : Accounted content events s)
    (step : LoadStep s event s') :
    Accounted content (events ++ [event]) s' := by
  have quiet : sentBytes events ++ [] = sentBytes events :=
    List.append_nil _
  have sentEq := sentBytes_snoc events event
  cases step with
  | idle =>
      exact .of_outside (sentEq.trans quiet) accounted.covers
        (accounted.outside rfl)
  | elsewhere kn =>
      exact .of_outside (sentEq.trans quiet) accounted.covers
        (accounted.outside rfl)
  | notRead returns _ =>
      exact .of_outside (sentEq.trans quiet)
        (accounted.covers_read returns) (accounted.outside rfl)
  | @read kf file returns =>
      have covers := accounted.covers_read returns
      have same := covers.length_eq
      have enough := accounted.len_le covers
      have size : kf.kfSize + (sentBytes events).length = content.length :=
        accounted.outside rfl
      refine .of_loopHead (sentEq.trans quiet) covers ?_
      show kf.kfSize - file.file.kb.len + file.file.off = content.length
      omega
  | @line kf _ kb kb' _ _ parses _ trims =>
      rcases accounted.covers.takes parses with
        ⟨size, sp, taken, rest, holds, worn⟩ | ⟨_, _, other⟩
      · have trimmed :
            wp (trimHead taken.length)
              (fun _ kb' =>
                kb'.Holds size (sp + taken.length) [] rest)
              (fun _ => True) kb :=
          wp_trimHead_headingdata holds fun _ => id
        rw [← holds.headingdata_eq] at trimmed
        have holds' := wp_ok trimmed trims
        refine .of_loopHead (sentEq.trans ?_)
          (accounted.covers.parsed worn holds') (accounted.loopHead rfl)
        rw [← holds.before_eq]
        exact congrArg (sentBytes events ++ ·) (List.append_nil _)
      · cases other
  | @incomplete kf kb kb' _ parses starts =>
      rcases accounted.covers.takes parses with
        ⟨size, sp, taken, rest, holds, worn⟩ | ⟨_, other, same⟩
      · have started :
            wp KcnBuf.start
              (fun _ kb' => kb'.Holds size sp [] (taken ++ rest))
              (fun _ => True) kb :=
          wp_start holds fun _ => id
        have holds' := wp_ok started starts
        have covers :
            Covers content (sentBytes events ++ [])
              (kbLens.set kf kb').kfFile :=
          accounted.covers.parsed worn holds'
        exact .of_counted sentEq covers (accounted.loopHead rfl)
      · cases same
        exact absurd rfl other
  | enough _ =>
      exact .of_counted (sentEq.trans quiet) accounted.covers
        (accounted.loopHead rfl)

/-! ### Callbacks are made of steps -/

/-- From a state to one between two callbacks. -/
def Returns (s : LoadState) (kf : KcnFile) : Prop :=
  ∃ events, Run LoadStep s events ⟨kf, .outside⟩

theorem Returns.step
    {s s' : LoadState} {event : LoadEvent}
    (first : LoadStep s event s') (later : Returns s' kf) :
    Returns s kf := by
  obtain ⟨events, run⟩ := later
  exact ⟨[event] ++ events, (Run.single first).append run⟩

theorem Returns.last
    {s : LoadState} {event : LoadEvent}
    (only : LoadStep s event ⟨kf, .outside⟩) : Returns s kf :=
  ⟨[event], .single only⟩

/-- Each round of the loop is a step. -/
theorem wp_lineLoop_steps (rounds : Nat) (kf : KcnFile) :
    wp (lineLoop rounds)
      (fun _ kf' => Returns ⟨kf, .loopHead⟩ (counted kf'))
      (fun _ => True) kf := by
  induction rounds generalizing kf with
  | zero =>
      trivial
  | succ rounds inductionHypothesis =>
      unfold lineLoop
      rw [wp_bind, wp_gets, id, wp_ite]
      refine ⟨fun enters => ?_, fun stays => .last (.enough stays)⟩
      rw [wp_bind, wp_zoom]
      refine wp_of_ok fun result kb parses => ?_
      cases result with
      | error error =>
          simp only
          split
          · trivial
          · rename_i again
            rw [not_not] at again
            subst again
            rw [wp_zoom]
            refine wp_of_ok fun _ kb' starts => ?_
            exact .last (.incomplete enters parses starts)
      | ok kma =>
          simp only [wp_bind, wp_zoom]
          refine wp_of_ok fun sent kn sends => ?_
          cases sent with
          | false => trivial
          | true =>
              simp only [↓reduceIte, wp_bind, wp_modify, wp_gets,
                wp_zoom]
              refine wp_of_ok fun _ kb' trims => ?_
              refine wp_imp (inductionHypothesis _) fun _ kf' later => ?_
              exact .step (.line enters parses sends trims) later

/-- Each callback that returns is a run of steps. -/
theorem wp_readfile_steps (ready : Bool) (kf : KcnFile) :
    wp (readfile ready) (fun _ kf' => Returns ⟨kf, .outside⟩ kf')
      (fun _ => True) kf := by
  unfold readfile
  cases ready with
  | false =>
      exact .last .idle
  | true =>
      rw [if_pos rfl, wp_bind, wp_zoom]
      refine wp_of_ok fun error file reads => ?_
      by_cases done : error = 0
      · subst done
        rw [if_pos rfl]
        unfold taken
        simp only [wp_bind, wp_gets, wp_ite]
        refine ⟨fun _ => trivial, fun _ => ?_⟩
        simp only [wp_modify]
        refine wp_imp (wp_lineLoop_steps _ _) fun _ kf' later => ?_
        exact .step (.read reads) later
      · rw [if_neg done]
        exact .last (.notRead reads done)

theorem readfile_steps
    {ready again : Bool} {kf kf' : KcnFile}
    (returns : readfile ready kf = .ok (again, kf')) :
    Returns ⟨kf, .outside⟩ kf' := by
  have steps := wp_ok (wp_readfile_steps ready kf) returns
  exact steps

/-! ### The account of every load -/

/--
Between two callbacks the counter is the size of the file without the lines
that were sent, what a read leaves in the buffer is never more, and at the
head of the loop the counter is zero exactly when the file was read to its end.
-/
theorem remaining_bytes
    {type : Nat} {content memory : List UInt8} {env : Env}
    {kn : NetCtx Unit} {events : List LoadEvent} {s : LoadState}
    (run :
      Run LoadStep ⟨opened type content memory env kn, .outside⟩ events
        s) :
    Covers content (sentBytes events) s.kf.kfFile ∧
      (s.point = .outside →
        (sentBytes events).length ≤ content.length ∧
        s.kf.kfSize = content.length - (sentBytes events).length ∧
        (∀ file, KcndbFile.bufRead s.kf.kfFile = .ok (0, file) →
          file.file.kb.len ≤ s.kf.kfSize) ∧
        ∀ ready again kf,
          readfile ready s.kf = .ok (again, kf) → Returns s kf) ∧
      (s.point = .loopHead →
        (s.kf.kfSize = 0 ↔
          s.kf.kfFile.file.off = content.length)) := by
  have accounted : Accounted content events s :=
    run.invariant accounted_opened fun _ _ _ _ => Accounted.step
  refine ⟨accounted.covers, fun outside => ?_, fun loopHead => ?_⟩
  · obtain ⟨kf, point⟩ := s
    cases outside
    have size : kf.kfSize + (sentBytes events).length = content.length :=
      accounted.outside rfl
    refine ⟨by omega, Nat.eq_sub_of_add_eq size, ?_, ?_⟩
    · intro file reads
      exact accounted.len_le (accounted.covers_read reads)
    · exact fun _ _ _ => readfile_steps
  · have size := accounted.loopHead loopHead
    omega

/-- A file of one line that is read at once. -/
def lineFile : KcnFile :=
  opened 1 [0x31, 0x20, 0x32, 0x20, 0x61, 0x0a] (List.replicate 6 0)
    { errno := 0, trace := [.read .full] }
    (built 3 [] (List.replicate 64 0) { errno := 0, trace := [] }
      [.malloc true] [])

/-- Whether a callback returns with a number of lines sent. -/
def sendsLines (count : Nat) (kf : KcnFile) : Bool :=
  match readfile true kf with
  | .ok (_, kf') => kf'.kfLine = count
  | .error _ => false

theorem lineFile_sends : sendsLines 1 lineFile = true := by
  decide +kernel

/-- One line is sent, and nothing remains. -/
theorem remaining_bytes_line :
    ∃ events kf,
      Run LoadStep ⟨lineFile, .outside⟩ events ⟨kf, .outside⟩ ∧
      kf.kfLine = 1 ∧
      (sentBytes events).length ≤ 6 ∧
      kf.kfSize = 6 - (sentBytes events).length := by
  have sends := lineFile_sends
  unfold sendsLines at sends
  cases returns : readfile true lineFile with
  | error _ =>
      rw [returns] at sends
      cases sends
  | ok result =>
      obtain ⟨again, kf⟩ := result
      rw [returns] at sends
      obtain ⟨events, run⟩ := readfile_steps returns
      obtain ⟨atMost, size, _⟩ := (remaining_bytes run).2.1 rfl
      exact ⟨events, kf, run, of_decide_eq_true sends, atMost, size⟩

end KcndbctlFile

end Kcn
