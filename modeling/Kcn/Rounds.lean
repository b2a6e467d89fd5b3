import Kcn.Delivery
import Kcn.Library.Run

namespace Kcn

open Program Bytes KcnBuf Framing

/-!
# Frame boundaries

The reads and the messages of a session, one at a time, as long as no error
ends it.  A query of a wrong length leaves its body where it is, so that the
body is decoded as the next message.
-/

/-- The bytes of the frame that a header begins. -/
def frameSize (kmh : KcnMsgHeader) : Nat :=
  kcnMsgHdrsiz + kmh.kmhLen

/-- The bytes that `kcndb_server_recv` takes for it. -/
def takenSize (kmh : KcnMsgHeader) : Nat :=
  if kmh.kmhType = KcnMsgType.query.code ∧ kmh.kmhLen ≠ kcnMsgQuerySiz then
    kcnMsgHdrsiz
  else
    frameSize kmh

/-- The message is no query, or a query without a body or of the right length. -/
def KcnMsgHeader.Regular (kmh : KcnMsgHeader) : Prop :=
  kmh.kmhType = KcnMsgType.query.code →
    kmh.kmhLen = 0 ∨ kmh.kmhLen = kcnMsgQuerySiz

theorem frameSize_eq_takenSize_iff (kmh : KcnMsgHeader) :
    frameSize kmh = takenSize kmh ↔ kmh.Regular := by
  unfold takenSize KcnMsgHeader.Regular
  split
  · rename_i wrong
    obtain ⟨query, other⟩ := wrong
    unfold frameSize
    constructor
    · intro same _
      exact Or.inl (Nat.add_eq_left.mp same)
    · intro regular
      rcases regular query with none | right
      · rw [none, Nat.add_zero]
      · exact absurd right other
  · rename_i fine
    refine iff_of_true rfl fun query => Or.inr ?_
    by_contra other
    exact fine ⟨query, other⟩

/-- What is left of the data behind an accepted message. -/
theorem serverCut_rest
    {bytes rest : List UInt8} {kmh : KcnMsgHeader} {message : ServerFrame}
    (accepted : headerVerdict bytes = .accept kmh)
    (takes : serverCut bytes = .take message rest) :
    rest = bytes.drop (takenSize kmh) := by
  rw [serverCut_accepted accepted] at takes
  unfold takenSize frameSize
  split at takes
  · rename_i query
    split at takes
    · rename_i right
      cases takes
      rw [if_neg fun wrong => wrong.2 right, List.drop_drop]
    · rename_i other
      cases takes
      rw [if_pos ⟨query, other⟩]
  · rename_i foreign
    split at takes
    · split at takes
      · cases takes
      · cases takes
        rw [if_neg fun wrong => foreign wrong.1, List.drop_drop]
    · cases takes

/-- The server does not wait for more of an accepted message. -/
theorem serverCut_ne_wait
    {bytes : List UInt8} {kmh : KcnMsgHeader}
    (accepted : headerVerdict bytes = .accept kmh) :
    serverCut bytes ≠ .wait := by
  intro waits
  rw [serverCut_accepted accepted] at waits
  split at waits
  · split at waits <;> cases waits
  · split at waits
    · split at waits <;> cases waits
    · cases waits

/-- What is taken off the data begins with an accepted header. -/
theorem accepted_of_take
    {bytes rest : List UInt8} {message : ServerFrame}
    (takes : serverCut bytes = .take message rest) :
    ∃ kmh, headerVerdict bytes = .accept kmh := by
  cases verdict : headerVerdict bytes with
  | wait =>
      rw [serverCut, verdict] at takes
      cases takes
  | refuse error =>
      rw [serverCut, verdict] at takes
      cases takes
  | accept kmh =>
      exact ⟨kmh, rfl⟩

/-- No more is taken than the frame. -/
theorem takenSize_le (kmh : KcnMsgHeader) :
    takenSize kmh ≤ frameSize kmh := by
  unfold takenSize frameSize
  split
  · exact Nat.le_add_right _ _
  · exact Nat.le_refl _

namespace KcndbServer

open ServerCtx

section

variable {σ : Type}

/-- The offset in the client's bytes of the next one to be decoded. -/
def position (ctx : ServerCtx σ) : Nat :=
  ctx.conn.off - ctx.conn.kb.trailingdata

/-- `kcn_msg_header_decode` accepts the header at the cursor. -/
def Accepts (ctx : ServerCtx σ) (kmh : KcnMsgHeader) : Prop :=
  ∃ part, KcnMsg.headerDecode (msgLens.get ctx) = .ok (some kmh, part)

/--
A read or a round of the loop of `kcndb_server_recv` that does not end the
session.  The label is the accepted header, with its position.
-/
inductive Round (calls : ServerCalls σ) (ctx : ServerCtx σ) :
    Option (Nat × KcnMsgHeader) → ServerCtx σ → Prop where
  | reads (error : Errno) (ctx' : ServerCtx σ) :
      onConn KcndbFile.bufRead ctx = .ok (error, ctx') →
      error = 0 ∨ error = Errno.eagain →
      Round calls ctx none ctx'
  | waits (result : Option Errno) (ctx' : ServerCtx σ) :
      0 < ctx.conn.kb.trailingdata →
      (∀ kmh, ¬ Accepts ctx kmh) →
      recvStep calls ctx = .ok (result, ctx') →
      result = none ∨ result = some Errno.eagain →
      Round calls ctx none ctx'
  | decodes
      (kmh : KcnMsgHeader) (result : Option Errno) (ctx' : ServerCtx σ) :
      0 < ctx.conn.kb.trailingdata →
      Accepts ctx kmh →
      recvStep calls ctx = .ok (result, ctx') →
      result = none ∨ result = some Errno.eagain →
      Round calls ctx (some (position ctx, kmh)) ctx'

/-- The buffer holds the client's bytes from a position to the last read. -/
structure Sited (sent : List UInt8) (pos : Nat) (ctx : ServerCtx σ) :
    Prop where
  content_eq : ctx.conn.content = sent
  before : pos ≤ ctx.conn.off
  inside : ctx.conn.off ≤ sent.length
  holds :
    ∃ sp, ctx.conn.kb.Holds kcnMsgMaxsiz sp []
      (slice sent pos (ctx.conn.off - pos))

end

variable {σ : Type} {calls : ServerCalls σ} {ctx ctx' : ServerCtx σ}
  {sent : List UInt8} {pos : Nat}

theorem Sited.length_data (sited : Sited sent pos ctx) :
    (slice sent pos (ctx.conn.off - pos)).length = ctx.conn.off - pos := by
  have before := sited.before
  have inside := sited.inside
  rw [length_slice]
  omega

theorem Sited.position_eq (sited : Sited sent pos ctx) :
    position ctx = pos := by
  obtain ⟨sp, holds⟩ := sited.holds
  have before := sited.before
  rw [position, holds.trailingdata_eq, sited.length_data]
  omega

/-- The header is accepted if the data allow it. -/
theorem accepts_iff
    {size sp : Nat} {bytes : List UInt8}
    (holds : ctx.conn.kb.Holds size sp [] bytes) (kmh : KcnMsgHeader) :
    Accepts ctx kmh ↔ headerVerdict bytes = .accept kmh := by
  have decoded :
      wp KcnMsg.headerDecode
        (fun result _ => ∀ kmh,
          result = some kmh ↔ headerVerdict bytes = .accept kmh)
        (fun _ => False) (msgLens.get ctx) := by
    refine KcnMsg.wp_headerDecode holds ?_ ?_ ?_
    · intro waits kb _ kmh
      rw [waits]
      simp
    · intro error refused kb _ kmh
      rw [refused]
      simp
    · intro kmh' accepted kb _ kmh
      rw [accepted]
      simp
  obtain ⟨result, part, runs, same⟩ := wp_returns decoded
  rw [← same kmh]
  constructor
  · rintro ⟨part', runs'⟩
    rw [runs] at runs'
    cases runs'
    rfl
  · rintro rfl
    exact ⟨part, runs⟩

/-- A read only adds bytes of the client behind the data. -/
theorem Sited.grown
    (sited : Sited sent pos ctx) {file : FileCtx} {taken : Trace}
    {new : List UInt8}
    (grown : KcndbFile.Grown (connLens.get ctx) taken new file) :
    Sited sent pos (connLens.set ctx file) := by
  obtain ⟨sp, holds⟩ := sited.holds
  have contentEq : file.file.content = sent :=
    grown.content_eq.trans sited.content_eq
  have offEq : file.file.off = ctx.conn.off + new.length := grown.off_eq
  have sizeEq : file.file.kb.size = kcnMsgMaxsiz :=
    grown.size_eq.trans holds.size_eq
  have beforeEq : file.file.kb.before = [] :=
    grown.before_eq.trans holds.before_eq
  have afterEq :
      file.file.kb.after =
        slice sent pos (file.file.off - pos) := by
    have newEq : new = slice sent ctx.conn.off new.length := by
      rw [← sited.content_eq]
      exact grown.new_eq
    have after : (connLens.get ctx).file.kb.after = _ := holds.after_eq
    have start : pos + (ctx.conn.off - pos) = ctx.conn.off :=
      Nat.add_sub_cancel' sited.before
    rw [grown.after_eq, after, offEq, Nat.sub_add_comm sited.before,
      slice_add, start, ← newEq]
  refine ⟨contentEq, ?_, ?_, ⟨file.file.kb.sp, ?_⟩⟩
  · have further : ctx.conn.off ≤ file.file.off := by
      rw [offEq]
      exact Nat.le_add_right _ _
    exact Nat.le_trans sited.before further
  · have inside : ctx.conn.off ≤ ctx.conn.content.length := by
      rw [sited.content_eq]
      exact sited.inside
    have within := grown.off_le inside
    rw [contentEq] at within
    exact within
  · have holds' := holds_self file.file.kb
    rw [sizeEq, beforeEq, afterEq] at holds'
    exact holds'

/-- The data behind what was taken. -/
theorem Sited.moved
    (sited : Sited sent pos ctx) {count sp : Nat} {kb : KcnBuf}
    {errno : Errno} {served : Served σ}
    (bound : count ≤ ctx.conn.off - pos)
    (holds :
      kb.Holds kcnMsgMaxsiz sp []
        ((slice sent pos (ctx.conn.off - pos)).drop count)) :
    Sited sent (pos + count) (ctx.moved kb errno served) := by
  have before := sited.before
  refine ⟨sited.content_eq, ?_, sited.inside, ⟨sp, ?_⟩⟩
  · change pos + count ≤ ctx.conn.off
    omega
  · have rest :
        (slice sent pos (ctx.conn.off - pos)).drop count =
          slice sent (pos + count) (ctx.conn.off - (pos + count)) := by
      rw [slice, slice, List.drop_take, List.drop_drop, Nat.sub_sub]
    rw [rest] at holds
    exact holds

/-- A round keeps the position, or passes what is taken for a header there. -/
theorem Sited.step
    (sited : Sited sent pos ctx) {label : Option (Nat × KcnMsgHeader)}
    (round : Round calls ctx label ctx') :
    label = none ∧ Sited sent pos ctx' ∨
      ∃ kmh, label = some (pos, kmh) ∧ kmh = headerOf (sent.drop pos) ∧
        Sited sent (pos + takenSize kmh) ctx' := by
  obtain ⟨sp, holds⟩ := sited.holds
  have lengthEq := sited.length_data
  have goesOn {error : Errno} {bytes : List UInt8}
      (refuses : serverCut bytes = .refuse error) :
      ¬ (some error = none ∨ some error = some Errno.eagain) := by
    rintro (none | again)
    · cases none
    · exact serverCut_refuse refuses (Option.some.inj again)
  cases round with
  | reads error _ returns _ =>
      have grown :
          wp (onConn KcndbFile.bufRead)
            (fun _ ctx' => Sited sent pos ctx') (fun _ => True) ctx := by
        unfold onConn
        rw [wp_zoom]
        refine KcndbFile.wp_bufRead trivial (fun _ => trivial) ?_
        intro error file result _
        cases result with
        | failed _ _ grown _ _ =>
            exact sited.grown grown
        | ended _ grown _ _ =>
            exact sited.grown grown
        | got _ _ grown _ _ _ =>
            exact sited.grown grown
      have sited' := wp_ok grown returns
      exact Or.inl ⟨rfl, sited'⟩
  | waits result _ _ unaccepted returns on =>
      have same :
          wp (recvStep calls)
            (fun result ctx' =>
              result = none ∨ result = some Errno.eagain →
                Sited sent pos ctx')
            (fun _ => True) ctx := by
        refine wp_recvStep holds ?_ ?_ ?_
        · intro _ kb holds' _
          exact sited.moved (Nat.zero_le _) holds'
        · intro error refuses kb _ on
          exact absurd on (goesOn refuses)
        · intro message rest takes
          obtain ⟨kmh, accepted⟩ := accepted_of_take takes
          exact absurd ((accepts_iff holds kmh).mpr accepted)
            (unaccepted kmh)
      have sited' := wp_ok same returns on
      exact Or.inl ⟨rfl, sited'⟩
  | decodes kmh result _ _ accepts returns on =>
      have accepted := (accepts_iff holds kmh).mp accepts
      have shape := accepted_of_verdict accepted
      have whole := shape.whole
      have fits := takenSize_le kmh
      unfold frameSize at fits
      have moved :
          wp (recvStep calls)
            (fun result ctx' =>
              result = none ∨ result = some Errno.eagain →
                Sited sent (pos + takenSize kmh) ctx')
            (fun _ => True) ctx := by
        refine wp_recvStep holds ?_ ?_ ?_
        · intro waits
          exact absurd waits (serverCut_ne_wait accepted)
        · intro error refuses kb _ on
          exact absurd on (goesOn refuses)
        · intro message rest takes
          have restEq := serverCut_rest accepted takes
          refine wp_of_ok fun result served _ => ?_
          intro sp' kb errno holds' _ _
          rw [restEq] at holds'
          exact sited.moved (by omega) holds'
      have header : kmh = headerOf (sent.drop pos) := by
        have split :
            sent.drop pos =
              slice sent pos (ctx.conn.off - pos) ++
                (sent.drop pos).drop (ctx.conn.off - pos) :=
          (List.take_append_drop _ _).symm
        rw [shape.header, split, headerOf_append (by omega)]
      have sited' := wp_ok moved returns on
      refine Or.inr ⟨kmh, ?_, header, sited'⟩
      rw [sited.position_eq]

/-- The accepted headers of a run, with their positions. -/
def decoded (labels : List (Option (Nat × KcnMsgHeader))) :
    List (Nat × KcnMsgHeader) :=
  labels.filterMap id

/-- The headers so far lie behind one another as they are taken. -/
def Walked (sent : List UInt8)
    (labels : List (Option (Nat × KcnMsgHeader))) (ctx : ServerCtx σ) :
    Prop :=
  ∃ last, Sited sent last ctx ∧ Laid takenSize 0 (decoded labels) last ∧
    ∀ item ∈ decoded labels, item.2 = headerOf (sent.drop item.1)

theorem walked_run
    {labels : List (Option (Nat × KcnMsgHeader))}
    (sited : Sited sent 0 ctx)
    (run : Run (Round calls) ctx labels ctx') :
    Walked sent labels ctx' := by
  refine run.invariant ⟨0, sited, .nil 0, nofun⟩ ?_
  rintro labels ctx₁ label ctx₂ ⟨last, sited₁, laid, headers⟩ round
  have decodedEq :
      decoded (labels ++ [label]) = decoded labels ++ label.toList := by
    rw [decoded, List.filterMap_append]
    cases label <;> rfl
  rw [Walked, decodedEq]
  rcases sited₁.step round with ⟨rfl, sited₂⟩ | ⟨kmh, rfl, header, sited₂⟩
  · rw [Option.toList_none, List.append_nil]
    exact ⟨last, sited₂, laid, headers⟩
  · refine ⟨_, sited₂, laid.snoc kmh, ?_⟩
    intro item member
    rcases List.mem_append.mp member with earlier | here
    · exact headers item earlier
    · rw [Option.toList_some, List.mem_singleton] at here
      rw [here]
      exact header

theorem sited_connect
    (sent : List UInt8) (memory : InputBlock) (env : Env) (world : σ) :
    Sited sent 0 (connect sent memory env world) := by
  have fresh := holds_new memory.val
  rw [memory.property] at fresh
  exact ⟨rfl, Nat.le_refl _, Nat.zero_le _, ⟨0, fresh⟩⟩

/-! ### Sessions are such runs -/

/-- What every read and every round of a session keeps, the session keeps. -/
theorem wp_session_keeps
    {Inv : ServerCtx σ → Prop} {halt : Stop → Prop}
    (starved : halt .starved)
    (reads : ∀ ctx, Inv ctx →
      wp (onConn KcndbFile.bufRead)
        (fun error ctx' => error = 0 ∨ error = Errno.eagain → Inv ctx')
        halt ctx)
    (rounds : ∀ ctx, Inv ctx → 0 < ctx.conn.kb.trailingdata →
      wp (recvStep calls)
        (fun result ctx' =>
          result = none ∨ result = some Errno.eagain → Inv ctx')
        halt ctx)
    (inv : Inv ctx) :
    wp (session calls)
      (fun error ctx' => error = Errno.eagain → Inv ctx') halt ctx := by
  have loops (count : Nat) : ∀ ctx, Inv ctx →
      wp (recvLoop calls count)
        (fun error ctx' => error = Errno.eagain → Inv ctx') halt ctx := by
    induction count with
    | zero =>
        exact fun _ _ => starved
    | succ count inductionHypothesis =>
        intro ctx inv
        unfold recvLoop
        simp only [wp_bind, wp_gets]
        split
        · rename_i more
          rw [wp_bind]
          refine wp_imp (rounds ctx inv more) fun result ctx' next => ?_
          cases result with
          | none =>
              exact inductionHypothesis ctx' (next (Or.inl rfl))
          | some error =>
              exact fun again => next (Or.inr (congrArg some again))
        · exact fun _ => inv
  have sessions (count : Nat) : ∀ ctx, Inv ctx →
      wp (sessionLoop calls count)
        (fun error ctx' => error = Errno.eagain → Inv ctx') halt ctx := by
    induction count with
    | zero =>
        exact fun _ _ => starved
    | succ count inductionHypothesis =>
        intro ctx inv
        unfold sessionLoop readCb recv
        simp only [wp_bind, wp_gets]
        split
        · simp only [wp_bind]
          refine wp_imp (reads ctx inv) fun error ctx₁ next => ?_
          split
          · rename_i read
            simp only [wp_bind, wp_gets]
            refine wp_imp (loops _ ctx₁ (next (Or.inl read))) ?_
            intro error ctx₂ later
            split
            · rename_i again
              exact inductionHypothesis ctx₂ (later again)
            · rename_i other
              exact fun again => absurd again other
          · rw [wp_pure]
            split
            · rename_i again
              exact inductionHypothesis ctx₁ (next (Or.inr again))
            · rename_i other
              exact fun again => absurd again other
        · exact fun _ => inv
  unfold session
  simp only [wp_bind, wp_gets]
  exact sessions _ ctx inv

/-- A session that no error ends is a run of its reads and rounds. -/
theorem session_rounds
    (returns : session calls ctx = .ok (Errno.eagain, ctx')) :
    ∃ labels, Run (Round calls) ctx labels ctx' := by
  have runs :
      wp (session calls)
        (fun error ctx' => error = Errno.eagain →
          ∃ labels, Run (Round calls) ctx labels ctx')
        (fun _ => True) ctx := by
    refine wp_session_keeps trivial ?_ ?_ ⟨[], .nil⟩
    · rintro ctx₁ ⟨labels, run⟩
      refine wp_of_ok fun error ctx₂ returns on => ?_
      exact ⟨_, run.snoc (.reads error ctx₂ returns on)⟩
    · rintro ctx₁ ⟨labels, run⟩ more
      refine wp_of_ok fun result ctx₂ returns on => ?_
      by_cases accepts : ∃ kmh, Accepts ctx₁ kmh
      · obtain ⟨kmh, accepts⟩ := accepts
        exact ⟨_, run.snoc (.decodes kmh result ctx₂ more accepts returns on)⟩
      · have unaccepted : ∀ kmh, ¬ Accepts ctx₁ kmh :=
          fun kmh accepted => accepts ⟨kmh, accepted⟩
        exact ⟨_, run.snoc (.waits result ctx₂ more unaccepted returns on)⟩
  exact wp_ok runs returns rfl

/-! ### Runs that are computed -/

/-- Read, or handle the message at the cursor. -/
def perform (calls : ServerCalls σ) (ctx : ServerCtx σ) (reads : Bool) :
    Option (Option (Nat × KcnMsgHeader) × ServerCtx σ) :=
  if reads then
    match onConn KcndbFile.bufRead ctx with
    | .ok (error, ctx') =>
        if error = 0 ∨ error = Errno.eagain then
          some (none, ctx')
        else
          none
    | .error _ => none
  else if 0 < ctx.conn.kb.trailingdata then
    match KcnMsg.headerDecode (msgLens.get ctx), recvStep calls ctx with
    | .ok (header, _), .ok (result, ctx') =>
        if result = none ∨ result = some Errno.eagain then
          some (header.map fun kmh => (position ctx, kmh), ctx')
        else
          none
    | _, _ => none
  else
    none

theorem round_perform
    (ctx : ServerCtx σ) (reads : Bool)
    (label : Option (Nat × KcnMsgHeader)) (ctx' : ServerCtx σ)
    (performed : perform calls ctx reads = some (label, ctx')) :
    Round calls ctx label ctx' := by
  unfold perform at performed
  split at performed
  · split at performed
    · rename_i error ctx₁ returns
      split at performed
      · rename_i on
        cases performed
        exact .reads error ctx' returns on
      · cases performed
    · cases performed
  · split at performed
    · rename_i more
      split at performed
      · rename_i header part result ctx₁ decodes returns
        split at performed
        · rename_i on
          cases performed
          cases header with
          | none =>
              refine .waits result ctx' more ?_ returns on
              rintro kmh ⟨part', accepts⟩
              rw [decodes] at accepts
              cases accepts
          | some kmh =>
              exact .decodes kmh result ctx' more ⟨part, decodes⟩ returns
                on
        · cases performed
      · cases performed
    · cases performed

/-- A client that sends the bytes at once. -/
def sending (sent : List UInt8) : ServerCtx Nat :=
  connect sent zeros { errno := 0, trace := [.read .full] } 0

/--
The frames of a run lie one behind the other from the first byte to the last
one taken, if and only if no query among them has a wrong length.
-/
theorem frames_laid
    {memory : InputBlock} {env : Env} {world : σ}
    {labels : List (Option (Nat × KcnMsgHeader))}
    (run :
      Run (Round calls) (connect sent memory env world) labels ctx') :
    (∀ item ∈ decoded labels, item.2 = headerOf (sent.drop item.1)) ∧
      (Laid frameSize 0 (decoded labels) (position ctx') ↔
        ∀ item ∈ decoded labels, item.2.Regular) := by
  obtain ⟨last, sited, laid, headers⟩ :=
    walked_run (sited_connect sent memory env world) run
  refine ⟨headers, ?_⟩
  rw [sited.position_eq, laid.iff_size]
  constructor
  · intro same item member
    exact (frameSize_eq_takenSize_iff item.2).mp (same item member)
  · intro regular item member
    exact (frameSize_eq_takenSize_iff item.2).mpr (regular item member)

/-- Two headers were decoded, at the given positions. -/
def decodedTwo (first second : Nat) (length : Nat)
    (labels : List (Option (Nat × KcnMsgHeader))) (ctx : ServerCtx Nat) :
    Bool :=
  decoded labels ==
      [(0, { kmhVersion := 1, kmhType := 1, kmhLen := length }),
        (first, { kmhVersion := 1, kmhType := 1, kmhLen := 0 })] &&
    position ctx == second

/-- Two queries without a body, to which `frames_laid` applies. -/
theorem frames_laid_empty :
    ∃ labels ctx',
      Run (Round countingCalls) (sending [1, 1, 0, 0, 1, 1, 0, 0]) labels
        ctx' ∧
      Laid frameSize 0 (decoded labels) (position ctx') := by
  obtain ⟨labels, ctx', run, shown⟩ :=
    Run.of_shown round_perform
      (show
        (performAll (perform countingCalls)
          (sending [1, 1, 0, 0, 1, 1, 0, 0]) [true, false, false]).any
            (fun performed =>
              decodedTwo 4 8 0 performed.1 performed.2) = true
        by decide +kernel)
  rw [decodedTwo, Bool.and_eq_true, beq_iff_eq] at shown
  refine ⟨labels, ctx', run, (frames_laid run).2.mpr ?_⟩
  rw [shown.1]
  simp [KcnMsgHeader.Regular]

/-- The body of a query of four bytes is decoded as the next message. -/
theorem frames_overlap :
    ∃ labels ctx',
      Run (Round countingCalls) (sending [1, 1, 0, 4, 1, 1, 0, 0]) labels
        ctx' ∧
      ¬ Laid frameSize 0 (decoded labels) (position ctx') := by
  obtain ⟨labels, ctx', run, shown⟩ :=
    Run.of_shown round_perform
      (show
        (performAll (perform countingCalls)
          (sending [1, 1, 0, 4, 1, 1, 0, 0]) [true, false, false]).any
            (fun performed =>
              decodedTwo 4 8 4 performed.1 performed.2) = true
        by decide +kernel)
  rw [decodedTwo, Bool.and_eq_true, beq_iff_eq] at shown
  refine ⟨labels, ctx', run, ?_⟩
  rw [shown.1]
  intro laid
  cases laid with
  | cons later =>
      cases later

end KcndbServer

end Kcn
