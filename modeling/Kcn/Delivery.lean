import Kcn.Serving

namespace Kcn

open Program Bytes KcnBuf Framing

/-!
# Delivery in pieces

However the client's bytes are cut into reads, the server handles the same
messages and ends in the same way: its loop is the framer's run, and a framer's
run does not depend on how its input arrives.
-/

/-- The read moves bytes. -/
def Event.Moves : Event → Prop
  | .read (.fail _) => False
  | .read _ => True
  | _ => False

/-- Reads that move at least as many bytes as the client sends. -/
structure Trace.Delivers (trace : Trace) (count : Nat) : Prop where
  moves : ∀ event ∈ trace, event.Moves
  enough : count ≤ trace.length

/-- Where bytes are to be moved, the next read moves some. -/
theorem Trace.Delivers.next
    {trace : Trace} {count : Nat}
    (delivers : trace.Delivers count) (more : 0 < count) :
    ∃ event rest, trace = event :: rest ∧ event.Moves ∧
      ∀ left, left < count → Trace.Delivers rest left := by
  cases trace with
  | nil =>
      exact absurd delivers.enough (Nat.not_le.mpr more)
  | cons event rest =>
      refine ⟨event, rest, rfl, delivers.moves event List.mem_cons_self,
        ?_⟩
      intro left less
      refine ⟨fun event' member =>
        delivers.moves event' (List.mem_cons_of_mem _ member), ?_⟩
      have enough := delivers.enough
      rw [List.length_cons] at enough
      exact Nat.le_of_lt_succ (Nat.lt_of_lt_of_le less enough)

namespace KcndbFile

open FileCtx

variable {halt : Stop → Prop} {ctx : FileCtx}

/-- The transfer of a read that moves bytes. -/
theorem transfer_of_moves
    {event : Event} (moves : event.Moves) :
    ∃ transfer, event = .read transfer ∧
      ∀ error, transfer ≠ .fail error := by
  cases event with
  | read transfer =>
      refine ⟨transfer, rfl, ?_⟩
      rintro error rfl
      exact moves
  | openFile _ | lock _ | stat _ | seek _ | write _ | callback _ =>
      exact moves.elim

/-- `read(2)` when the next answer is no failure. -/
theorem wp_sysRead_moves
    {post : Except Errno (List UInt8) → FileCtx → Prop}
    {transfer : Transfer} {rest : Trace}
    (answer : ctx.env.trace = .read transfer :: rest)
    (full : ∀ error, transfer ≠ .fail error)
    (space : Nat)
    (next : ∀ new,
      new = slice ctx.file.content ctx.file.off new.length →
      new.length =
        transfer.amount
          (min space (ctx.file.content.length - ctx.file.off)) →
      post (.ok new) {
        file := { ctx.file with off := ctx.file.off + new.length }
        env := { ctx.env with trace := rest }
      }) :
    wp (sysRead space) post halt ctx := by
  have notInterrupted :
      ¬ ctx.env.trace.head? = some (.read (.fail .eintr)) := by
    rw [answer, List.head?_cons]
    intro same
    cases same
    exact full _ rfl
  unfold sysRead
  simp only [sys, wp_bind, wp_zoom, Env.skip, wp_modify, envLens,
    notInterrupted, ↓reduceIte]
  have answers :
      Env.next ctx.env =
        .ok (.read transfer, { ctx.env with trace := rest }) := by
    simp only [Env.next, answer]
  rw [wp, answers]
  have inside :=
    transfer.amount_le
      (min space (ctx.file.content.length - ctx.file.off))
  have lengthEq :
      (slice ctx.file.content ctx.file.off
          (transfer.amount
            (min space
              (ctx.file.content.length - ctx.file.off)))).length =
        transfer.amount
          (min space (ctx.file.content.length - ctx.file.off)) := by
    rw [length_slice]
    omega
  cases transfer with
  | fail error =>
      exact absurd rfl (full error)
  | full | short count =>
      apply next _ _ lengthEq
      rw [lengthEq]

/-- `kcn_buf_read` when there is room and there are bytes to be moved. -/
theorem wp_bufRead_moves
    {post : Errno → FileCtx → Prop} {event : Event} {rest : Trace}
    (answer : ctx.env.trace = event :: rest)
    (moves : event.Moves)
    (room : ctx.file.kb.len < ctx.file.kb.size)
    (more : ctx.file.off < ctx.file.content.length)
    (next : ∀ new kb,
      new ≠ [] →
      new = slice ctx.file.content ctx.file.off new.length →
      (∀ count, event = .read (.short count) →
        new.length ≤ max count 1) →
      (ctx.file.kb.sp = 0 → ∀ transfer, event = .read transfer →
        new.length =
          transfer.amount
            (min (ctx.file.kb.size - ctx.file.kb.len)
              (ctx.file.content.length - ctx.file.off))) →
      kb.Holds ctx.file.kb.size kb.sp ctx.file.kb.before
        (ctx.file.kb.after ++ new) →
      post 0 {
        file := {
          content := ctx.file.content
          off := ctx.file.off + new.length
          kb := kb
        }
        env := { ctx.env with trace := rest }
      }) :
    wp bufRead post halt ctx := by
  obtain ⟨transfer, rfl, full⟩ := transfer_of_moves moves
  unfold bufRead
  rw [wp_bind, buf, wp_zoom]
  refine wp_prepareRead (fun same => absurd same (Nat.ne_of_lt room)) ?_
  intro kb holds realigned space
  have amount :
      0 < transfer.amount
        (min kb.trailingspace
          (ctx.file.content.length - ctx.file.off)) := by
    cases transfer with
    | fail error =>
        exact absurd rfl (full error)
    | full | short count =>
        simp only [Transfer.amount]
        omega
  rw [wp_bind, wp_gets, wp_bind]
  have answer' : (kbLens.set ctx kb).env.trace = .read transfer :: rest :=
    answer
  apply wp_sysRead_moves answer' full kb.trailingspace
  intro new newEq moved
  have nonempty : new ≠ [] := by
    apply List.ne_nil_of_length_pos
    exact Nat.lt_of_lt_of_eq amount moved.symm
  have fits : new.length ≤ kb.trailingspace := by
    rw [moved]
    exact Nat.le_trans (transfer.amount_le _) (Nat.min_le_left _ _)
  cases new with
  | nil =>
      exact absurd rfl nonempty
  | cons byte later =>
      simp only [buf, wp_bind, wp_zoom, wp_pure]
      have space' := holds.trailingspace_eq
      have sizes := holds.le_size
      refine wp_fill holds (by omega) fun kb' holds' _ => ?_
      refine next _ kb' nonempty newEq ?_ ?_ ?_
      · intro count same
        cases same
        rw [moved]
        exact Nat.min_le_left _ _
      · intro start transfer' same
        cases same
        have startEq : kb.sp = 0 := by
          rcases realigned with unmoved | atStart
          · exact unmoved.trans start
          · exact atStart.1
        have len := (holds_self ctx.file.kb).len_eq
        have spaceEq :
            kb.trailingspace = ctx.file.kb.size - ctx.file.kb.len := by
          rw [space', startEq, len, Nat.zero_add]
          rfl
        rw [moved, spaceEq]
        rfl
      · rw [holds'.sp_eq]
        exact holds'

/-- `kcn_buf_read` at the end of the file. -/
theorem wp_bufRead_end
    {post : Errno → FileCtx → Prop} {event : Event} {rest : Trace}
    (answer : ctx.env.trace = event :: rest)
    (moves : event.Moves)
    (room : ctx.file.kb.len < ctx.file.kb.size)
    (none : ctx.file.content.length ≤ ctx.file.off)
    (next : ∀ kb,
      post Errno.eshutdown {
        file := { ctx.file with kb := kb }
        env := { ctx.env with trace := rest }
      }) :
    wp bufRead post halt ctx := by
  obtain ⟨transfer, rfl, full⟩ := transfer_of_moves moves
  unfold bufRead
  rw [wp_bind, buf, wp_zoom]
  refine wp_prepareRead (fun same => absurd same (Nat.ne_of_lt room)) ?_
  intro kb holds _ _
  rw [wp_bind, wp_gets, wp_bind]
  have answer' : (kbLens.set ctx kb).env.trace = .read transfer :: rest :=
    answer
  apply wp_sysRead_moves answer' full kb.trailingspace
  intro new newEq moved
  have empty : new = [] := by
    rw [newEq, slice, kbLens, List.drop_eq_nil_of_le none,
      List.take_nil]
  rw [empty]
  exact next kb

end KcndbFile

namespace ServerCalls

variable {σ : Type} {calls : ServerCalls σ}

/-- The calls always return, and no failure of them is `EAGAIN`. -/
structure Settled (calls : ServerCalls σ) : Prop where
  search : ∀ ke maxnlocs world, ∃ result world',
    calls.search ke maxnlocs world = .ok (result, world')
  respond : ∀ error world, ∃ world',
    calls.respond error world = .ok ((), world')
  time : ∀ world, ∃ result world',
    calls.time world = .ok (result, world') ∧
      result ≠ .error Errno.eagain
  recordAdd : ∀ type kdr world, ∃ result world',
    calls.recordAdd type kdr world = .ok (result, world') ∧
      result ≠ some Errno.eagain

/-- A call that returns is a step of its world. -/
theorem wp_call
    {α : Type} {op : Program Stop σ α} {served : Served σ}
    {post : α → Served σ → Prop} {halt : Stop → Prop}
    {value : α} {world : σ}
    (returns : op served.world = .ok (value, world))
    (next : post value { served with world := world }) :
    wp (Served.call op) post halt served := by
  unfold Served.call
  rw [wp_zoom, Served.worldLens, wp, returns]
  exact next

/-- Handling a message returns, and never with `EAGAIN`. -/
theorem Settled.handle
    (settled : calls.Settled) (message : ServerFrame)
    (served : Served σ) :
    wp (calls.handle message)
      (fun result _ => ∀ error,
        result = some error → error ≠ Errno.eagain)
      (fun _ => False) served := by
  cases message with
  | query kmq =>
      cases kmq with
      | none =>
          obtain ⟨world, answered⟩ :=
            settled.respond Errno.einval served.world
          simp only [ServerCalls.handle, handleQuery, wp_bind]
          exact wp_call answered fun _ same => by cases same
      | some kmq =>
          simp only [ServerCalls.handle, handleQuery, Served.hand,
            wp_bind, wp_modify]
          obtain ⟨result, world, found⟩ :=
            settled.search kmq.kmqEq kmq.kmqMaxcount.toNat served.world
          refine wp_call found ?_
          obtain ⟨world', answered⟩ :=
            settled.respond (result.getD 0) world
          exact wp_call answered fun _ same => by cases same
  | add kma =>
      simp only [ServerCalls.handle, handleAdd, Served.hand, wp_bind,
        wp_modify]
      have stored (time : Int64) (served' : Served σ) :
          wp
            (Served.call
              (calls.recordAdd kma.kmaType {
                kdrTime := time
                kdrVal := kma.kmaVal
                kdrLocidx := 0
                kdrLoc := kma.kmaLoc
              }))
            (fun result _ => ∀ error,
              result = some error → error ≠ Errno.eagain)
            (fun _ => False) served' := by
        obtain ⟨result, world, added, other⟩ :=
          settled.recordAdd kma.kmaType {
            kdrTime := time
            kdrVal := kma.kmaVal
            kdrLocidx := 0
            kdrLoc := kma.kmaLoc
          } served'.world
        refine wp_call added ?_
        rintro error rfl again
        subst again
        exact other rfl
      unfold timeOf
      split
      · simp only [wp_pure]
        exact stored _ _
      · obtain ⟨result, world, ticked, other⟩ :=
          settled.time served.world
        refine wp_call ticked ?_
        cases result with
        | error error =>
            rintro error' same again
            cases same
            subst again
            exact other rfl
        | ok time =>
            exact stored time _

end ServerCalls

/-- The server never refuses data with `EAGAIN`. -/
theorem serverCut_refuse
    {bytes : List UInt8} {error : Errno}
    (refuses : serverCut bytes = .refuse error) :
    error ≠ Errno.eagain := by
  unfold serverCut headerVerdict at refuses
  rintro rfl
  split at refuses
  · cases refuses
  · rename_i refused
    cases refuses
    split at refused
    · cases refused
    · split at refused
      · cases refused
      · split at refused
        · cases refused
        · split at refused <;> cases refused
  · simp only at refuses
    split at refuses
    · split at refuses <;> cases refuses
    · split at refuses
      · split at refuses <;> cases refuses
      · cases refuses

namespace KcndbServer

open ServerCtx

variable
  {σ : Type} {calls : ServerCalls σ}
  {halt : Stop → Prop} {ctx : ServerCtx σ}
  {size sp : Nat} {bytes : List UInt8}

/-- What `kcndb_server_recv` returns and leaves for the end of a run. -/
def Returns
    (ctx : ServerCtx σ) (size : Nat)
    (post : Errno → ServerCtx σ → Prop) :
    Handled UInt8 Errno → Served σ → Prop
  | .waiting rest, served =>
      ∀ sp kb errno, kb.Holds size sp [] rest →
        post Errno.eagain (ctx.moved kb errno served)
  | .ended error, served =>
      ∀ kb errno, kb.size = size →
        post error (ctx.moved kb errno served)

/-- The loop of `kcndb_server_recv` is the framer's run. -/
theorem wp_recvLoop
    {post : Errno → ServerCtx σ → Prop}
    (holds : ctx.conn.kb.Holds size sp [] bytes)
    {rounds : Nat} (bound : bytes.length < rounds)
    (runs :
      wp (serverFramer.run calls.handle bytes) (Returns ctx size post)
        halt ctx.served) :
    wp (recvLoop calls rounds) post halt ctx := by
  induction rounds generalizing ctx sp bytes with
  | zero =>
      exact absurd bound (Nat.not_lt_zero _)
  | succ rounds inductionHypothesis =>
      unfold recvLoop
      simp only [wp_bind, wp_gets, holds.trailingdata_eq]
      split
      · rw [wp_bind]
        refine wp_recvStep holds ?_ ?_ ?_
        · intro waits kb holds'
          rw [Framer.run_wait waits] at runs
          exact runs _ kb _ holds'
        · intro error refuses kb sizeEq
          rw [Framer.run_refuse refuses] at runs
          exact runs kb _ sizeEq
        · intro message rest takes
          have smaller := serverCut_shrinks takes
          rw [Framer.run_take takes, wp_bind] at runs
          refine wp_imp runs ?_
          intro result served later sp' kb errno holds' _
          cases result with
          | none =>
              have less : rest.length < rounds := by
                omega
              exact inductionHypothesis holds' less later
          | some error =>
              exact later kb errno holds'.size_eq
      · rename_i none
        have empty : bytes = [] :=
          List.length_eq_zero_iff.mp (Nat.eq_zero_of_not_pos none)
        subst empty
        have waits : serverCut [] = .wait := rfl
        rw [Framer.run_wait waits] at runs
        exact runs sp ctx.conn.kb ctx.env.errno holds

/-- `kcndb_server_recv` -/
theorem wp_recv
    {post : Errno → ServerCtx σ → Prop}
    (holds : ctx.conn.kb.Holds size sp [] bytes)
    (runs :
      wp (serverFramer.run calls.handle bytes) (Returns ctx size post)
        halt ctx.served) :
    wp (recv calls) post halt ctx := by
  unfold recv
  simp only [wp_bind, wp_gets, holds.trailingdata_eq]
  exact wp_recvLoop holds (Nat.lt_succ_self _) runs

/-- What a session returns for the end of a run. -/
def endOf : Handled UInt8 Errno → Errno
  | .waiting _ => Errno.eagain
  | .ended error => error

/--
A session is the framer's run on all that the client sends.  Between reads the
buffer holds data that waits for more, so that it is never full.
-/
theorem wp_sessionLoop
    {post : Errno → ServerCtx σ → Prop} {rounds : Nat}
    (holds : ctx.conn.kb.Holds kcnMsgMaxsiz sp [] bytes)
    (waits : serverCut bytes = .wait)
    (delivers :
      ctx.env.trace.Delivers (ctx.conn.content.length - ctx.conn.off))
    (bound : ctx.conn.content.length - ctx.conn.off < rounds)
    (runs :
      wp
        (serverFramer.run calls.handle
          (bytes ++ ctx.conn.content.drop ctx.conn.off))
        (fun handled served =>
          (∀ error, handled = .ended error → error ≠ Errno.eagain) ∧
            ∀ ctx', ctx'.served = served → post (endOf handled) ctx')
        halt ctx.served) :
    wp (sessionLoop calls rounds) post halt ctx := by
  induction rounds generalizing ctx sp bytes with
  | zero =>
      exact absurd bound (Nat.not_lt_zero _)
  | succ rounds inductionHypothesis =>
      unfold sessionLoop
      simp only [wp_bind, wp_gets, decide_eq_true_eq]
      split
      · rename_i more
        obtain ⟨event, rest, answer⟩ :
            ∃ event rest, ctx.env.trace = event :: rest := by
          cases shape : ctx.env.trace with
          | nil =>
              have enough := delivers.enough
              rw [shape, List.length_nil] at enough
              omega
          | cons event rest =>
              exact ⟨event, rest, rfl⟩
        have moves : event.Moves := by
          refine delivers.moves event ?_
          rw [answer]
          exact List.mem_cons_self
        have room : ctx.conn.kb.len < ctx.conn.kb.size := by
          rw [holds.len_eq, holds.size_eq, List.length_nil,
            Nat.zero_add]
          exact length_of_serverCut_wait waits
        unfold readCb
        simp only [wp_bind, onConn, wp_zoom]
        refine KcndbFile.wp_bufRead_moves answer moves room more ?_
        intro new kb nonempty newEq _ _ holds'
        have positive : 0 < new.length :=
          List.length_pos_iff.mpr nonempty
        have fits :
            new.length ≤ ctx.conn.content.length - ctx.conn.off := by
          have length := congrArg List.length newEq
          rw [length_slice] at length
          exact Nat.le_trans (Nat.le_of_eq length)
            (Nat.min_le_right _ _)
        have cut :
            bytes ++ ctx.conn.content.drop ctx.conn.off =
              (bytes ++ new) ++
                ctx.conn.content.drop (ctx.conn.off + new.length) := by
          have taken :
              (ctx.conn.content.drop ctx.conn.off).take new.length =
                new :=
            newEq.symm
          have split :=
            List.take_append_drop new.length
              (ctx.conn.content.drop ctx.conn.off)
          rw [taken, List.drop_drop] at split
          rw [List.append_assoc, split]
        rw [cut, Framer.run_append, wp_bind] at runs
        have holds'' :
            kb.Holds kcnMsgMaxsiz kb.sp [] (bytes ++ new) := by
          have same := holds'
          rw [show (connLens.get ctx).file.kb = ctx.conn.kb from rfl,
            holds.size_eq, holds.before_eq, holds.after_eq] at same
          exact same
        simp only [↓reduceIte]
        refine wp_recv holds'' ?_
        refine wp_imp (Framer.wp_run_waiting runs) ?_
        rintro handled served ⟨later, waiting⟩
        cases handled with
        | waiting left =>
            intro sp' kb' errno' holds₃
            simp only [↓reduceIte]
            refine inductionHypothesis holds₃ (waiting left rfl) ?_ ?_
              later
            · refine ⟨?_, ?_⟩
              · intro event' member
                refine delivers.moves event' ?_
                rw [answer]
                exact List.mem_cons_of_mem _ member
              · have enough := delivers.enough
                rw [answer, List.length_cons] at enough
                simp only [moved, connLens]
                omega
            · simp only [moved, connLens]
              omega
        | ended error =>
            intro kb' errno' sizeEq
            obtain ⟨other, finish⟩ := later
            rw [if_neg (other error rfl), wp_pure]
            exact finish _ rfl
      · rename_i done
        have none :
            ctx.conn.content.drop ctx.conn.off = [] :=
          List.drop_eq_nil_of_le (Nat.le_of_not_lt done)
        rw [none, List.append_nil, Framer.run_wait waits] at runs
        exact runs.2 ctx rfl

/-- Memory for the input buffer of a connection. -/
abbrev InputBlock : Type :=
  { memory : List UInt8 // memory.length = kcnMsgMaxsiz }

/-- Memory of zeros. -/
def zeros : InputBlock :=
  ⟨List.replicate kcnMsgMaxsiz 0, List.length_replicate⟩

/-- A session whose client sends the given bytes. -/
def connect
    (sent : List UInt8) (memory : InputBlock) (env : Env) (world : σ) :
    ServerCtx σ where
  conn := { content := sent, off := 0, kb := KcnBuf.new memory.val }
  env := env
  served := { handed := [], world := world }

/--
Every way of delivering the same bytes in reads that move bytes lets the
session return, with the same messages handed to processing, the same effect
of processing and the same outcome.
-/
theorem session_chunking
    (settled : calls.Settled) (sent : List UInt8) (world : σ)
    (first second : InputBlock) (env env' : Env)
    (delivers : env.trace.Delivers sent.length)
    (delivers' : env'.trace.Delivers sent.length) :
    ∃ error ctx ctx',
      session calls (connect sent first env world) = .ok (error, ctx) ∧
      session calls (connect sent second env' world) =
        .ok (error, ctx') ∧
      ctx.served = ctx'.served := by
  have ended :
      wp (serverFramer.run calls.handle sent)
        (fun handled _ => ∀ error,
          handled = .ended error → error ≠ Errno.eagain)
        (fun _ => False) { handed := [], world := world } :=
    Framer.wp_run_ended (fun _ _ => serverCut_refuse) settled.handle
      sent _
  obtain ⟨handled, served, runs, other⟩ := wp_returns ended
  have finishes (memory : InputBlock) (env : Env)
      (delivers : env.trace.Delivers sent.length) :
      ∃ ctx,
        session calls (connect sent memory env world) =
          .ok (endOf handled, ctx) ∧ ctx.served = served := by
    have holds :
        (connect sent memory env world).conn.kb.Holds kcnMsgMaxsiz 0 []
          [] := by
      have fresh := holds_new memory.val
      rw [memory.property] at fresh
      exact fresh
    have done :
        wp (session calls)
          (fun error ctx => error = endOf handled ∧ ctx.served = served)
          (fun _ => False) (connect sent memory env world) := by
      unfold session
      rw [wp_bind, wp_gets]
      refine wp_sessionLoop holds rfl delivers
        (Nat.lt_succ_of_le delivers.enough) ?_
      have whole : ([] ++ sent.drop 0 : List UInt8) = sent := rfl
      unfold wp
      rw [connect, whole, runs]
      exact ⟨other, fun _ same => ⟨rfl, same⟩⟩
    obtain ⟨_, ctx, returns, rfl, servedEq⟩ := wp_returns done
    exact ⟨ctx, returns, servedEq⟩
  obtain ⟨ctx, returns, servedEq⟩ := finishes first env delivers
  obtain ⟨ctx', returns', servedEq'⟩ := finishes second env' delivers'
  exact ⟨_, ctx, ctx', returns, returns', servedEq.trans servedEq'.symm⟩

/-- Calls that only count themselves, on a database without a match. -/
def countingCalls : ServerCalls Nat where
  search _ _ := do
    modify (· + 1)
    pure (some Errno.esrch)
  respond _ := modify (· + 1)
  time := pure (.ok 0)
  recordAdd _ _ := do
    modify (· + 1)
    pure none

theorem countingCalls_settled : countingCalls.Settled where
  search _ _ world := ⟨_, world + 1, rfl⟩
  respond _ world := ⟨world + 1, rfl⟩
  time world := ⟨_, world, rfl, nofun⟩
  recordAdd _ _ world := ⟨_, world + 1, rfl, nofun⟩

/-- An empty query and a part of a header, at once and byte by byte. -/
theorem session_chunking_bytes :
    ∃ error ctx ctx',
      session countingCalls
          (connect [1, 1, 0, 0, 1, 3]
            ⟨List.replicate kcnMsgMaxsiz 0, List.length_replicate⟩
            { errno := 0, trace := List.replicate 6 (.read .full) }
            0) = .ok (error, ctx) ∧
      session countingCalls
          (connect [1, 1, 0, 0, 1, 3]
            ⟨List.replicate kcnMsgMaxsiz 1, List.length_replicate⟩
            { errno := 4, trace := List.replicate 6 (.read (.short 1)) }
            0) = .ok (error, ctx') ∧
      ctx.served = ctx'.served :=
  session_chunking countingCalls_settled [1, 1, 0, 0, 1, 3] 0 _ _ _ _
    ⟨by simp [Event.Moves], by decide⟩
    ⟨by simp [Event.Moves], by decide⟩

end KcndbServer

end Kcn
