import Kcn.Answers
import Kcn.Results
import Kcn.Validation

namespace Kcn

open Program Bytes KcnBuf Framing

/-!
# The daemon

The workers of `kcndbd` share the tables, and each of them serves a connection.
To the clients the daemon is a service that stores samples and answers queries
from them, one message after the other, however their bytes arrive.
-/

/-! ### A worker -/

/-- What a worker works on while it handles a message. -/
structure Worker where
  tid : Nat
  db : Database
  /-- What `kcn_net_write` has taken for the connections, in this order. -/
  sent : List UInt8
  env : Env
  /-- What `time` answers. -/
  clock : Except Errno Int64
  /-- Whether `kcn_net_write` takes the response that ends the results. -/
  closes : Bool

namespace Worker

/-- The worker after a call on a table. -/
def called
    (worker : Worker) (index : Fin (kcnEqTypeMax - 1)) (s : Table)
    (env : Env) : Worker := {
  worker with
  db := Function.update worker.db index s
  env := env
}

/-- The worker after more bytes were taken. -/
def sends (worker : Worker) (bytes : List UInt8) : Worker := {
  worker with sent := worker.sent ++ bytes
}

/-- The worker after the response that ends the results. -/
def responds (worker : Worker) (error : Errno) : Worker :=
  if worker.closes then
    worker.sends (responseFrame (finalResponse (UInt8.ofNat error)))
  else
    worker

/-- A call on the table of a type, looked up with `kcndb_db_table_lookup`. -/
def tableCall (type : Nat) (call : Call) : Program Stop Worker Return :=
  fun worker =>
    match type2index type with
    | some index =>
        match (worker.db index).exec worker.tid call worker.env with
        | .ok (result, env, s) =>
            .ok (result, worker.called index s env)
        | .error reason => .error reason
    | none => .error .wild

/--
The records whose responses were taken: all that were delivered, or all but the
last where `kcn_net_write` refused it, which ends the search.
-/
def taken (trace : Trace) (result : Return) : List KcndbDbRecord :=
  if .callback false ∈ trace then
    result.delivered.dropLast
  else
    result.delivered

/-- The responses for records, as `kcndb_server_response_send` sends them. -/
def resultFrames (kdrs : List KcndbDbRecord) : List UInt8 :=
  (kdrs.map fun kdr => responseFrame (resultResponse (kdr, 0))).flatten

/-- The calls of a worker. -/
def calls : ServerCalls Worker where
  search ke maxnlocs := do
    let answers ← gets fun worker => worker.env.trace
    let result ← tableCall ke.keType (.search ke maxnlocs)
    modify fun worker => worker.sends (resultFrames (taken answers result))
    pure (KcndbServer.failure result)
  respond error := modify fun worker => worker.responds error
  time := gets fun worker => worker.clock
  recordAdd type kdr := do
    let result ← tableCall type (.recordAdd kdr)
    pure (KcndbServer.failure result)

/-- The time of the record that an add message asks for. -/
def timeOf (clock : Except Errno Int64) (kma : KcnMsgAdd) :
    Except Errno Int64 :=
  if kma.kmaTime ≠ kcnTimeNow.toUInt64 then
    .ok kma.kmaTime.toInt64
  else
    clock

end Worker

/-- The record that an add message asks for. -/
def KcnMsgAdd.record (kma : KcnMsgAdd) (time : Int64) :
    KcndbDbRecord where
  kdrTime := time
  kdrVal := kma.kmaVal
  kdrLocidx := 0
  kdrLoc := kma.kmaLoc

namespace Worker

/-- A call on a table that returned to the worker. -/
structure Called
    (worker : Worker) (type : Nat) (call : Call) (result : Return)
    (worker' : Worker) : Prop where
  returns : ∃ index s env, type2index type = some index ∧
    (worker.db index).exec worker.tid call worker.env =
      .ok (result, env, s) ∧
    worker' = worker.called index s env

/-- What handling a message does, and the error that it ends with. -/
inductive Handles (worker : Worker) :
    ServerFrame → Option Errno → Worker → Prop where
  | malformed :
      Handles worker (.query none) none (worker.responds Errno.einval)
  | query (kmq : KcnMsgQuery) (result : Return) (worker₁ : Worker) :
      worker.Called kmq.kmqEq.keType
        (.search kmq.kmqEq kmq.kmqMaxcount.toNat) result worker₁ →
      Handles worker (.query (some kmq)) none
        ((worker₁.sends
            (resultFrames (taken worker.env.trace result))).responds
          ((KcndbServer.failure result).getD 0))
  | timeless (kma : KcnMsgAdd) (error : Errno) :
      timeOf worker.clock kma = .error error →
      Handles worker (.add kma) (some error) worker
  | add (kma : KcnMsgAdd) (time : Int64) (result : Return)
      (worker₁ : Worker) :
      timeOf worker.clock kma = .ok time →
      worker.Called kma.kmaType (.recordAdd (kma.record time)) result
        worker₁ →
      Handles worker (.add kma) (KcndbServer.failure result) worker₁

theorem wp_tableCall
    {post : Return → Worker → Prop} {worker : Worker}
    (type : Nat) (call : Call)
    (next : ∀ result worker',
      worker.Called type call result worker' → post result worker') :
    wp (tableCall type call) post (fun _ => True) worker := by
  unfold wp tableCall
  cases found : type2index type with
  | none =>
      trivial
  | some index =>
      simp only
      cases ran : (worker.db index).exec worker.tid call worker.env with
      | error reason =>
          trivial
      | ok returned =>
          obtain ⟨result, env, s⟩ := returned
          exact next result _ ⟨index, s, env, found, ran, rfl⟩

/-- A call of a worker that returns. -/
theorem wp_tableCall_of
    {worker : Worker} {type : Nat} {call : Call}
    {index : Fin (kcnEqTypeMax - 1)} {result : Return} {env : Env}
    {s : Table} {post : Return → Worker → Prop} {halt : Stop → Prop}
    (found : type2index type = some index)
    (ran :
      (worker.db index).exec worker.tid call worker.env =
        .ok (result, env, s))
    (holds : post result (worker.called index s env)) :
    wp (tableCall type call) post halt worker := by
  unfold wp tableCall
  simp only [found, ran]
  exact holds

/-- Handling a message, one case for each way it can go. -/
theorem wp_handle (message : ServerFrame) (served : Served Worker) :
    wp (calls.handle message)
      (fun result served' =>
        served.world.Handles message result served'.world)
      (fun _ => True) served := by
  cases message with
  | query kmq =>
      cases kmq with
      | none =>
          exact .malformed
      | some kmq =>
          simp only [ServerCalls.handle, ServerCalls.handleQuery,
            Served.hand, Served.call, calls, wp_bind, wp_modify,
            wp_zoom, wp_gets, wp_pure]
          refine wp_tableCall _ _ fun result worker' called => ?_
          exact .query kmq result worker' called
  | add kma =>
      have stored
          (time : Int64)
          (timeEq : timeOf served.world.clock kma = .ok time)
          (handed : List ServerRequest) :
          wp
            (Served.call (calls.recordAdd kma.kmaType (kma.record time)))
            (fun result served' =>
              served.world.Handles (.add kma) result served'.world)
            (fun _ => True) { served with handed := handed } := by
        simp only [Served.call, calls, wp_bind, wp_zoom, wp_pure]
        refine wp_tableCall _ _ fun result worker' called => ?_
        exact .add kma time result worker' timeEq called
      simp only [ServerCalls.handle, ServerCalls.handleAdd, Served.hand,
        wp_bind, wp_modify]
      unfold ServerCalls.timeOf
      split
      · rename_i given
        rw [wp_pure]
        exact stored _ (if_pos given) _
      · rename_i now
        have timeEq : timeOf served.world.clock kma = served.world.clock :=
          if_neg now
        simp only [Served.call, Served.worldLens, calls, wp_zoom, wp_gets]
        cases clock : served.world.clock with
        | error error =>
            exact .timeless kma error (timeEq.trans clock)
        | ok time =>
            exact stored time (timeEq.trans clock) _

end Worker

/-! ### The daemon -/

/--
The tables, the connection that each worker serves, and what `kcn_net_write`
has taken from it.
-/
structure Daemon where
  db : Database
  conns : Nat → Option KcndbFile
  sent : Nat → List UInt8

/-- A round of the loop of `kcndb_server_recv`, with the answers it gets. -/
structure Handling where
  tid : Nat
  errno : Errno
  trace : Trace
  clock : Except Errno Int64
  closes : Bool

/-- What happens to the daemon. -/
inductive DaemonAct where
  | opens (done : DbDone)
  | accepts (tid : Nat) (bytes : List UInt8) (memory : KcndbServer.InputBlock)
  | reads (tid : Nat) (env : Env) (error : Errno)
  | handles
      (handling : Handling) (message : Option ServerFrame)
      (error : Option Errno)
  | restart

/-- The message at the head of what has arrived. -/
def headOf (bytes : List UInt8) : Option ServerFrame :=
  match serverCut bytes with
  | .take message _ => some message
  | .wait | .refuse _ => none

/-- What is left of a connection: nothing after an error but `EAGAIN`. -/
def leftAfter {α : Type} (error : Option Errno) (left : α) : Option α :=
  if error = none ∨ error = some Errno.eagain then some left else none

/-- The error of a read, if it is one. -/
def readError (error : Errno) : Option Errno :=
  if error = 0 then none else some error

namespace Daemon

/-- The daemon before any thread opened a table. -/
def onDisk
    (files : Fin (kcnEqTypeMax - 1) → List UInt8 × List UInt8) :
    Daemon where
  db index := Table.onDisk (files index).1 (files index).2
  conns _ := none
  sent _ := []

/-- The daemon after it was started again: only the files are left. -/
def restarted (d : Daemon) : Daemon where
  db index := Table.onDisk (d.db index).loc (d.db index).table
  conns _ := none
  sent := d.sent

/-- What a worker sees of the daemon. -/
def view (d : Daemon) (handling : Handling) (conn : KcndbFile) :
    ServerCtx Worker where
  conn := conn
  env := { errno := handling.errno, trace := [] }
  served := {
    handed := []
    world := {
      tid := handling.tid
      db := d.db
      sent := d.sent handling.tid
      env := { errno := handling.errno, trace := handling.trace }
      clock := handling.clock
      closes := handling.closes
    }
  }

/-- The daemon after what a worker did. -/
def after
    (d : Daemon) (handling : Handling) (error : Option Errno)
    (ctx : ServerCtx Worker) : Daemon where
  db := ctx.served.world.db
  conns :=
    Function.update d.conns handling.tid (leftAfter error ctx.conn)
  sent :=
    Function.update d.sent handling.tid ctx.served.world.sent

/-- No file of a table outgrew the offsets that a file can have. -/
def Fits (db : Database) : Prop :=
  ∀ index, (db index).loc.length ≤ offMax ∧
    (db index).table.length ≤ offMax

/--
A worker opens a table, accepts a connection, reads from it or handles what has
arrived, or the daemon is started again.
-/
inductive Step (d : Daemon) : DaemonAct → Daemon → Prop where
  | opens (done : DbDone) (db : Database) (loc table : Block) :
      done.call = .tableOpen loc table →
      d.db.Step done db →
      Step d (.opens done) { d with db := db }
  | accepts (tid : Nat) (bytes : List UInt8) (memory : KcndbServer.InputBlock) :
      d.conns tid = none →
      Step d (.accepts tid bytes memory) {
        d with
        conns := Function.update d.conns tid
          (some { content := bytes, off := 0, kb := KcnBuf.new memory.val })
      }
  | reads
      (tid : Nat) (env : Env) (error : Errno) (conn : KcndbFile)
      (ctx : FileCtx) :
      d.conns tid = some conn →
      KcndbFile.bufRead { file := conn, env := env } = .ok (error, ctx) →
      Step d (.reads tid env error) {
        d with
        conns := Function.update d.conns tid
          (leftAfter (readError error) ctx.file)
      }
  | handles
      (handling : Handling) (error : Option Errno) (conn : KcndbFile)
      (ctx : ServerCtx Worker) :
      d.conns handling.tid = some conn →
      KcndbServer.recvStep Worker.calls (d.view handling conn) =
        .ok (error, ctx) →
      ctx.served.world.env.trace = [] →
      Fits ctx.served.world.db →
      Step d (.handles handling (headOf conn.kb.after) error)
        (d.after handling error ctx)
  | restart :
      Step d .restart d.restarted

/-- A message whose operator is known or whose walk is not misled. -/
def Admits (db : Database) : ServerFrame → Prop
  | .query none => True
  | .query (some kmq) => kmq.kmqEq.Known
  | .add kma => ∀ index, type2index kma.kmaType = some index →
      Leads (db index).loc kma.kmaLoc

/-- Nothing goes wrong around the act. -/
def Favoured (d : Daemon) : DaemonAct → Prop
  | .opens done => done.trace.Favourable
  | .handles handling message _ =>
      handling.trace.Favourable ∧ handling.closes = true ∧
        ∀ taken ∈ message, Admits d.db taken
  | .accepts _ _ _ | .reads _ _ _ | .restart => True

end Daemon

/-! ### The service -/

/-- What a client sends: bytes that have arrived and bytes that will. -/
structure Incoming where
  arrived : List UInt8
  coming : List UInt8

/-- The samples of each type, and each worker's connection and replies. -/
structure Service where
  samples : Fin (kcnEqTypeMax - 1) → List Sample
  conns : Nat → Option Incoming
  replies : Nat → List Answer

/-- The bytes of the reply to a query. -/
def Answer.bytes (answer : Answer) : List UInt8 :=
  resultStream
    (answer.found.map fun sample => (sample.record, 0))
    (UInt8.ofNat (answer.error.getD 0))

namespace Service

/-- The service before any client connected. -/
def start (samples : Fin (kcnEqTypeMax - 1) → List Sample) :
    Service where
  samples := samples
  conns _ := none
  replies _ := []

/-- The service with other samples of a type. -/
def store
    (service : Service) (index : Fin (kcnEqTypeMax - 1))
    (samples : List Sample) : Service := {
  service with
  samples := Function.update service.samples index samples
}

/-- The service with one more reply. -/
def reply (service : Service) (tid : Nat) (answer : Answer) : Service := {
  service with
  replies := Function.update service.replies tid
    (service.replies tid ++ [answer])
}

/-- The service with another connection of a worker. -/
def connect
    (service : Service) (tid : Nat) (conn : Option Incoming) : Service := {
  service with conns := Function.update service.conns tid conn
}

/-- What a message does, and the error that it ends with. -/
inductive Serves
    (service : Service) (tid : Nat) (clock : Except Errno Int64) :
    ServerFrame → Option Errno → Service → Prop where
  | malformed :
      Serves service tid clock (.query none) none
        (service.reply tid { error := some Errno.einval, found := [] })
  | query
      (kmq : KcnMsgQuery) (index : Fin (kcnEqTypeMax - 1))
      (answer : Answer) :
      type2index kmq.kmqEq.keType = some index →
      Samples.respond (service.samples index)
          (.search kmq.kmqEq kmq.kmqMaxcount.toNat) =
        (service.samples index, some answer) →
      Serves service tid clock (.query (some kmq)) none
        (service.reply tid answer)
  | timeless (kma : KcnMsgAdd) (error : Errno) :
      Worker.timeOf clock kma = .error error →
      Serves service tid clock (.add kma) (some error) service
  | add
      (kma : KcnMsgAdd) (time : Int64)
      (index : Fin (kcnEqTypeMax - 1)) (samples : List Sample)
      (answer : Answer) :
      Worker.timeOf clock kma = .ok time →
      type2index kma.kmaType = some index →
      Samples.respond (service.samples index)
          (.recordAdd (kma.record time)) =
        (samples, some answer) →
      Serves service tid clock (.add kma) answer.error
        (service.store index samples)

/--
An act as one of the service: it takes one message after the other off what
has arrived.
-/
inductive Takes (service : Service) : DaemonAct → Service → Prop where
  | opens (done : DbDone) :
      Takes service (.opens done) service
  | accepts (tid : Nat) (bytes : List UInt8) (memory : KcndbServer.InputBlock) :
      Takes service (.accepts tid bytes memory)
        (service.connect tid (some { arrived := [], coming := bytes }))
  | reads
      (tid : Nat) (env : Env) (error : Errno)
      (arrived new coming : List UInt8) :
      service.conns tid =
        some { arrived := arrived, coming := new ++ coming } →
      (error = 0 → new ≠ []) →
      Takes service (.reads tid env error)
        (service.connect tid
          (leftAfter (readError error)
            { arrived := arrived ++ new, coming := coming }))
  | waits (handling : Handling) (conn : Incoming) :
      service.conns handling.tid = some conn →
      serverCut conn.arrived = .wait →
      Takes service (.handles handling none (some Errno.eagain)) service
  | refuses (handling : Handling) (conn : Incoming) (error : Errno) :
      service.conns handling.tid = some conn →
      serverCut conn.arrived = .refuse error →
      Takes service (.handles handling none (some error))
        (service.connect handling.tid none)
  | serves
      (handling : Handling) (conn : Incoming) (message : ServerFrame)
      (rest : List UInt8) (error : Option Errno) (service' : Service) :
      service.conns handling.tid = some conn →
      serverCut conn.arrived = .take message rest →
      service.Serves handling.tid handling.clock message error service' →
      Takes service (.handles handling (some message) error)
        (service'.connect handling.tid
          (leftAfter error { arrived := rest, coming := conn.coming }))
  | restart :
      Takes service .restart { service with conns := fun _ => none }

end Service

end Kcn
