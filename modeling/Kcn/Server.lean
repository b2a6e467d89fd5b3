import Kcn.Db
import Kcn.Frames
import Kcn.Library.Framing

namespace Kcn

open Program Bytes KcnBuf Framing

/-!
# The server's side of a connection

`kcndb_server_recv` and what `kcn_net_read_cb` does for it: `kcn_buf_read` into
the 4096 bytes of `kn_ibuf`, then the loop over the messages that have arrived.
The calls on the database, on the clock and on the output side of the
connection are parameters here; each of them changes a world of type `σ`.
-/

/-- A message that is handed to processing. -/
inductive ServerRequest where
  | query (kmq : KcnMsgQuery)
  | add (kma : KcnMsgAdd)
  deriving Repr, DecidableEq

/-- The calls that processing a message makes. -/
structure ServerCalls (σ : Type) where
  /-- `kcndb_db_search`, with the error it leaves if it returns false. -/
  search : KcnEq → Nat → Program Stop σ (Option Errno)
  /-- `kcndb_server_response_send` of the terminating response. -/
  respond : Errno → Program Stop σ Unit
  /-- `time` -/
  time : Program Stop σ (Except Errno Int64)
  /-- `kcndb_db_record_add`, with the error it leaves if it returns false. -/
  recordAdd : Nat → KcndbDbRecord → Program Stop σ (Option Errno)

/-- The messages handed to processing so far, and the world they changed. -/
structure Served (σ : Type) where
  handed : List ServerRequest
  world : σ

/--
A session of the server.  `conn` are the bytes that the client sends, how many
of them were read, and `kn_ibuf`.
-/
structure ServerCtx (σ : Type) where
  conn : KcndbFile
  env : Env
  served : Served σ

namespace Served

variable {σ : Type}

/-- The world as a part of the state. -/
def worldLens : Lens (Served σ) σ where
  get served := served.world
  set served world := { served with world := world }

/-- A call that changes the world. -/
def call {α : Type} (op : Program Stop σ α) :
    Program Stop (Served σ) α :=
  zoom worldLens op

/-- Note that a message is handed to processing. -/
def hand (request : ServerRequest) : Program Stop (Served σ) Unit :=
  modify fun served => {
    served with handed := served.handed ++ [request]
  }

end Served

namespace ServerCtx

variable {σ : Type}

/-- Programs that work on a session. -/
abbrev ServerOp (σ α : Type) : Type :=
  Program Stop (ServerCtx σ) α

/-- The input buffer and `errno` as a part of the state. -/
def msgLens : Lens (ServerCtx σ) MsgCtx where
  get ctx := { kb := ctx.conn.kb, errno := ctx.env.errno }
  set ctx part := {
    ctx with
    conn := { ctx.conn with kb := part.kb }
    env := { ctx.env with errno := part.errno }
  }

/-- The descriptor that the session reads from, as a part of the state. -/
def connLens : Lens (ServerCtx σ) FileCtx where
  get ctx := { file := ctx.conn, env := ctx.env }
  set ctx part := { ctx with conn := part.file, env := part.env }

/-- What processing works on, as a part of the state. -/
def servedLens : Lens (ServerCtx σ) (Served σ) where
  get ctx := ctx.served
  set ctx served := { ctx with served := served }

/-- An operation on the input buffer and `errno`. -/
def msg {α : Type} (op : MsgCtx.MsgOp α) : ServerOp σ α :=
  zoom msgLens op

/-- An operation on the descriptor. -/
def onConn {α : Type} (op : FileCtx.FileOp α) : ServerOp σ α :=
  zoom connLens op

/-- An operation of processing. -/
def serve {α : Type} (op : Program Stop (Served σ) α) :
    ServerOp σ α :=
  zoom servedLens op

/-- The value of `errno`. -/
def errno : ServerOp σ Errno :=
  gets fun ctx => ctx.env.errno

/-- Assign `errno`. -/
def setErrno (errno : Errno) : ServerOp σ Unit :=
  msg (MsgCtx.setErrno errno)

end ServerCtx

namespace KcndbServer

open ServerCtx

variable {σ : Type} (calls : ServerCalls σ)

/-- `kcndb_server_query_process` -/
def queryProcess (kmh : KcnMsgHeader) : ServerOp σ Bool := do
  match ← msg (KcnMsg.queryDecode kmh) with
  | some kmq => do
      serve (Served.hand (.query kmq))
      match ← serve
          (Served.call
            (calls.search kmq.kmqEq kmq.kmqMaxcount.toNat)) with
      | none => setErrno 0
      | some error => setErrno error
  | none => pure ()
  let error ← errno
  serve (Served.call (calls.respond error))
  pure true

/-- The time of the record that an add message asks for. -/
def addTime (kma : KcnMsgAdd) : ServerOp σ (Option Int64) := do
  if kma.kmaTime ≠ kcnTimeNow.toUInt64 then
    pure (some kma.kmaTime.toInt64)
  else
    match ← serve (Served.call calls.time) with
    | .ok time => pure (some time)
    | .error error => do
        setErrno error
        pure none

/-- `kcndb_server_add_process` -/
def addProcess (kmh : KcnMsgHeader) : ServerOp σ Bool := do
  match ← msg (KcnMsg.addDecode kmh) with
  | none => pure false
  | some kma => do
      serve (Served.hand (.add kma))
      match ← addTime calls kma with
      | none => pure false
      | some time => do
          let kdr : KcndbDbRecord := {
            kdrTime := time
            kdrVal := kma.kmaVal
            kdrLocidx := 0
            kdrLoc := kma.kmaLoc
          }
          match ← serve
              (Served.call (calls.recordAdd kma.kmaType kdr)) with
          | none => pure true
          | some error => do
              setErrno error
              pure false

/-- The switch of `kcndb_server_recv` on the type of a message. -/
def process (kmh : KcnMsgHeader) : ServerOp σ Bool := do
  if kmh.kmhType = KcnMsgType.query.code then
    queryProcess calls kmh
  else if kmh.kmhType = KcnMsgType.add.code then
    addProcess calls kmh
  else
    setErrno Errno.eopnotsupp
    pure false

/--
The body of the loop of `kcndb_server_recv`, with what the code returns if it
jumps to `bad`.
-/
def recvStep : ServerOp σ (Option Errno) := do
  match ← msg KcnMsg.headerDecode with
  | none => do
      let error ← errno
      pure (some error)
  | some kmh => do
      if ← process calls kmh then
        pure none
      else
        let error ← errno
        if error = Errno.eagain then
          msg (MsgCtx.buf KcnBuf.start)
          pure (some error)
        else
          pure (some error)

/-- The loop of `kcndb_server_recv`; each round but the last uses up a header. -/
def recvLoop : Nat → ServerOp σ Errno
  | 0 => stop .starved
  | rounds + 1 => do
      if 0 < (← gets fun ctx => ctx.conn.kb.trailingdata) then
        match ← recvStep calls with
        | none => recvLoop rounds
        | some error => pure error
      else
        pure Errno.eagain

/-- `kcndb_server_recv` -/
def recv : ServerOp σ Errno := do
  let rounds ← gets fun ctx => ctx.conn.kb.trailingdata + 1
  recvLoop calls rounds

/-- The part of `kcn_net_read_cb` between the check and the re-arming. -/
def readCb : ServerOp σ Errno := do
  let error ← onConn KcndbFile.bufRead
  if error = 0 then
    recv calls
  else
    pure error

/-- The loop of a session; each round asks for an answer. -/
def sessionLoop : Nat → ServerOp σ Errno
  | 0 => stop .starved
  | rounds + 1 => do
      if ← gets fun ctx =>
          decide (ctx.conn.off < ctx.conn.content.length) then
        let error ← readCb calls
        if error = Errno.eagain then
          sessionLoop rounds
        else
          pure error
      else
        pure Errno.eagain

/--
Read callbacks as long as the client's bytes have not all been read and reading
is enabled again.
-/
def session : ServerOp σ Errno := do
  let rounds ← gets fun ctx => ctx.env.trace.length + 1
  sessionLoop calls rounds

end KcndbServer

end Kcn
