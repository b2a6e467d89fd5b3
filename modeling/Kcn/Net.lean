import Kcn.Frames
import Kcn.FileRules

namespace Kcn

open Program Bytes

/-!
# Connections

`kcn_net.c` with the workarounds for Linux compiled in, and `kcn_socket_close`.
The events of libevent are one-shot: an event is registered or not, and it is
no longer registered when its callback runs.  What the code logs, the name of
the connection and the event base are left out.
-/

/-- `ENETDOWN` -/
def Errno.enetdown : Errno := 100

/-- `struct kcn_buf_data` -/
structure KcnBufData where
  kbdSize : Nat
  kbdSp : Nat
  kbdEp : Nat
  kbdBuf : List UInt8
  sp_le_ep : kbdSp ≤ kbdEp
  ep_le_size : kbdEp ≤ kbdSize
  length_buf : kbdBuf.length = kbdSize

namespace KcnBufData

/-- `kcn_buf_init` on a block: the cursor is at the start. -/
def init (kbd : KcnBufData) : KcnBuf where
  size := kbd.kbdSize
  sp := kbd.kbdSp
  cp := kbd.kbdSp
  ep := kbd.kbdEp
  bytes := kbd.kbdBuf
  sp_le_cp := Nat.le_refl _
  cp_le_ep := kbd.sp_le_ep
  ep_le_size := kbd.ep_le_size
  length_bytes := kbd.length_buf

/-- The block that a buffer points to. -/
def ofBuf (kb : KcnBuf) : KcnBufData where
  kbdSize := kb.size
  kbdSp := kb.sp
  kbdEp := kb.ep
  kbdBuf := kb.bytes
  sp_le_ep := kb.sp_le_ep
  ep_le_size := kb.ep_le_size
  length_buf := kb.length_bytes

/-- `kcn_buf_data_dup`, where the allocation succeeds. -/
def dup (kb : KcnBuf) : KcnBufData where
  kbdSize := kb.data.length
  kbdSp := 0
  kbdEp := kb.data.length
  kbdBuf := kb.data
  sp_le_ep := Nat.zero_le _
  ep_le_size := Nat.le_refl _
  length_buf := rfl

end KcnBufData

/-- `enum kcn_net_state` -/
inductive KcnNetState where
  | init | pending | established | disconnected
  deriving Repr, DecidableEq

/--
`struct kcn_net`.  `evread` and `evwrite` say whether the events are
registered; `knFd` is the descriptor of the read event, empty once it is -1, and
`evwriteFd` that of the write event, which keeps its value.
-/
structure KcnNet where
  knState : KcnNetState
  knFd : Option Nat
  evwriteFd : Nat
  evread : Bool
  evwrite : Bool
  knIbuf : KcnBuf
  knObufdata : KcnBufData
  knObufq : List KcnBufData

/-- The flags that an event is delivered with. -/
structure EventFlags where
  /-- `EV_READ` for the read event, `EV_WRITE` for the write event. -/
  ready : Bool
  /-- `EV_TIMEOUT` -/
  timeout : Bool
  deriving Repr, DecidableEq

/-- The calls on a connection that its user makes. -/
inductive ApiCall where
  /-- Fill the output buffer and call `kcn_net_write`. -/
  | write (fill : KcnBuf → KcnBuf)
  /-- `kcn_net_read_enable` -/
  | readEnable

/-- Answers of the environment other than those of `read` and `write`. -/
inductive NetAnswer where
  | malloc (ok : Bool)
  | eventAdd (error : Option IoError)
  /-- What the user's read callback takes, does and returns. -/
  | callback
      (take : KcnBuf → KcnBuf) (calls : List ApiCall) (error : Errno)

/--
The environment of a connection.  `incoming` is what the peer sends, of which
`received` bytes were read; `sent` is what the socket accepted; `queued` are the
messages for which `kcn_net_write` returned true; `states` are the states the
connection was in; `closed` are the descriptors that were closed.
-/
structure NetIo where
  env : Env
  answers : List NetAnswer
  incoming : List UInt8
  received : Nat
  sent : List UInt8
  queued : List (List UInt8)
  states : List KcnNetState
  closed : List Nat

/-- A connection, its environment and what `kn_data` points to. -/
structure NetCtx (δ : Type) where
  kn : KcnNet
  io : NetIo
  data : δ

namespace NetIo

/-- The environment before there is a connection. -/
def start (env : Env) (answers : List NetAnswer)
    (incoming : List UInt8) : NetIo where
  env := env
  answers := answers
  incoming := incoming
  received := 0
  sent := []
  queued := []
  states := []
  closed := []

/-- Take the next answer. -/
def next : Program Stop NetIo NetAnswer :=
  fun io =>
    match io.answers with
    | [] => .error .starved
    | answer :: rest => .ok (answer, { io with answers := rest })

/-- Assign `errno`. -/
def setErrno (errno : Errno) : Program Stop NetIo Unit :=
  modify fun io => { io with env := { io.env with errno := errno } }

/-- The answer of `malloc`. -/
def malloc : Program Stop NetIo Bool := do
  match ← next with
  | .malloc ok =>
      if ok then
        pure true
      else
        setErrno IoError.enomem.errno
        pure false
  | _ => stop .starved

/-- The answer of a call of libevent that can fail. -/
def event : Program Stop NetIo Bool := do
  match ← next with
  | .eventAdd none => pure true
  | .eventAdd (some error) => do
      setErrno error.errno
      pure false
  | _ => stop .starved

/-- `kcn_socket_close`, with the descriptor that is left. -/
def socketClose (fd : Option Nat) : Program Stop NetIo (Option Nat) :=
  match fd with
  | none => pure none
  | some number => do
      modify fun io => { io with closed := io.closed ++ [number] }
      pure none

end NetIo

namespace NetCtx

variable {δ : Type}

/-- Programs that work on a connection. -/
abbrev NetOp (δ α : Type) : Type :=
  Program Stop (NetCtx δ) α

/-- The environment as a part of the state. -/
def ioLens : Lens (NetCtx δ) NetIo where
  get ctx := ctx.io
  set ctx io := { ctx with io := io }

/-- The output buffer as a part of the state. -/
def obufLens : Lens (NetCtx δ) KcnBuf where
  get ctx := ctx.kn.knObufdata.init
  set ctx kb := {
    ctx with
    kn := { ctx.kn with knObufdata := KcnBufData.ofBuf kb }
  }

/-- The receiving side of the socket and the input buffer. -/
def ibufLens : Lens (NetCtx δ) FileCtx where
  get ctx := {
    file := {
      content := ctx.io.incoming
      off := ctx.io.received
      kb := ctx.kn.knIbuf
    }
    env := ctx.io.env
  }
  set ctx part := {
    ctx with
    kn := { ctx.kn with knIbuf := part.file.kb }
    io := { ctx.io with received := part.file.off, env := part.env }
  }

/-- The sending side of the socket and the block at the head of the queue. -/
def headLens (kbd : KcnBufData) (rest : List KcnBufData) :
    Lens (NetCtx δ) FileCtx where
  get ctx := {
    file := {
      content := ctx.io.sent
      off := ctx.io.sent.length
      kb := kbd.init
    }
    env := ctx.io.env
  }
  set ctx part := {
    ctx with
    kn := {
      ctx.kn with knObufq := KcnBufData.ofBuf part.file.kb :: rest
    }
    io := { ctx.io with sent := part.file.content, env := part.env }
  }

/-- An operation on the environment. -/
def sys {α : Type} (op : Program Stop NetIo α) : NetOp δ α :=
  zoom ioLens op

/-- Change the connection. -/
def setKn (update : KcnNet → KcnNet) : NetOp δ Unit :=
  modify fun ctx => { ctx with kn := update ctx.kn }

/-- The state of the connection. -/
def state : NetOp δ KcnNetState :=
  gets fun ctx => ctx.kn.knState

end NetCtx

namespace KcnNet

open NetCtx

variable {δ : Type}

/-- The assignment of `kcn_net_state_change`. -/
def stateAssign (nstate : KcnNetState) : NetOp δ Unit :=
  modify fun ctx =>
    if ctx.kn.knState = nstate then
      ctx
    else
      { ctx with
        kn := { ctx.kn with knState := nstate }
        io := { ctx.io with states := ctx.io.states ++ [nstate] } }

/-- `kcn_net_event_enable` on the read event -/
def evreadEnable : NetOp δ Bool := do
  if ← gets fun ctx => ctx.kn.evread then
    pure true
  else if ← sys NetIo.event then
    setKn fun kn => { kn with evread := true }
    pure true
  else
    pure false

/-- `kcn_net_read_enable`; a change to PENDING never comes back here. -/
def readEnable : NetOp δ Bool := do
  if (← state) = .disconnected then
    stop .netAssertion
  else if (← state) ≠ .established then
    stateAssign .pending
    pure true
  else
    evreadEnable

/-- `kcn_net_write_enable` -/
def writeEnable : NetOp δ Bool := do
  if ← gets fun ctx => ctx.kn.evwrite then
    pure true
  else if ← sys NetIo.event then
    setKn fun kn => { kn with evwrite := true }
    pure true
  else
    pure false

/-- `kcn_net_state_change` -/
def stateChange (nstate : KcnNetState) : NetOp δ Unit := do
  let ostate ← state
  stateAssign nstate
  if ostate = .pending ∧ nstate = .established then
    let _ ← readEnable
    pure ()
  else
    pure ()

/-- `kcn_net_disconnect` -/
def disconnect : NetOp δ Unit := do
  if (← state) = .disconnected then
    pure ()
  else
    setKn fun kn => { kn with evread := false }
    setKn fun kn => { kn with evwrite := false }
    let fd ← gets fun ctx => ctx.kn.knFd
    let fd ← sys (NetIo.socketClose fd)
    setKn fun kn => { kn with knFd := fd }
    stateChange .disconnected

/-- `kcn_net_event_check` and `kcn_net_timeout` -/
def eventCheck (events : EventFlags) : NetOp δ Bool := do
  if events.ready then
    stateChange .established
    pure true
  else
    if events.timeout then
      disconnect
      pure false
    else
      pure false

/-- `kcn_buf_enqueue` of the output buffer -/
def enqueue : NetOp δ Bool := do
  if ← sys NetIo.malloc then
    setKn fun kn => {
      kn with
      knObufq := kn.knObufq ++ [KcnBufData.dup kn.knObufdata.init]
    }
    pure true
  else
    pure false

/-- `kcn_net_write` of the output buffer -/
def write : NetOp δ Bool := do
  if (← state) = .disconnected then
    sys (NetIo.setErrno Errno.enetdown)
    pure false
  else if ← enqueue then
    if ← writeEnable then
      modify fun ctx => {
        ctx with
        io := {
          ctx.io with
          queued := ctx.io.queued ++ [ctx.kn.knObufdata.init.data]
        }
      }
      pure true
    else
      pure false
  else
    pure false

/-- A call of the connection's user. -/
def call : ApiCall → NetOp δ Bool
  | .write fill => do
      zoom obufLens (modify fill)
      write
  | .readEnable => readEnable

/-- Calls of the connection's user, one after the other. -/
def callAll : List ApiCall → NetOp δ Unit
  | [] => pure ()
  | first :: later => do
      let _ ← call first
      callAll later

/-- The assertion of both callbacks on the descriptor they are given. -/
def assertFd (fd : Option Nat) : NetOp δ Unit := do
  if (← gets fun ctx => ctx.kn.knFd) = fd then
    pure ()
  else
    stop .netAssertion

/-- The exit of `kcn_net_read_cb` at `out` -/
def readOut (error : Errno) : NetOp δ Unit := do
  if error = Errno.eagain then
    let _ ← readEnable
    pure ()
  else if error ≠ 0 then
    disconnect
  else
    pure ()

/-- `kcn_net_read_cb`, with the user's read callback. -/
def readCb
    (readcb : NetOp δ Errno) (fd : Option Nat) (events : EventFlags) :
    NetOp δ Unit := do
  assertFd fd
  if ← eventCheck events then
    let error ← zoom ibufLens KcndbFile.bufRead
    if error = 0 then
      let error ← readcb
      readOut error
    else
      readOut error
  else
    pure ()

/-- The loop of `kcn_net_write_cb`; each round asks for an answer. -/
def writeLoop : Nat → NetOp δ Unit
  | 0 => stop .starved
  | rounds + 1 => do
      match ← gets fun ctx => ctx.kn.knObufq with
      | [] => pure ()
      | kbd :: rest => do
          let error ← zoom (headLens kbd rest) KcndbFile.bufWrite
          if error = Errno.eagain then
            let _ ← writeEnable
            pure ()
          else if error ≠ 0 then
            disconnect
          else
            match ← gets fun ctx => ctx.kn.knObufq with
            | [] => pure ()
            | kbd :: rest =>
                if kbd.init.trailingdata = 0 then
                  setKn fun kn => { kn with knObufq := rest }
                  writeLoop rounds
                else
                  writeLoop rounds

/-- `kcn_net_write_cb` -/
def writeCb (fd : Option Nat) (events : EventFlags) : NetOp δ Unit := do
  assertFd fd
  if (← state) = .pending ∧ events.ready = false ∧
      events.timeout = true then
    stateChange .established
  else if ← eventCheck events then
    let rounds ← gets fun ctx => ctx.io.env.trace.length + 1
    writeLoop rounds
  else
    pure ()

/-- `kcn_net_destroy` of a connection; its memory is gone afterwards. -/
def destroy : NetOp δ Unit :=
  disconnect

/-- Run an operation on a connection that is not shared yet. -/
def runOn {α : Type} (kn : KcnNet) (op : NetOp Unit α) :
    Program Stop NetIo (α × KcnNet) :=
  fun io =>
    match op { kn := kn, io := io, data := () } with
    | .ok (value, ctx) => .ok ((value, ctx.kn), ctx.io)
    | .error reason => .error reason

/-- The connection that `kcn_net_new` sets up before it registers events. -/
def setUp (fd : Nat) (ibuf obuf : List UInt8) : KcnNet where
  knState := .init
  knFd := some fd
  evwriteFd := fd
  evread := false
  evwrite := false
  knIbuf := KcnBuf.new ibuf
  knObufdata := KcnBufData.ofBuf (KcnBuf.new obuf)
  knObufq := []

/-- The exit of `kcn_net_new` at `bad` once there is a structure. -/
def newBad (kn : KcnNet) : Program Stop NetIo (Option KcnNet) := do
  let _ ← runOn kn destroy
  pure none

/-- `kcn_net_new` -/
def new (fd : Nat) (ibuf obuf : List UInt8) :
    Program Stop NetIo (Option KcnNet) := do
  if ← NetIo.malloc then
    let kn := setUp fd ibuf obuf
    modify fun io => { io with states := [.init] }
    let ibufdata ← NetIo.malloc
    let obufdata ← NetIo.malloc
    if ← NetIo.event then
      if ← NetIo.event then
        if ibufdata = false ∨ obufdata = false then
          newBad kn
        else
          let (enabled, kn) ← runOn kn writeEnable
          if enabled then
            pure (some kn)
          else
            newBad kn
      else
        newBad kn
    else
      newBad kn
  else
    pure none

end KcnNet

end Kcn
