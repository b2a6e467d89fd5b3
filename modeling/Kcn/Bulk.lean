import Kcn.Client
import Kcn.Str

namespace Kcn

open Program Bytes

/-!
# Loading a file

`kcndbctl_file` from the opened and locked file on, and `kcn_client_add_send`.
The event of the file is registered again after each call of `readfile` that
returns true.
-/

namespace KcnClient

open NetCtx

/-- `kcn_client_add_send` -/
def addSend {δ : Type} (kma : KcnMsgAdd) : NetOp δ Bool := do
  zoom obufLens (KcnMsg.addEncode kma)
  KcnNet.write

end KcnClient

namespace KcndbctlFile

open KcnBuf

/-! ### Fields -/

/-- The loop of `forward`; each round takes a byte. -/
def forwardLoop : Nat → BufOp (Option Errno)
  | 0 => stop .starved
  | rounds + 1 => do
      if (← gets trailingdata) = 0 then
        pure (some Errno.eagain)
      else
        let c ← get8
        if isspace c then
          pure none
        else if ¬ isprint c then
          pure (some Errno.einval)
        else
          forwardLoop rounds

/-- `forward`, with the `errno` of a failure. -/
def forward : BufOp (Option Errno) := do
  let rounds ← gets fun kb => kb.trailingdata + 1
  forwardLoop rounds

/-- `getstr` -/
def getstr : BufOp (Except Errno (List UInt8)) := do
  let s ← gets fun kb => kb.cp
  match ← forward with
  | some error => pure (.error error)
  | none =>
      let slen ← gets fun kb => kb.cp - s - 1
      if slen > kcnMsgMaxlocsiz then
        pure (.error Errno.e2big)
      else
        let loc ← gets fun kb => slice kb.bytes s slen
        pure (.ok loc)

/-- `get64` -/
def get64 : BufOp (Except Errno UInt64) := do
  let p ← gets fun kb => kb.cp
  match ← forward with
  | some error => pure (.error error)
  | none =>
      backward 1
      put8 0
      let string ← gets fun kb => (kb.bytes.drop p).takeWhile (· ≠ 0)
      pure (kcnStrtoull string 0 ullongMax)

/-- The fields of a line, as the message that is sent for it. -/
def fields (type : Nat) : BufOp (Except Errno KcnMsgAdd) := do
  match ← get64 with
  | .error error => pure (.error error)
  | .ok time =>
      match ← get64 with
      | .error error => pure (.error error)
      | .ok val =>
          match ← getstr with
          | .error error => pure (.error error)
          | .ok loc =>
              pure (.ok {
                kmaType := type
                kmaTime := time
                kmaVal := val
                kmaLoc := loc
              })

/-! ### The file -/

/--
`struct kcn_file`; `kfFile` is the open file with `kf_kb` as its buffer.
-/
structure KcnFile where
  kfType : Nat
  kfSize : Nat
  kfLine : Nat
  kfFile : FileCtx
  kfKn : NetCtx Unit

namespace KcnFile

/-- Programs that load a file. -/
abbrev LoadOp (α : Type) : Type :=
  Program Stop KcnFile α

/-- The open file as a part of the state. -/
def fileLens : Lens KcnFile FileCtx where
  get kf := kf.kfFile
  set kf file := { kf with kfFile := file }

/-- The buffer as a part of the state. -/
def kbLens : Lens KcnFile KcnBuf where
  get kf := kf.kfFile.file.kb
  set kf kb := {
    kf with
    kfFile := { kf.kfFile with file := { kf.kfFile.file with kb := kb } }
  }

/-- The connection as a part of the state. -/
def knLens : Lens KcnFile (NetCtx Unit) where
  get kf := kf.kfKn
  set kf kn := { kf with kfKn := kn }

end KcnFile

open KcnFile

/-- The loop of `readfile`; each round takes a line. -/
def lineLoop : Nat → LoadOp Unit
  | 0 => stop .starved
  | rounds + 1 => do
      let kf ← gets id
      if kf.kfSize = 0 ∨ kcnMsgMaxsiz ≤ kf.kfFile.file.kb.len then
        match ← zoom kbLens (fields kf.kfType) with
        | .error error =>
            if error ≠ Errno.eagain then
              stop .invalidField
            else
              zoom kbLens KcnBuf.start
        | .ok kma =>
            if ← zoom knLens (KcnClient.addSend kma) then
              modify fun kf => { kf with kfLine := kf.kfLine + 1 }
              let headingdata ← gets fun kf =>
                kf.kfFile.file.kb.headingdata
              zoom kbLens (trimHead headingdata)
              lineLoop rounds
            else
              stop .notSent
      else
        pure ()

/--
`readfile` behind its read.  The counter never gets below the data in the
buffer.
-/
def taken : LoadOp Bool := do
  let len ← gets fun kf => kf.kfFile.file.kb.len
  if (← gets fun kf => kf.kfSize) < len then
    stop .wild
  else
    modify fun kf => { kf with kfSize := kf.kfSize - len }
    lineLoop (len + 1)
    modify fun kf => {
      kf with kfSize := kf.kfSize + kf.kfFile.file.kb.len
    }
    pure true

/-- `readfile`; whether its event is added again. -/
def readfile (ready : Bool) : LoadOp Bool := do
  if ready then
    let error ← zoom fileLens KcndbFile.bufRead
    if error = 0 then
      taken
    else
      pure (error ≠ Errno.eshutdown)
  else
    pure true

/-- The events of the file, until none is left. -/
def readLoop : Nat → LoadOp Unit
  | 0 => stop .starved
  | rounds + 1 => do
      if ← readfile true then
        readLoop rounds
      else
        pure ()

/-- `MAXBUFSIZ` -/
def maxbufsiz : Nat := 2 ^ 20

/-- The size that `bufalloc` chooses. -/
def bufsize (filesize : Nat) : Nat :=
  if filesize < maxbufsiz then filesize else maxbufsiz

/-- `kcndbctl_file_process` once the file is open and locked. -/
def process
    (type : Nat) (content memory : List UInt8) (env : Env)
    (kn : NetCtx Unit) : Except Stop (Unit × KcnFile) :=
  readLoop (env.trace.length + 1) {
    kfType := type
    kfSize := content.length
    kfLine := 0
    kfFile := {
      file := { content := content, off := 0, kb := KcnBuf.new memory }
      env := env
    }
    kfKn := kn
  }

end KcndbctlFile

end Kcn
