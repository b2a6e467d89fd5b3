import Kcn.BufRules

namespace Kcn

open Program Bytes

/-!
# Database files

`kcndb_file` couples a file descriptor with one cursor buffer of
`KCNDB_FILE_BUFSIZ` bytes.  The bytes of the file itself are shared by all who
have it open; the offset and the buffer are private.  `kf_size` is never read
and left out.
-/

/-- `KCNDB_FILE_BUFSIZ` -/
def kcndbFileBufsiz : Nat := 4096

/-- The largest offset of a file: an `off_t` has 63 value bits. -/
def offMax : Nat := 2 ^ 63 - 1

/-- An open file: its bytes, the offset and the buffer. -/
structure KcndbFile where
  content : List UInt8
  off : Nat
  kb : KcnBuf

/-- The state of a call that works on one file. -/
structure FileCtx where
  file : KcndbFile
  env : Env

namespace FileCtx

/-- Programs that work on one file. -/
abbrev FileOp (α : Type) : Type :=
  Program Stop FileCtx α

/-- The environment as a part of the state. -/
def envLens : Lens FileCtx Env where
  get ctx := ctx.env
  set ctx env := { ctx with env := env }

/-- The buffer as a part of the state. -/
def kbLens : Lens FileCtx KcnBuf where
  get ctx := ctx.file.kb
  set ctx kb := { ctx with file := { ctx.file with kb := kb } }

/-- An operation on the buffer of the file. -/
def buf {α : Type} (op : KcnBuf.BufOp α) : FileOp α :=
  zoom kbLens op

/-- An operation on the environment. -/
def sys {α : Type} (op : Program Stop Env α) : FileOp α :=
  zoom envLens op

end FileCtx

/-- Store bytes at an offset; a gap behind the old end reads as zeros. -/
def writeAt
    (content : List UInt8) (off : Nat) (new : List UInt8) :
    List UInt8 :=
  if new = [] then
    content
  else
    overwrite
      (content ++ List.replicate (off - content.length) 0) off new

namespace KcndbFile

open FileCtx

/-- `read(2)` of at most `space` bytes at the offset of the file. -/
def sysRead (space : Nat) : FileOp (Except Errno (List UInt8)) := do
  sys (Env.skip (.read (.fail .eintr)))
  match ← sys Env.next with
  | .read (.fail error) => do
      sys (Env.setErrno error.errno)
      pure (.error error.errno)
  | .read transfer => do
      let here ← gets fun ctx =>
        slice ctx.file.content ctx.file.off
          (transfer.amount
            (min space (ctx.file.content.length - ctx.file.off)))
      modify fun ctx => {
        ctx with
        file := { ctx.file with off := ctx.file.off + here.length }
      }
      pure (.ok here)
  | _ => stop .starved

/-- `write(2)` of the data of the buffer at the offset of the file. -/
def sysWrite : FileOp (Except Errno Nat) := do
  sys (Env.skip (.write (.fail .eintr)))
  match ← sys Env.next with
  | .write (.fail error) => do
      sys (Env.setErrno error.errno)
      pure (.error error.errno)
  | .write transfer => do
      let here ← gets fun ctx =>
        ctx.file.kb.data.take (transfer.amount ctx.file.kb.len)
      modify fun ctx => {
        ctx with
        file := {
          ctx.file with
          content := writeAt ctx.file.content ctx.file.off here
          off := ctx.file.off + here.length
        }
      }
      pure (.ok here.length)
  | _ => stop .starved

/-- `kcn_buf_read` on the file. -/
def bufRead : FileOp Errno := do
  buf KcnBuf.prepareRead
  let space ← gets fun ctx => ctx.file.kb.trailingspace
  match ← sysRead space with
  | .error error => pure error
  | .ok [] => pure Errno.eshutdown
  | .ok data => do
      buf (KcnBuf.fill data)
      pure 0

/-- `kcn_buf_write` on the file. -/
def bufWrite : FileOp Errno := do
  match ← sysWrite with
  | .error error => pure error
  | .ok 0 => pure Errno.eshutdown
  | .ok count => do
      buf (KcnBuf.trimHead count)
      pure 0

/-- The loop of `kcndb_file_ensure`; each round asks for an answer. -/
def ensureLoop (len : Nat) : Nat → FileOp Bool
  | 0 => stop .starved
  | rounds + 1 => do
      if (← gets fun ctx => ctx.file.kb.len) < len then
        let error ← bufRead
        if error = 0 then
          ensureLoop len rounds
        else
          sys (Env.setErrno error)
          pure false
      else
        pure true

/-- `kcndb_file_ensure` -/
def ensure (len : Nat) : FileOp Bool := do
  let rounds ← gets fun ctx => ctx.env.trace.length + 1
  ensureLoop len rounds

/-- The answer of `lseek`; an offset that is negative as `off_t` is refused. -/
def sysSeek (off : Nat) : FileOp Bool := do
  match ← sys Env.next with
  | .seek none =>
      if off ≤ offMax then
        modify fun ctx => {
          ctx with file := { ctx.file with off := off }
        }
        pure true
      else
        sys (Env.setErrno Errno.einval)
        pure false
  | .seek (some error) => do
      sys (Env.setErrno error.errno)
      pure false
  | _ => stop .starved

/-- `kcndb_file_seek_head` -/
def seekHead (off : Nat) : FileOp Bool :=
  sysSeek off

/-- The loop of `kcndb_file_write`; each round asks for an answer. -/
def writeLoop : Nat → FileOp Bool
  | 0 => stop .starved
  | rounds + 1 => do
      if 0 < (← gets fun ctx => ctx.file.kb.len) then
        let error ← bufWrite
        if error = 0 then
          writeLoop rounds
        else
          pure false
      else
        buf (KcnBuf.reset 0)
        pure true

/-- `kcndb_file_write` -/
def write : FileOp Bool := do
  let rounds ← gets fun ctx => ctx.env.trace.length + 1
  writeLoop rounds

/-- `kcndb_file_append` -/
def append : FileOp Bool := do
  let tail ← gets fun ctx => ctx.file.content.length
  if ← sysSeek tail then
    write
  else
    pure false

/-- `kcndb_file_size_get` -/
def sizeGet : FileOp (Option Nat) := do
  match ← sys Env.next with
  | .stat none => do
      let size ← gets fun ctx => ctx.file.content.length
      pure (some size)
  | .stat (some error) => do
      sys (Env.setErrno error.errno)
      pure none
  | _ => stop .starved

end KcndbFile

end Kcn
