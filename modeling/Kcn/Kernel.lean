import Kcn.Library.Program

namespace Kcn

/-!
# System calls as the code sees them

The code only learns about its environment from the results of system calls,
from the return values of `pthread_rwlock_*` and from the answers of its
callbacks.  A `Trace` lists these results in the order in which one call of
the code asks for them.  A call that asks for a result that is not listed
stops with `Stop.starved`, so a call that returns and uses up its trace was
answered in exactly this way, and a call that never returns starves on every
trace.
-/

/-- Values of `errno`, with their numbers on Linux. -/
abbrev Errno := Nat

namespace Errno

def esrch : Errno := 3
def enxio : Errno := 6
def e2big : Errno := 7
def eagain : Errno := 11
def einval : Errno := 22
def erange : Errno := 34
def eopnotsupp : Errno := 95
def eshutdown : Errno := 108
def etoomanyrefs : Errno := 109

end Errno

/-- The errors that the file and lock calls report. -/
inductive IoError where
  | eperm | enoent | eintr | eio | enxio | ebadf | eagain | enomem
  | eacces | efault | enotdir | eisdir | einval | enfile | emfile
  | efbig | enospc | espipe | erofs | epipe | edeadlk | enametoolong
  | eloop | eoverflow | edquot
  deriving Repr, DecidableEq

/-- The number of an error. -/
def IoError.errno : IoError → Errno
  | .eperm => 1
  | .enoent => 2
  | .eintr => 4
  | .eio => 5
  | .enxio => 6
  | .ebadf => 9
  | .eagain => 11
  | .enomem => 12
  | .eacces => 13
  | .efault => 14
  | .enotdir => 20
  | .eisdir => 21
  | .einval => 22
  | .enfile => 23
  | .emfile => 24
  | .efbig => 27
  | .enospc => 28
  | .espipe => 29
  | .erofs => 30
  | .epipe => 32
  | .edeadlk => 35
  | .enametoolong => 36
  | .eloop => 40
  | .eoverflow => 75
  | .edquot => 122

/-- No system call reports the value the code reserves for end of file. -/
theorem IoError.errno_ne_eshutdown (error : IoError) :
    error.errno ≠ Errno.eshutdown := by
  cases error <;> decide

/-- No system call fails with the value that stands for success. -/
theorem IoError.errno_ne_zero (error : IoError) : error.errno ≠ 0 := by
  cases error <;> decide

/-- How much of the asked amount a read or a write transfers. -/
inductive Transfer where
  | full
  | short (count : Nat)
  | fail (error : IoError)
  deriving Repr, DecidableEq

/--
The bytes transferred when `limit` bytes can be.  A transfer that does not
fail moves at least one byte if it can move any.
-/
def Transfer.amount (limit : Nat) : Transfer → Nat
  | .full => limit
  | .short count => min (max count 1) limit
  | .fail _ => 0

theorem Transfer.amount_le (limit : Nat) (transfer : Transfer) :
    transfer.amount limit ≤ limit := by
  cases transfer with
  | full => exact Nat.le_refl _
  | short count => exact Nat.min_le_right _ _
  | fail error => exact Nat.zero_le _

/-- One answer of the environment. -/
inductive Event where
  | openFile (error : Option IoError)
  | lock (error : Option IoError)
  | stat (error : Option IoError)
  | seek (error : Option IoError)
  | read (transfer : Transfer)
  | write (transfer : Transfer)
  | callback (accepted : Bool)
  deriving Repr, DecidableEq

/-- The answers that one call receives, in order. -/
abbrev Trace := List Event

/--
The answer is an error that the code sees.  An interrupted read or write is
repeated by `kcn_buf` and does not count.
-/
def Event.Fails : Event → Prop
  | .openFile error | .lock error | .stat error | .seek error =>
      error ≠ none
  | .read (.fail error) | .write (.fail error) => error ≠ .eintr
  | _ => False

/-- The answer of a read. -/
def Event.IsRead : Event → Prop
  | .read _ => True
  | _ => False

/-- The answer of a write. -/
def Event.IsWrite : Event → Prop
  | .write _ => True
  | _ => False

/-- The answer of a write that moved bytes. -/
def Event.Writes : Event → Prop
  | .write (.fail _) => False
  | .write _ => True
  | _ => False

/-- The answer is not that of a read that moved less than fits. -/
def Event.ReadsFull : Event → Prop
  | .read (.short _) => False
  | _ => True

/-- Why a call does not return. -/
inductive Stop where
  /-- An assertion of `kcn_buf` fails. -/
  | assertion
  /-- An assertion of `kcn_buf` fails on the buffer of a table file. -/
  | tableAssertion
  /-- An assertion of `kcn_net` fails. -/
  | netAssertion
  /-- An assertion of `kcn_info` fails. -/
  | infoAssertion
  /-- An assertion of `kcn_uri` fails. -/
  | uriAssertion
  /-- An assertion of `kcn_google` fails. -/
  | googleAssertion
  /-- `kcndbctl` exits with the message that a field is invalid. -/
  | invalidField
  /-- `kcndbctl` exits with the message that it cannot send. -/
  | notSent
  /-- The `assert(0)` for an unknown operator in `kcndb_db_search`. -/
  | operator
  /-- An array is indexed outside its bounds. -/
  | wild
  /-- The lock is held and the call waits for it. -/
  | blocked
  /-- The call asks for more answers than the trace has. -/
  | starved
  deriving Repr, DecidableEq

/-- The reasons to stop, where the buffer is that of a table file. -/
def Stop.onTable : Stop → Stop
  | .assertion => .tableAssertion
  | reason => reason

/-- The environment of a running call: `errno` and the answers to come. -/
structure Env where
  errno : Errno
  trace : Trace
  deriving Repr, DecidableEq

namespace Env

open Program

/-- Take the next answer. -/
def next : Program Stop Env Event :=
  fun env =>
    match env.trace with
    | [] => .error .starved
    | event :: rest => .ok (event, { env with trace := rest })

/-- Assign `errno`. -/
def setErrno (errno : Errno) : Program Stop Env Unit :=
  modify fun env => { env with errno := errno }

/-- Pass over the answers of calls that the code repeats. -/
def skip (interrupted : Event) : Program Stop Env Unit :=
  modify fun env =>
    if env.trace.head? = some interrupted then
      { errno := IoError.eintr.errno
        trace := env.trace.dropWhile (· = interrupted) }
    else
      env

end Env

end Kcn
