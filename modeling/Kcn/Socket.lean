import Kcn.Library.Descriptors
import Kcn.Net

namespace Kcn

open Program

/-!
# Sockets

`kcn_socket.c` and what it uses of `kcn_sockaddr.c`, as calls that open and
close descriptors.  Addresses, ports and names only go to the kernel and are
left out, and so is what the code logs.  `HAVE_IPV6` is the parameter `ipv6`;
the workarounds for Linux and `SO_REUSEPORT` are compiled in.
-/

namespace Errno

def einprogress : Errno := 115
def eafnosupport : Errno := 97

end Errno

/-- `AF_INET` and `PF_INET` -/
def afInet : Nat := 2

/-- `AF_INET6` and `PF_INET6` -/
def afInet6 : Nat := 10

namespace KcnSockaddr

/-- `kcn_sockaddr_pf2af`; the answer -1 becomes a family that is not known. -/
def pf2af (ipv6 : Bool) (domain : Nat) : Nat :=
  if domain = afInet then
    afInet
  else if ipv6 = true ∧ domain = afInet6 then
    afInet6
  else
    65535

/-- `kcn_sockaddr_af2pf` -/
def af2pf (ipv6 : Bool) (family : Nat) : Option Nat :=
  if family = afInet then
    some afInet
  else if ipv6 = true ∧ family = afInet6 then
    some afInet6
  else
    none

/-- `kcn_sockaddr_len` -/
def len (ipv6 : Bool) (family : Nat) : Option Nat :=
  if family = afInet then
    some 16
  else if ipv6 = true ∧ family = afInet6 then
    some 28
  else
    none

/-- `kcn_sockaddr_init`, with the length that it stores. -/
def init (ipv6 : Bool) (family : Nat) : Option Nat :=
  if family = afInet then
    some 16
  else if ipv6 = true ∧ family = afInet6 then
    some 28
  else
    none

/-- An address whose family has a domain has a length. -/
theorem len_of_af2pf
    {ipv6 : Bool} {family domain : Nat}
    (known : af2pf ipv6 family = some domain) :
    ∃ length, len ipv6 family = some length := by
  unfold af2pf at known
  unfold len
  split at known
  case isTrue inet =>
      exact ⟨16, if_pos inet⟩
  case isFalse other =>
      rw [if_neg other]
      split at known
      case isTrue inet6 =>
          exact ⟨28, if_pos inet6⟩
      case isFalse =>
          cases known

end KcnSockaddr

/-- An answer to a call that has to do with descriptors. -/
inductive FdReply where
  /-- Of `malloc` and `event_init`. -/
  | allocated (ok : Bool)
  /-- Of `open`, `socket` and `accept`. -/
  | opened (result : Except Errno Nat)
  /-- Of the calls that only succeed or fail. -/
  | returned (error : Option Errno)
  /-- Of `getaddrinfo`, with the family of the address. -/
  | resolved (family : Option Nat)

/-- Why a program on descriptors does not return. -/
inductive FdStop where
  /-- The assertion of `kcn_socket` fails. -/
  | assertion
  /-- A variable is read that was not assigned. -/
  | wild
  /-- A connection stops. -/
  | connection (reason : Stop)
  /-- The program asks for more answers than there are. -/
  | starved
  deriving DecidableEq

/-- The only reasons to stop that are no defects of the code. -/
def FdStop.Waits : FdStop → Prop
  | .starved => True
  | .connection reason => reason ≠ .netAssertion
  | .assertion | .wild => False

/-- What a thread sees of the kernel, and what it does with descriptors. -/
structure FdIo where
  errno : Errno
  answers : List FdReply
  log : List FdOp

namespace FdIo

/-- Programs that open and close descriptors. -/
abbrev FdProgram (α : Type) : Type :=
  Program FdStop FdIo α

/-- A thread that has done nothing yet. -/
def start (answers : List FdReply) : FdIo where
  errno := 0
  answers := answers
  log := []

/-- Take the next answer. -/
def next : FdProgram FdReply :=
  fun io =>
    match io.answers with
    | [] => .error .starved
    | answer :: rest => .ok (answer, { io with answers := rest })

/-- Assign `errno`. -/
def setErrno (errno : Errno) : FdProgram Unit :=
  modify fun io => { io with errno := errno }

/-- Whether an allocation succeeds. -/
def allocate : FdProgram Bool := do
  match ← next with
  | .allocated ok =>
      if ok then
        pure true
      else
        setErrno IoError.enomem.errno
        pure false
  | _ => stop .starved

/-- The number of a new descriptor. -/
def obtain : FdProgram (Option Nat) := do
  match ← next with
  | .opened (.ok fd) => do
      modify fun io => { io with log := io.log ++ [.opened fd] }
      pure (some fd)
  | .opened (.error errno) => do
      setErrno errno
      pure none
  | _ => stop .starved

/-- Whether a call succeeds. -/
def succeeds : FdProgram Bool := do
  match ← next with
  | .returned none => pure true
  | .returned (some errno) => do
      setErrno errno
      pure false
  | _ => stop .starved

/-- `close` -/
def close (fd : Nat) : FdProgram Unit :=
  modify fun io => { io with log := io.log ++ [.closed fd] }

/-- A thread after what a connection did. -/
def after (io : FdIo) (net : NetIo) : FdIo where
  errno := net.env.errno
  answers := io.answers
  log := io.log ++ net.closed.map FdOp.closed

/-- A program on a connection, with the answers that it gets. -/
def onConnection
    {α : Type} (program : Program Stop NetIo α)
    (answers : List NetAnswer) (incoming : List UInt8) : FdProgram α :=
  fun io =>
    match
      program
        (NetIo.start { errno := io.errno, trace := [] } answers
          incoming) with
    | .ok (value, net) => .ok (value, io.after net)
    | .error reason => .error (.connection reason)

end FdIo

namespace KcnSocket

open FdIo

/-- `kcn_socket_close`, with the number that is left. -/
def close (s : Option Nat) : FdProgram (Option Nat) :=
  match s with
  | none => pure none
  | some fd => do
      FdIo.close fd
      pure none

/-- The exit at `bad`, which the functions below share. -/
def bad (s : Option Nat) : FdProgram (Option Nat) := do
  let _ ← close s
  pure none

/-- `kcn_socket_nonblock` -/
def nonblock : FdProgram Bool := do
  if ← succeeds then
    succeeds
  else
    pure false

/-- `IPV6_V6ONLY` in `kcn_socket_listen` -/
def v6only (ipv6 : Bool) (domain : Nat) : FdProgram Bool :=
  if ipv6 = true ∧ domain = afInet6 then
    succeeds
  else
    pure true

/--
`kcn_socket_listen`.  For an unknown domain it goes to `bad` before `s` is
assigned.
-/
def listen (ipv6 : Bool) (domain : Nat) : FdProgram (Option Nat) := do
  match KcnSockaddr.init ipv6 (KcnSockaddr.pf2af ipv6 domain) with
  | none => stop .wild
  | some _ =>
      match ← obtain with
      | none => bad none
      | some s =>
          if ← v6only ipv6 domain then
            -- SO_REUSEADDR and SO_REUSEPORT, which may fail
            let _ ← succeeds
            let _ ← succeeds
            if ← succeeds then
              if ← succeeds then
                pure (some s)
              else
                bad (some s)
            else
              bad (some s)
          else
            bad (some s)

/-- `kcn_socket_connect`, with the family of the address. -/
def connect (ipv6 : Bool) (family : Nat) : FdProgram (Option Nat) := do
  match KcnSockaddr.af2pf ipv6 family with
  | none => do
      setErrno Errno.eafnosupport
      pure none
  | some _ =>
      match ← obtain with
      | none => bad none
      | some s =>
          if ← nonblock then
            match KcnSockaddr.len ipv6 family with
            | none => stop .assertion
            | some _ =>
                if ← succeeds then
                  pure (some s)
                else if (← gets fun io => io.errno) =
                    Errno.einprogress then
                  pure (some s)
                else
                  bad (some s)
          else
            bad (some s)

/-- The loop of `kcn_socket_accept`; each round asks for an answer. -/
def acceptLoop : Nat → FdProgram (Option Nat)
  | 0 => stop .starved
  | rounds + 1 => do
      match ← obtain with
      | some s => pure (some s)
      | none =>
          if (← gets fun io => io.errno) = IoError.eintr.errno then
            acceptLoop rounds
          else
            pure none

/-- `kcn_socket_accept` -/
def accept : FdProgram (Option Nat) := do
  let rounds ← gets fun io => io.answers.length + 1
  match ← acceptLoop rounds with
  | none => bad none
  | some s =>
      if ← nonblock then
        pure (some s)
      else
        bad (some s)

end KcnSocket

/-! ### What is open after each of them -/

/-- What is open when a variable holds this number. -/
def fds : Option Nat → Multiset Nat
  | none => 0
  | some fd => {fd}

namespace FdIo

/-- A program that only does with descriptors what it is entitled to. -/
abbrev Holds
    {α : Type} (held : Multiset Nat) (program : FdProgram α)
    (held' : α → Multiset Nat) : Prop :=
  Moves (fun io : FdIo => io.log) FdStop.Waits held program held'

variable {held : Multiset Nat} {α β : Type}

theorem holds_next : Holds held next fun _ => held := by
  intro io
  unfold wp next
  cases answered : io.answers with
  | nil =>
      trivial
  | cons answer rest =>
      exact ⟨[], (List.append_nil io.log).symm, .nil held⟩

theorem holds_setErrno (errno : Errno) :
    Holds held (setErrno errno) fun _ => held :=
  fun io => ⟨[], (List.append_nil io.log).symm, .nil held⟩

theorem holds_gets (read : FdIo → α) :
    Holds held (gets read) fun _ => held :=
  fun io => ⟨[], (List.append_nil io.log).symm, .nil held⟩

theorem holds_starved {held' : α → Multiset Nat} :
    Holds held (stop .starved) held' :=
  .stop trivial

theorem holds_allocate : Holds held allocate fun _ => held := by
  unfold allocate
  apply holds_next.bind
  intro answer
  cases answer with
  | allocated ok =>
      cases ok with
      | true =>
          exact .pure true rfl
      | false =>
          exact (holds_setErrno _).bind fun _ => .pure false rfl
  | opened _ | returned _ | resolved _ =>
      exact holds_starved

theorem holds_obtain : Holds held obtain fun s => fds s + held := by
  unfold obtain
  apply holds_next.bind
  intro answer
  cases answer with
  | opened result =>
      cases result with
      | ok fd =>
          apply Moves.bind (Moves.opens fun _ => rfl)
          intro _
          exact .pure (some fd) rfl
      | error errno =>
          apply (holds_setErrno errno).bind
          intro _
          exact .pure none (Multiset.zero_add held).symm
  | allocated _ | returned _ | resolved _ =>
      exact holds_starved

theorem holds_succeeds : Holds held succeeds fun _ => held := by
  unfold succeeds
  apply holds_next.bind
  intro answer
  cases answer with
  | returned error =>
      cases error with
      | none =>
          exact .pure true rfl
      | some errno =>
          exact (holds_setErrno errno).bind fun _ => .pure false rfl
  | allocated _ | opened _ | resolved _ =>
      exact holds_starved

/-- A program on a connection that closes at most one descriptor. -/
theorem holds_onConnection
    {program : Program Stop NetIo α} {answers : List NetAnswer}
    {incoming : List UInt8} {number : Option Nat}
    (closes : ∀ env,
      wp program (fun _ net => net.closed = number.toList)
        (fun reason => reason ≠ .netAssertion)
        (NetIo.start env answers incoming)) :
    Holds (fds number + held) (onConnection program answers incoming)
      fun _ => held := by
  intro io
  have closes := closes { errno := io.errno, trace := [] }
  unfold wp at closes ⊢
  unfold onConnection
  cases shape :
      program
        (NetIo.start { errno := io.errno, trace := [] } answers
          incoming) with
  | error reason =>
      rw [shape] at closes
      exact closes
  | ok result =>
      rw [shape] at closes
      refine ⟨number.toList.map FdOp.closed, ?_, ?_⟩
      · exact congrArg (io.log ++ List.map FdOp.closed ·) closes
      · cases number with
        | none =>
            rw [fds, Multiset.zero_add]
            exact .nil held
        | some fd =>
            rw [fds, Multiset.singleton_add]
            exact .single_closed fd held

end FdIo

namespace KcnSocket

open FdIo

variable {held : Multiset Nat}

theorem holds_close (s : Option Nat) :
    Holds (fds s + held) (close s) fun _ => held := by
  cases s with
  | none =>
      exact .pure none (Multiset.zero_add held)
  | some fd =>
      apply Moves.bind (Moves.closes fun _ => rfl)
      intro _
      exact .pure none rfl

theorem holds_bad (s : Option Nat) :
    Holds (fds s + held) (bad s) fun s => fds s + held := by
  apply (holds_close s).bind
  intro _
  exact .pure none (Multiset.zero_add held).symm

theorem holds_nonblock : Holds held nonblock fun _ => held := by
  unfold nonblock
  apply holds_succeeds.bind
  intro ok
  split
  · exact holds_succeeds
  · exact .pure false rfl

theorem holds_v6only (ipv6 : Bool) (domain : Nat) :
    Holds held (v6only ipv6 domain) fun _ => held := by
  unfold v6only
  split
  · exact holds_succeeds
  · exact .pure true rfl

/-- `kcn_socket_listen` of a known domain -/
theorem holds_listen
    {ipv6 : Bool} {domain : Nat}
    (known :
      KcnSockaddr.init ipv6 (KcnSockaddr.pf2af ipv6 domain) ≠ none) :
    Holds held (listen ipv6 domain) fun s => fds s + held := by
  unfold listen
  split
  case h_1 unknown =>
      exact absurd unknown known
  case h_2 =>
      apply holds_obtain.bind
      intro s
      cases s with
      | none =>
          exact holds_bad none
      | some s =>
          apply (holds_v6only ipv6 domain).bind
          intro ok
          split
          · apply holds_succeeds.bind
            intro _
            apply holds_succeeds.bind
            intro _
            apply holds_succeeds.bind
            intro bound
            split
            · apply holds_succeeds.bind
              intro listens
              split
              · exact .pure (some s) rfl
              · exact holds_bad (some s)
            · exact holds_bad (some s)
          · exact holds_bad (some s)

theorem holds_connect (ipv6 : Bool) (family : Nat) :
    Holds held (connect ipv6 family) fun s => fds s + held := by
  unfold connect
  cases known : KcnSockaddr.af2pf ipv6 family with
  | none =>
      apply (holds_setErrno _).bind
      intro _
      exact .pure none (Multiset.zero_add held).symm
  | some domain =>
      obtain ⟨length, lengthEq⟩ := KcnSockaddr.len_of_af2pf known
      apply holds_obtain.bind
      intro s
      cases s with
      | none =>
          exact holds_bad none
      | some s =>
          apply holds_nonblock.bind
          intro ok
          split
          · simp only [lengthEq]
            apply holds_succeeds.bind
            intro connected
            split
            · exact .pure (some s) rfl
            · apply (holds_gets _).bind
              intro errno
              split
              · exact .pure (some s) rfl
              · exact holds_bad (some s)
          · exact holds_bad (some s)

theorem holds_acceptLoop (rounds : Nat) :
    Holds held (acceptLoop rounds) fun s => fds s + held := by
  induction rounds with
  | zero =>
      exact holds_starved
  | succ rounds inductionHypothesis =>
      unfold acceptLoop
      apply holds_obtain.bind
      intro s
      cases s with
      | some s =>
          exact .pure (some s) rfl
      | none =>
          apply (holds_gets _).bind
          intro errno
          have nothing : fds none + held = held := Multiset.zero_add held
          rw [nothing]
          split
          · exact inductionHypothesis
          · exact .pure none nothing.symm

theorem holds_accept : Holds held accept fun s => fds s + held := by
  unfold accept
  apply (holds_gets _).bind
  intro rounds
  apply (holds_acceptLoop rounds).bind
  intro s
  cases s with
  | none =>
      exact holds_bad none
  | some s =>
      apply holds_nonblock.bind
      intro ok
      split
      · exact .pure (some s) rfl
      · exact holds_bad (some s)

end KcnSocket

end Kcn
