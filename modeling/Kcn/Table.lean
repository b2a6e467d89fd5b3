import Kcn.Library.Run
import Kcn.Record

namespace Kcn

open Program KcnBuf

/-!
# Tables shared by threads

The files of a table, their cached sizes and the lock are shared; offsets and
buffers belong to the threads.  Calls are serialised by the lock, so a run is
a sequence of complete calls, each made by some thread with some answers of
the environment.
-/

/-- Memory for the buffer of a file. -/
abbrev Block : Type :=
  { memory : List UInt8 // memory.length = kcndbFileBufsiz }

/-- The private part of `struct kcndb_file`. -/
structure FileHandle where
  off : Nat
  kb : KcnBuf

/-- `struct kcndb_db_table` of one thread. -/
structure KcndbDbTable where
  kdtLoc : FileHandle
  kdtTable : FileHandle

/-- A newly opened file. -/
def FileHandle.new (memory : Block) : FileHandle where
  off := 0
  kb := KcnBuf.new memory.val

/-- One table of the database as its threads share it. -/
structure Table where
  base : KcndbDbBase
  loc : List UInt8
  table : List UInt8
  handles : Nat → Option KcndbDbTable

/-- The calls a thread makes on a table. -/
inductive Call where
  | tableOpen (loc table : Block)
  | recordAdd (kdr : KcndbDbRecord)
  | search (ke : KcnEq) (maxnlocs : Nat)

/-- What a call leaves for its caller. -/
structure Return where
  ok : Bool
  locidx : UInt64
  delivered : List KcndbDbRecord
  errno : Errno
  deriving DecidableEq

/-- A call with `errno` on entry and the answers it will get. -/
structure Request where
  tid : Nat
  call : Call
  errno : Errno
  trace : Trace

/-- A complete call. -/
structure Done extends Request where
  result : Return

namespace Table

/-- Files that do not exist yet, before any thread opened them. -/
def blank : Table where
  base := kcndbDbBaseInitializer
  loc := []
  table := []
  handles := fun _ => none

/-- What a call of a thread sees. -/
def view
    (s : Table) (tid : Nat) (kdt : KcndbDbTable) (env : Env) :
    TableCtx where
  tid := tid
  base := s.base
  loc := { content := s.loc, off := kdt.kdtLoc.off, kb := kdt.kdtLoc.kb }
  table := {
    content := s.table, off := kdt.kdtTable.off, kb := kdt.kdtTable.kb
  }
  env := env
  delivered := []

/-- The private part of what a call leaves. -/
def handleOf (ctx : TableCtx) : KcndbDbTable where
  kdtLoc := { off := ctx.loc.off, kb := ctx.loc.kb }
  kdtTable := { off := ctx.table.off, kb := ctx.table.kb }

/-- The table after a call, with the given handle of the calling thread. -/
def after
    (s : Table) (ctx : TableCtx) (kdt : Option KcndbDbTable) :
    Table where
  base := ctx.base
  loc := ctx.loc.content
  table := ctx.table.content
  handles := Function.update s.handles ctx.tid kdt

/-- Run a call of a thread. -/
def exec
    (s : Table) (tid : Nat) (call : Call) (env : Env) :
    Except Stop (Return × Env × Table) :=
  match call with
  | .tableOpen loc table =>
      let kdt : KcndbDbTable := {
        kdtLoc := FileHandle.new loc
        kdtTable := FileHandle.new table
      }
      match KcndbDb.tableOpen (s.view tid kdt env) with
      | .ok (ok, ctx) =>
          .ok
            ({ ok := ok, locidx := 0, delivered := [],
               errno := ctx.env.errno },
              ctx.env,
              s.after ctx (if ok then some (handleOf ctx) else none))
      | .error reason => .error reason
  | .recordAdd kdr =>
      match s.handles tid with
      | some kdt =>
          match KcndbDb.recordAdd kdr (s.view tid kdt env) with
          | .ok ((ok, kdr'), ctx) =>
              .ok
                ({ ok := ok, locidx := kdr'.kdrLocidx, delivered := [],
                   errno := ctx.env.errno },
                  ctx.env, s.after ctx (some (handleOf ctx)))
          | .error reason => .error reason
      | none => .error .wild
  | .search ke maxnlocs =>
      match s.handles tid with
      | some kdt =>
          match KcndbDb.search ke maxnlocs (s.view tid kdt env) with
          | .ok (ok, ctx) =>
              .ok
                ({ ok := ok, locidx := 0, delivered := ctx.delivered,
                   errno := ctx.env.errno },
                  ctx.env, s.after ctx (some (handleOf ctx)))
          | .error reason => .error reason
      | none => .error .wild

/--
A complete call: it returns, it was answered exactly by its trace, and no file
outgrew the offsets a file can have.
-/
structure Step (s : Table) (done : Done) (s' : Table) : Prop where
  returns :
    s.exec done.tid done.call
        { errno := done.errno, trace := done.trace } =
      .ok (done.result, { errno := done.result.errno, trace := [] }, s')
  locFits : s'.loc.length ≤ offMax
  tableFits : s'.table.length ≤ offMax

/-- Perform a request, if that makes a step. -/
def perform (s : Table) (request : Request) : Option (Done × Table) :=
  match
    s.exec request.tid request.call
      { errno := request.errno, trace := request.trace } with
  | .ok (result, env, s') =>
      if env = { errno := result.errno, trace := [] } ∧
          s'.loc.length ≤ offMax ∧ s'.table.length ≤ offMax then
        some ({ request with result := result }, s')
      else
        none
  | .error _ => none

/-- What is performed is the request, as a step. -/
theorem step_perform
    (s : Table) (request : Request) (done : Done) (s' : Table)
    (performed : s.perform request = some (done, s')) :
    s.Step done s' ∧ done.toRequest = request := by
  unfold perform at performed
  split at performed
  · rename_i result env s₁ executed
    split at performed
    · rename_i fine
      obtain ⟨envEq, locFits, tableFits⟩ := fine
      obtain ⟨rfl, rfl⟩ := Prod.mk.inj (Option.some.inj performed)
      rw [envEq] at executed
      exact ⟨⟨executed, locFits, tableFits⟩, rfl⟩
    · cases performed
  · cases performed

end Table

namespace Request

/-- Memory that holds zeros. -/
def zeros : Block :=
  ⟨List.replicate kcndbFileBufsiz 0, List.length_replicate⟩

/-- A request to open a table whose files are new. -/
def create (tid : Nat) : Request where
  tid := tid
  call := .tableOpen zeros zeros
  errno := 0
  trace :=
    [.openFile none, .openFile none, .lock none, .stat none,
      .stat none, .seek none, .write .full]

/-- The answers for reading the slot of a locator that is new. -/
def newLoc : Trace :=
  [.seek none, .read .full, .seek none, .write .full, .seek none,
    .write .full]

/-- A request to add a record, with the answers up to its append. -/
def add
    (tid : Nat) (time : Int64) (val : UInt64) (loc : List UInt8)
    (answers : Trace) : Request where
  tid := tid
  call := .recordAdd {
    kdrTime := time, kdrVal := val, kdrLocidx := 0, kdrLoc := loc
  }
  errno := 0
  trace := .lock none :: (answers ++ [.seek none, .write .full])

/-- A request for records with one value, whatever their time. -/
def ask
    (tid : Nat) (type : Nat) (val : UInt64) (maxnlocs : Nat)
    (answers : Trace) : Request where
  tid := tid
  call := .search
    { keType := type, keOp := 3, keVal := val, keStart := 0
      keEnd := kcnTimeNow }
    maxnlocs
  errno := 0
  trace := .lock none :: .seek none :: answers

end Request

end Kcn
