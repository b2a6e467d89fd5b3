import Kcn.Eq
import Kcn.File

namespace Kcn

open Program Bytes

/-!
# The database tables

`kcndb_db.c`: one table file of 24-byte records and one locator file with a
hash index per equation type.  Every thread opens both files itself, so each
has its own offsets and buffers; the files, their cached sizes and the lock are
shared.  A call sees the shared parts and the private parts of its own thread.
-/

/-- `pthread_rwlock_t`: the thread that writes and the threads that read. -/
structure RwLock where
  writer : Option Nat
  readers : List Nat
  deriving Repr, DecidableEq

namespace RwLock

/-- `PTHREAD_RWLOCK_INITIALIZER` -/
def initializer : RwLock where
  writer := none
  readers := []

/-- Nobody holds the lock. -/
def Free (lock : RwLock) : Prop :=
  lock.writer = none ∧ lock.readers = []

instance (lock : RwLock) : Decidable lock.Free :=
  inferInstanceAs (Decidable (_ ∧ _))

/-- The thread holds the lock for reading or for writing. -/
def HeldBy (lock : RwLock) (tid : Nat) : Prop :=
  lock.writer = some tid ∨ tid ∈ lock.readers

/-- The effect of `pthread_rwlock_unlock` for the calling thread. -/
def release (lock : RwLock) (tid : Nat) : RwLock :=
  if lock.writer = some tid then
    { lock with writer := none }
  else
    { lock with readers := lock.readers.erase tid }

end RwLock

/-- `struct kcndb_db_base`: the shared sizes and the lock of a table. -/
structure KcndbDbBase where
  kdbLocsize : Nat
  kdbTablesize : Nat
  kdbLock : RwLock
  deriving Repr, DecidableEq

/-- `KCNDB_DB_BASE_INITIALIZER` -/
def kcndbDbBaseInitializer : KcndbDbBase where
  kdbLocsize := 0
  kdbTablesize := 0
  kdbLock := RwLock.initializer

/-- `struct kcndb_db_record`; `kdrLoc` stands for `kdr_loc` and its length. -/
structure KcndbDbRecord where
  kdrTime : Int64
  kdrVal : UInt64
  kdrLocidx : UInt64
  kdrLoc : List UInt8
  deriving Repr, DecidableEq

/-- What a call on a table sees. -/
structure TableCtx where
  tid : Nat
  base : KcndbDbBase
  loc : KcndbFile
  table : KcndbFile
  env : Env
  delivered : List KcndbDbRecord

namespace TableCtx

/-- Programs that work on one table. -/
abbrev TableOp (α : Type) : Type :=
  Program Stop TableCtx α

/-- The environment as a part of the state. -/
def envLens : Lens TableCtx Env where
  get ctx := ctx.env
  set ctx env := { ctx with env := env }

/-- `kdt_loc` -/
def locLens : Lens TableCtx FileCtx where
  get ctx := { file := ctx.loc, env := ctx.env }
  set ctx part := { ctx with loc := part.file, env := part.env }

/-- `kdt_table` -/
def tableLens : Lens TableCtx FileCtx where
  get ctx := { file := ctx.table, env := ctx.env }
  set ctx part := { ctx with table := part.file, env := part.env }

/-- An operation on the locator file. -/
def onLoc {α : Type} (op : FileCtx.FileOp α) : TableOp α :=
  zoom locLens op

/-- An operation on the table file. -/
def onTable {α : Type} (op : FileCtx.FileOp α) : TableOp α :=
  zoom tableLens (mapStop Stop.onTable op)

/-- An operation on the environment. -/
def sys {α : Type} (op : Program Stop Env α) : TableOp α :=
  zoom envLens op

/-- Change the shared base of the table. -/
def setBase (update : KcndbDbBase → KcndbDbBase) : TableOp Unit :=
  modify fun ctx => { ctx with base := update ctx.base }

end TableCtx

namespace KcndbDb

open TableCtx FileCtx

/-- `KCNDB_DB_LOC_HASHSIZ` -/
def locHashsiz : Nat := 256

/-- `KCNDB_DB_LOC_INDEXSIZ` -/
def locIndexsiz : Nat := 8

/-- `KCNDB_DB_LOC_INDEXTABLESIZ` -/
def locIndextablesiz : Nat := locIndexsiz * locHashsiz

/-- `KCNDB_DB_RECORDSIZ` -/
def recordsiz : Nat := 8 + 8 + 8

/-- `kcndb_db_rdlock` -/
def rdlock : TableOp Bool := do
  match ← sys Env.next with
  | .lock none => do
      let lock ← gets fun ctx => ctx.base.kdbLock
      if lock.writer = none then
        let tid ← gets fun ctx => ctx.tid
        setBase fun base => {
          base with
          kdbLock := { lock with readers := tid :: lock.readers }
        }
        pure true
      else
        stop .blocked
  | .lock (some error) => do
      sys (Env.setErrno error.errno)
      pure false
  | _ => stop .starved

/-- `kcndb_db_wrlock` -/
def wrlock : TableOp Bool := do
  match ← sys Env.next with
  | .lock none => do
      let lock ← gets fun ctx => ctx.base.kdbLock
      if lock.Free then
        let tid ← gets fun ctx => ctx.tid
        setBase fun base => {
          base with kdbLock := { lock with writer := some tid }
        }
        pure true
      else
        stop .blocked
  | .lock (some error) => do
      sys (Env.setErrno error.errno)
      pure false
  | _ => stop .starved

/-- `kcndb_db_unlock` -/
def unlock : TableOp Unit := do
  let tid ← gets fun ctx => ctx.tid
  setBase fun base => {
    base with kdbLock := base.kdbLock.release tid
  }

/-- `kcndb_db_loc_init` -/
def locInit : TableOp Bool := do
  if 0 < (← gets fun ctx => ctx.base.kdbLocsize) then
    pure true
  else
    onLoc (buf (KcnBuf.putnull locIndextablesiz))
    if ← onLoc KcndbFile.append then
      setBase fun base => {
        base with kdbLocsize := base.kdbLocsize + locIndextablesiz
      }
      pure true
    else
      pure false

/-- The part of `kcndb_db_init` that fetches the size of the locator file. -/
def initLocsize : TableOp Bool := do
  if (← gets fun ctx => ctx.base.kdbLocsize) = 0 then
    match ← onLoc KcndbFile.sizeGet with
    | some size => do
        setBase fun base => { base with kdbLocsize := size }
        pure true
    | none => pure false
  else
    pure true

/-- The part of `kcndb_db_init` that fetches the size of the table file. -/
def initTablesize : TableOp Bool := do
  if (← gets fun ctx => ctx.base.kdbTablesize) = 0 then
    match ← onTable KcndbFile.sizeGet with
    | some size => do
        setBase fun base => { base with kdbTablesize := size }
        pure true
    | none => pure false
  else
    pure true

/-- `kcndb_db_init` -/
def init : TableOp Bool := do
  if ← initLocsize then
    if ← initTablesize then
      locInit
    else
      pure false
  else
    pure false

/-- The answer of `kcndb_file_open`; a new file has an empty buffer. -/
def fileOpen : TableOp Bool := do
  match ← sys Env.next with
  | .openFile none => pure true
  | .openFile (some error) => do
      sys (Env.setErrno error.errno)
      pure false
  | _ => stop .starved

/-- `kcndb_db_table_open` on files that are at hand as soon as opened. -/
def tableOpen : TableOp Bool := do
  if ← fileOpen then
    if ← fileOpen then
      if ← wrlock then
        let rc ← init
        unlock
        pure rc
      else
        pure false
    else
      pure false
  else
    pure false

/-- How the chain walk of `kcndb_db_loc_add` ends. -/
inductive WalkEnd where
  | failed
  | found (idx : UInt64)
  | tail (idx : UInt64)
  deriving Repr, DecidableEq

/-- The comparison of `kcndb_db_loc_add` with the bytes at the cursor. -/
def locMatches (memory loc : List UInt8) (len : UInt16) : Bool :=
  loc.length == len.toNat && strncmpEq loc.length memory loc

/-- The loop of `kcndb_db_loc_add`; each round but the last asks for an answer. -/
def locWalk (loc : List UInt8) : Nat → TableOp WalkEnd
  | 0 => stop .starved
  | rounds + 1 => do
      let idx ← onLoc (buf KcnBuf.get64)
      if idx = 0 then
        pure (.tail idx)
      else if ← onLoc (KcndbFile.seekHead idx.toNat) then
        onLoc (buf (KcnBuf.reset 0))
        if ← onLoc (KcndbFile.ensure 2) then
          let len ← onLoc (buf KcnBuf.get16)
          if ← onLoc (KcndbFile.ensure (len.toNat + 8)) then
            let memory ← gets fun ctx =>
              ctx.loc.kb.bytes.drop ctx.loc.kb.cp
            if locMatches memory loc len then
              pure (.found idx)
            else
              onLoc (buf (KcnBuf.forward len.toNat))
              locWalk loc rounds
          else
            pure .failed
        else
          pure .failed
      else
        pure .failed

/--
The rest of `kcndb_db_loc_add` once the walk reached the end of the chain:
append the entry, then store its offset at `oidx`.
-/
def locLink (loc : List UInt8) (last : UInt64) :
    TableOp (Option UInt64) := do
  let headingdata ← gets fun ctx => ctx.loc.kb.headingdata
  let oidx := last + UInt64.ofNat headingdata - 8
  let locsize ← gets fun ctx => ctx.base.kdbLocsize
  let idx := UInt64.ofNat locsize
  onLoc (buf (KcnBuf.reset 0))
  onLoc (buf (KcnBuf.put16 (UInt16.ofNat loc.length)))
  onLoc (buf (KcnBuf.put loc))
  onLoc (buf (KcnBuf.put64 0))
  let len ← gets fun ctx => ctx.loc.kb.len
  if ← onLoc KcndbFile.append then
    setBase fun base => {
      base with kdbLocsize := base.kdbLocsize + len
    }
    onLoc (buf (KcnBuf.put64 idx))
    if ← onLoc (KcndbFile.seekHead oidx.toNat) then
      if ← onLoc KcndbFile.write then
        pure (some idx)
      else
        pure none
    else
      pure none
  else
    pure none

/-- `kcndb_db_loc_add` up to the end of its loop. -/
def locFind (loc : List UInt8) : TableOp WalkEnd := do
  let h := kcnStrHash loc locHashsiz
  onLoc (buf (KcnBuf.reset 0))
  if ← onLoc (KcndbFile.seekHead 0) then
    if ← onLoc (KcndbFile.ensure locIndexsiz) then
      onLoc (buf (KcnBuf.forward (locIndexsiz * h)))
      let rounds ← gets fun ctx => ctx.env.trace.length + 1
      locWalk loc rounds
    else
      pure .failed
  else
    pure .failed

/-- `kcndb_db_loc_add`; the index is returned where the code returns true. -/
def locAdd (loc : List UInt8) : TableOp (Option UInt64) := do
  match ← locFind loc with
  | .failed => pure none
  | .found idx => pure (some idx)
  | .tail last => locLink loc last

/-- `kcndb_db_loc_lookup`; the bytes are those at `*locp` on return. -/
def locLookup (idx : UInt64) : TableOp (Option (List UInt8)) := do
  if (← gets fun ctx => ctx.base.kdbLocsize) < idx.toNat then
    sys (Env.setErrno Errno.enxio)
    pure none
  else
    onLoc (buf (KcnBuf.reset 0))
    if ← onLoc (KcndbFile.seekHead idx.toNat) then
      if ← onLoc (KcndbFile.ensure 2) then
        let loclen ← onLoc (buf KcnBuf.get16)
        if ← onLoc (KcndbFile.ensure loclen.toNat) then
          let loc ← gets fun ctx =>
            slice ctx.loc.kb.bytes ctx.loc.kb.cp loclen.toNat
          pure (some loc)
        else
          pure none
      else
        pure none
    else
      pure none

/-- `kcndb_db_record_read`; it does not set the locator of the record. -/
def recordRead : TableOp (Option KcndbDbRecord) := do
  if ← onTable (KcndbFile.ensure recordsiz) then
    let time ← onTable (buf KcnBuf.get64)
    let val ← onTable (buf KcnBuf.get64)
    let locidx ← onTable (buf KcnBuf.get64)
    let headingdata ← gets fun ctx => ctx.table.kb.headingdata
    onTable (buf (KcnBuf.trimHead headingdata))
    pure (some {
      kdrTime := time.toInt64
      kdrVal := val
      kdrLocidx := locidx
      kdrLoc := []
    })
  else
    pure none

/-- `kcndb_db_record_read_last` -/
def recordReadLast : TableOp (Option KcndbDbRecord) := do
  let tablesize ← gets fun ctx => ctx.base.kdbTablesize
  if tablesize < recordsiz then
    pure (some {
      kdrTime := 0
      kdrVal := 0
      kdrLocidx := 0
      kdrLoc := []
    })
  else if ← onTable (KcndbFile.seekHead (tablesize - recordsiz)) then
    recordRead
  else
    pure none

/-- The part of `kcndb_db_record_add` that stores the record. -/
def recordAppend (kdr : KcndbDbRecord) : TableOp Bool := do
  onTable (buf (KcnBuf.put64 kdr.kdrTime.toUInt64))
  onTable (buf (KcnBuf.put64 kdr.kdrVal))
  onTable (buf (KcnBuf.put64 kdr.kdrLocidx))
  if ← onTable KcndbFile.append then
    setBase fun base => {
      base with kdbTablesize := base.kdbTablesize + recordsiz
    }
    pure true
  else
    pure false

/-- The part of `kcndb_db_record_add` between taking and releasing the lock. -/
def recordAddLocked (kdr : KcndbDbRecord) :
    TableOp (Bool × KcndbDbRecord) := do
  match ← recordReadLast with
  | none => pure (false, kdr)
  | some kdr0 =>
      if kdr0.kdrTime > kdr.kdrTime then
        sys (Env.setErrno Errno.erange)
        pure (false, kdr)
      else
        match ← locAdd kdr.kdrLoc with
        | none => pure (false, kdr)
        | some idx => do
            let kdr := { kdr with kdrLocidx := idx }
            let rc ← recordAppend kdr
            pure (rc, kdr)

/-- `kcndb_db_record_add`, with the record as its caller finds it afterwards. -/
def recordAdd (kdr : KcndbDbRecord) : TableOp (Bool × KcndbDbRecord) := do
  if ← wrlock then
    let result ← recordAddLocked kdr
    unlock
    pure result
  else
    pure (false, kdr)

/-- The operator switch of `kcndb_db_search`: whether the record is skipped. -/
def operatorSkips (ke : KcnEq) (val : UInt64) : TableOp Bool :=
  match KcnEqOperator.ofCode? ke.keOp with
  | some .lt => pure (decide (val ≥ ke.keVal))
  | some .le => pure (decide (val > ke.keVal))
  | some .eq => pure (decide (val ≠ ke.keVal))
  | some .gt => pure (decide (val ≤ ke.keVal))
  | some .ge => pure (decide (val < ke.keVal))
  | some .none | none => stop .operator

/-- Hand a record to the callback. -/
def deliver (kdr : KcndbDbRecord) : TableOp Bool := do
  modify fun ctx => { ctx with delivered := ctx.delivered ++ [kdr] }
  match ← sys Env.next with
  | .callback accepted => pure accepted
  | _ => stop .starved

/-- What the body of the search loop does with a record. -/
inductive Visit where
  | skipped
  | delivered
  | failed
  deriving Repr, DecidableEq

/-- The body of the search loop after the record was read. -/
def visit (ke : KcnEq) (kdr : KcndbDbRecord) : TableOp Visit := do
  if kcnEqTimeMatch kdr.kdrTime ke then
    if ← operatorSkips ke kdr.kdrVal then
      pure .skipped
    else
      match ← locLookup kdr.kdrLocidx with
      | none => pure .failed
      | some loc =>
          if ← deliver { kdr with kdrLoc := loc } then
            pure .delivered
          else
            pure .failed
  else
    pure .skipped

/--
The loop of `kcndb_db_search`, with the number of records delivered, or `none`
where the code jumps to `bad`.  Each round but the last reads one record of the
file.
-/
def searchLoop (ke : KcnEq) (maxnlocs : Nat) :
    Nat → Nat → TableOp (Option Nat)
  | 0, _ => stop .starved
  | rounds + 1, n =>
      if n < maxnlocs then do
        match ← recordRead with
        | none => do
            if (← gets fun ctx => ctx.env.errno) = Errno.eshutdown then
              pure (some n)
            else
              pure none
        | some kdr =>
            match ← visit ke kdr with
            | .skipped => searchLoop ke maxnlocs rounds n
            | .delivered => searchLoop ke maxnlocs rounds (n + 1)
            | .failed => pure none
      else
        pure (some n)

/-- The part of `kcndb_db_search` after the lock was taken. -/
def searchLocked (ke : KcnEq) (maxnlocs : Nat) : TableOp Bool := do
  if ← onTable (KcndbFile.seekHead 0) then
    onTable (buf (KcnBuf.reset 0))
    let rounds ← gets fun ctx => ctx.table.content.length + 1
    match ← searchLoop ke maxnlocs rounds 0 with
    | none => pure false
    | some n =>
        if n = 0 then
          sys (Env.setErrno Errno.esrch)
          pure false
        else
          pure true
  else
    pure false

/-- `kcndb_db_search`; only the failing exits reach the unlock at `bad`. -/
def search (ke : KcnEq) (maxnlocs : Nat) : TableOp Bool := do
  if ← rdlock then
    if ← searchLocked ke maxnlocs then
      pure true
    else
      unlock
      pure false
  else
    pure false

end KcndbDb

end Kcn
