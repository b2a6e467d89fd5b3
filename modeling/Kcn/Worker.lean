import Kcn.Eq
import Kcn.Socket
import Kcn.Session
import Mathlib.Algebra.BigOperators.Group.List.Basic
import Mathlib.Algebra.Order.Group.Multiset
import Mathlib.Data.Fin.Basic
import Mathlib.Data.List.FinRange

namespace Kcn

open Program FdIo

/-!
# The descriptors of the daemon

What the threads of `kcndbd` open and close: the files of their tables from
`kcndb_file.c` and `kcndb_db.c`, and the sockets of `kcndb_server.c`.  What
`kcndb_db_init` reads and writes is left out here, and so are the descriptors
that libevent keeps for itself.
-/

namespace FdDb

/-- `struct kcndb_file` -/
structure File where
  kfFd : Option Nat
  deriving DecidableEq

/-- `kcndb_file_destroy` and `kcndb_file_close` -/
def fileDestroy (kf : Option File) : FdProgram Unit :=
  match kf with
  | none => pure ()
  | some kf =>
      match kf.kfFd with
      | none => pure ()
      | some fd => FdIo.close fd

/-- `kcndb_file_new` -/
def fileNew : FdProgram (Option File) := do
  if ← allocate then
    let kf : File := { kfFd := none }
    if ← allocate then
      pure (some kf)
    else
      fileDestroy (some kf)
      pure none
  else
    fileDestroy none
    pure none

/-- `kcndb_file_open` -/
def fileOpen : FdProgram (Option File) := do
  match ← fileNew with
  | none => pure none
  | some _ => do
      let kf : File := { kfFd := ← obtain }
      if kf.kfFd = none then
        fileDestroy (some kf)
        pure none
      else
        pure (some kf)

/-- `struct kcndb_db_table` -/
structure DbTable where
  kdtLoc : Option File
  kdtTable : Option File
  deriving DecidableEq

/-- `kcndb_db_table_new` -/
def tableNew : FdProgram (Option DbTable) := do
  if ← allocate then
    pure (some { kdtLoc := none, kdtTable := none })
  else
    pure none

/-- `kcndb_db_table_close` of a table -/
def tableClose (kdt : DbTable) : FdProgram Unit := do
  fileDestroy kdt.kdtLoc
  fileDestroy kdt.kdtTable

/-- The exit of `kcndb_db_table_open` at `bad` -/
def tableBad (kdt : DbTable) : FdProgram (Option DbTable) := do
  tableClose kdt
  pure none

/-- `kcndb_db_table_open` of a type that has a name -/
def tableOpen : FdProgram (Option DbTable) := do
  match ← tableNew with
  | none => pure none
  | some kdt => do
      let kdt := { kdt with kdtLoc := ← fileOpen }
      if kdt.kdtLoc = none then
        tableBad kdt
      else
        let kdt := { kdt with kdtTable := ← fileOpen }
        if kdt.kdtTable = none then
          tableBad kdt
        else if ← succeeds then
          -- the lock is held for writing
          if ← succeeds then
            pure (some kdt)
          else
            tableBad kdt
        else
          tableBad kdt

/-- A member of `kd_tables`, which `kcndb_db_new` does not clear. -/
inductive Slot where
  | unset
  | null
  | table (kdt : DbTable)

/-- `struct kcndb_db` -/
abbrev Db : Type :=
  Fin (kcnEqTypeMax - 1) → Slot

/-- The loop of `kcndb_db_destroy` -/
def destroyLoop (kd : Db) :
    List (Fin (kcnEqTypeMax - 1)) → FdProgram Unit
  | [] => pure ()
  | idx :: later =>
      match kd idx with
      | .unset => stop .wild
      | .null => pure ()
      | .table kdt => do
          tableClose kdt
          destroyLoop (Function.update kd idx .null) later

/-- `kcndb_db_destroy` -/
def destroy (kd : Option Db) : FdProgram Unit :=
  match kd with
  | none => pure ()
  | some kd => destroyLoop kd (List.finRange (kcnEqTypeMax - 1))

/-- The loop of `kcndb_db_new` -/
def newLoop (kd : Db) :
    List (Fin (kcnEqTypeMax - 1)) → FdProgram (Option Db)
  | [] => pure (some kd)
  | idx :: later => do
      match ← tableOpen with
      | none => do
          destroy (some (Function.update kd idx .null))
          pure none
      | some kdt => newLoop (Function.update kd idx (.table kdt)) later

/-- `kcndb_db_new` -/
def new : FdProgram (Option Db) := do
  if ← allocate then
    newLoop (fun _ => .unset) (List.finRange (kcnEqTypeMax - 1))
  else
    destroy none
    pure none

end FdDb

namespace KcndbServer

/-- What a session meets. -/
structure Visit where
  deliveries : List NetStep
  ibuf : List UInt8
  obuf : List UInt8
  answers : List NetAnswer
  incoming : List UInt8

/-- `kcndb_server_session` among what else the thread opens and closes. -/
def visitSession (visit : Visit) (fd : Nat) : FdProgram Unit :=
  onConnection
    (netSession visit.deliveries fd visit.ibuf visit.obuf)
    visit.answers visit.incoming

/--
The endless loop of `kcndb_server_main`, with what the session of each round
meets if there is one.
-/
def serveLoop : List Visit → FdProgram Unit
  | [] => pure ()
  | visit :: later => do
      match ← KcnSocket.accept with
      | none => serveLoop later
      | some fd => do
          visitSession visit fd
          serveLoop later

/-- `kcndb_thread_finish` -/
def threadFinish (kd : Option FdDb.Db) : FdProgram Unit :=
  FdDb.destroy kd

/-- `kcndb_server_main`, with `kt_db` while it serves. -/
def serverMain (visits : List Visit) :
    FdProgram (Option FdDb.Db) := do
  let evb ← allocate
  let kd ← FdDb.new
  if evb = false then
    threadFinish kd
    pure none
  else
    match kd with
    | none => do
        threadFinish none
        pure none
    | some kd => do
        serveLoop visits
        pure (some kd)

/-- `KCNDB_SERVER_NWORKERS` -/
def nworkers : Nat := 8

/-- The creation of threads in `kcndb_server_start` -/
def createThreads : Nat → FdProgram Bool
  | 0 => pure true
  | missing + 1 => do
      if ← succeeds then
        createThreads missing
      else
        pure false

/-- `kcndb_server_stop`, with `kcndb_server_socket` afterwards. -/
def serverStop (socket : Option Nat) : FdProgram (Option Nat) :=
  KcnSocket.close socket

/-- `kcndb_server_start`, with `kcndb_server_socket` if it succeeds. -/
def serverStart (ipv6 : Bool) : FdProgram (Option Nat) := do
  let domain := if ipv6 then afInet6 else afInet
  match ← KcnSocket.listen ipv6 domain with
  | none => do
      let _ ← serverStop none
      pure none
  | some socket => do
      if ← createThreads (nworkers - 1) then
        pure (some socket)
      else
        let _ ← serverStop (some socket)
        pure none

/-- What a thread leaves open. -/
structure Rest where
  socket : Option Nat
  db : Option FdDb.Db

/--
A thread of the daemon: the first one starts the others and serves like them
if this succeeds.
-/
def thread (ipv6 : Bool) (visits : List Visit) (k : Fin nworkers) :
    FdProgram Rest := do
  if k.val = 0 then
    match ← serverStart ipv6 with
    | none => pure { socket := none, db := none }
    | some socket => do
        let kd ← serverMain visits
        pure { socket := some socket, db := kd }
  else
    let kd ← serverMain visits
    pure { socket := none, db := kd }

end KcndbServer

/-! ### What the tables hold -/

namespace FdDb

/-- What a file has open. -/
def fileFds (kf : Option File) : Multiset Nat :=
  fds (kf.bind File.kfFd)

/-- What a table has open. -/
def tableFds (kdt : DbTable) : Multiset Nat :=
  fileFds kdt.kdtLoc + fileFds kdt.kdtTable

/-- What a member of `kd_tables` has open. -/
def Slot.fds : Slot → Multiset Nat
  | .unset | .null => 0
  | .table kdt => tableFds kdt

/-- What some of the tables have open. -/
def slotsFds
    (kd : Db) (idxs : List (Fin (kcnEqTypeMax - 1))) : Multiset Nat :=
  (idxs.map fun idx => (kd idx).fds).sum

/-- What a database has open. -/
def dbFds (kd : Option Db) : Multiset Nat :=
  match kd with
  | none => 0
  | some kd => slotsFds kd (List.finRange (kcnEqTypeMax - 1))

variable {held : Multiset Nat}

theorem holds_fileDestroy (kf : Option File) :
    Holds (fileFds kf + held) (fileDestroy kf) fun _ => held := by
  cases kf with
  | none =>
      exact .pure () (Multiset.zero_add held)
  | some kf =>
      obtain ⟨number⟩ := kf
      cases number with
      | none =>
          exact .pure () (Multiset.zero_add held)
      | some fd =>
          exact .closes fun _ => rfl

/-- A new file has nothing open. -/
theorem holds_fileNew : Holds held fileNew fun _ => held := by
  unfold fileNew
  apply holds_allocate.bind
  intro ok
  split
  · apply holds_allocate.bind
    intro ok'
    split
    · exact .pure _ rfl
    · have nothing : fileFds (some { kfFd := none }) + held = held :=
        Multiset.zero_add held
      have destroys :
          Holds (fileFds (some { kfFd := none }) + held)
            (fileDestroy (some { kfFd := none })) fun _ => held :=
        holds_fileDestroy _
      rw [nothing] at destroys
      exact destroys.bind fun _ => .pure none rfl
  · exact Moves.bind (.pure () rfl) fun _ => .pure none rfl

theorem holds_fileOpen :
    Holds held fileOpen fun kf => fileFds kf + held := by
  have nothing : fileFds none + held = held := Multiset.zero_add held
  unfold fileOpen
  apply holds_fileNew.bind
  intro kf
  cases kf with
  | none =>
      exact .pure none nothing.symm
  | some kf =>
      apply holds_obtain.bind
      intro number
      cases number with
      | none =>
          apply (holds_fileDestroy (some { kfFd := none })).bind
          intro _
          exact .pure none nothing.symm
      | some fd =>
          exact .pure (some (⟨some fd⟩ : File)) rfl

theorem holds_tableClose (kdt : DbTable) :
    Holds (tableFds kdt + held) (tableClose kdt) fun _ => held := by
  unfold tableFds tableClose
  rw [Multiset.add_assoc]
  apply (holds_fileDestroy kdt.kdtLoc).bind
  intro _
  exact holds_fileDestroy kdt.kdtTable

/-- What a table that is not there has open. -/
def optionFds (kdt : Option DbTable) : Multiset Nat :=
  (kdt.map tableFds).getD 0

theorem holds_tableBad
    {kdt : DbTable} {held' : Multiset Nat}
    (same : held' = tableFds kdt + held) :
    Holds held' (tableBad kdt) fun kdt => optionFds kdt + held := by
  rw [same]
  apply (holds_tableClose kdt).bind
  intro _
  exact .pure none (Multiset.zero_add held).symm

theorem holds_tableOpen :
    Holds held tableOpen fun kdt => optionFds kdt + held := by
  have nothing : optionFds none + held = held := Multiset.zero_add held
  have both (kdtLoc kdtTable : Option File) :
      fileFds kdtTable + (fileFds kdtLoc + held) =
        tableFds ⟨kdtLoc, kdtTable⟩ + held := by
    rw [tableFds, add_assoc, add_left_comm]
  unfold tableOpen tableNew
  rw [bind_bind]
  apply holds_allocate.bind
  intro ok
  split
  case isFalse =>
      exact .pure none nothing.symm
  case isTrue =>
      change Holds held (fileOpen >>= _) _
      apply holds_fileOpen.bind
      intro kdtLoc
      cases kdtLoc with
      | none =>
          have none := (Multiset.zero_add _).symm.trans (both none none)
          exact holds_tableBad none
      | some loc =>
          change Holds _ (fileOpen >>= _) _
          apply holds_fileOpen.bind
          intro kdtTable
          cases kdtTable with
          | none =>
              exact holds_tableBad (both (some loc) none)
          | some table =>
              have both := both (some loc) (some table)
              apply holds_succeeds.bind
              intro locked
              split
              · apply holds_succeeds.bind
                intro inited
                split
                · exact .pure (some (⟨_, _⟩ : DbTable)) both
                · exact holds_tableBad both
              · exact holds_tableBad both

/-- Other members of `kd_tables` are as they were. -/
theorem slotsFds_update
    {kd : Db} {idxs : List (Fin (kcnEqTypeMax - 1))}
    {idx : Fin (kcnEqTypeMax - 1)} (others : idx ∉ idxs) (slot : Slot) :
    slotsFds (Function.update kd idx slot) idxs = slotsFds kd idxs := by
  unfold slotsFds
  congr 1
  apply List.map_congr_left
  intro other member
  have different : other ≠ idx := fun same => others (same ▸ member)
  rw [Function.update_of_ne different]

/--
The members of `kd_tables` from some index on, where a database can be
destroyed: there are tables up to the end or up to a null pointer.
-/
inductive Filled (kd : Db) : List (Fin (kcnEqTypeMax - 1)) → Prop where
  | nil : Filled kd []
  | null (idx : Fin (kcnEqTypeMax - 1))
      (later : List (Fin (kcnEqTypeMax - 1))) :
      kd idx = .null →
      slotsFds kd later = 0 →
      Filled kd (idx :: later)
  | table (idx : Fin (kcnEqTypeMax - 1)) (kdt : DbTable)
      (later : List (Fin (kcnEqTypeMax - 1))) :
      kd idx = .table kdt →
      Filled kd later →
      Filled kd (idx :: later)

/-- Whether members are filled does not depend on others. -/
theorem Filled.update
    {kd : Db} {idxs : List (Fin (kcnEqTypeMax - 1))}
    {idx : Fin (kcnEqTypeMax - 1)} (filled : Filled kd idxs)
    (others : idx ∉ idxs) (slot : Slot) :
    Filled (Function.update kd idx slot) idxs := by
  induction filled with
  | nil =>
      exact .nil
  | null first later isNull empty =>
      obtain ⟨different, outside⟩ :=
        not_or.mp (others ∘ List.mem_cons.mpr)
      refine .null first later ?_ ?_
      · rw [Function.update_of_ne (Ne.symm different), isNull]
      · rw [slotsFds_update outside, empty]
  | table first kdt later isTable _ inductionHypothesis =>
      obtain ⟨different, outside⟩ :=
        not_or.mp (others ∘ List.mem_cons.mpr)
      refine .table first kdt later ?_ (inductionHypothesis outside)
      rw [Function.update_of_ne (Ne.symm different), isTable]

theorem slotsFds_cons
    (kd : Db) (idx : Fin (kcnEqTypeMax - 1))
    (later : List (Fin (kcnEqTypeMax - 1))) :
    slotsFds kd (idx :: later) = (kd idx).fds + slotsFds kd later :=
  List.sum_cons

/-- Destroying a database closes all that its tables have open. -/
theorem holds_destroyLoop
    {kd : Db} {idxs : List (Fin (kcnEqTypeMax - 1))}
    (filled : Filled kd idxs) (distinct : idxs.Nodup) :
    Holds (slotsFds kd idxs + held) (destroyLoop kd idxs)
      fun _ => held := by
  induction idxs generalizing kd with
  | nil =>
      exact .pure () (Multiset.zero_add held)
  | cons idx later inductionHypothesis =>
      obtain ⟨outside, distinct⟩ := List.nodup_cons.mp distinct
      unfold destroyLoop
      rw [slotsFds_cons]
      cases filled with
      | null _ _ isNull empty =>
          rw [isNull, empty]
          exact .pure () (by rw [Slot.fds, zero_add, zero_add])
      | table _ kdt _ isTable filled =>
          rw [isTable, Slot.fds, add_assoc]
          apply (holds_tableClose kdt).bind
          intro _
          rw [← slotsFds_update outside .null]
          exact inductionHypothesis (filled.update outside .null) distinct

/-- Destroying a database that `kcndb_db_new` left as it should. -/
theorem holds_destroy
    {kd : Db} (filled : Filled kd (List.finRange (kcnEqTypeMax - 1))) :
    Holds (dbFds (some kd) + held) (destroy (some kd)) fun _ => held :=
  holds_destroyLoop filled (List.nodup_finRange _)

theorem Filled.append
    {kd : Db} {first later : List (Fin (kcnEqTypeMax - 1))}
    (tables : ∀ other ∈ first, ∃ kdt, kd other = .table kdt)
    (rest : Filled kd later) :
    Filled kd (first ++ later) := by
  induction first with
  | nil =>
      exact rest
  | cons other first inductionHypothesis =>
      obtain ⟨kdt, isTable⟩ := tables other List.mem_cons_self
      refine .table other kdt _ isTable (inductionHypothesis ?_)
      exact fun next member =>
        tables next (List.mem_cons_of_mem other member)

/-- The database is complete. -/
def Complete (kd : Db) : Prop :=
  Filled kd (List.finRange (kcnEqTypeMax - 1))

/-- `kcndb_db_new` while it has opened the tables of some types. -/
structure Growing
    (kd : Db) (first later : List (Fin (kcnEqTypeMax - 1))) : Prop where
  whole : first ++ later = List.finRange (kcnEqTypeMax - 1)
  opened : ∀ idx ∈ first, ∃ kdt, kd idx = .table kdt
  unset : ∀ idx ∈ later, kd idx = .unset

variable
  {kd : Db} {idx : Fin (kcnEqTypeMax - 1)}
  {first later : List (Fin (kcnEqTypeMax - 1))}

theorem Growing.distinct (growing : Growing kd first (idx :: later)) :
    idx ∉ first ∧ idx ∉ later := by
  have distinct := List.nodup_finRange (kcnEqTypeMax - 1)
  rw [← growing.whole, List.nodup_middle, List.nodup_cons,
    List.mem_append] at distinct
  exact not_or.mp distinct.1

theorem Growing.complete (growing : Growing kd first []) :
    Complete kd := by
  have filled : Filled kd (first ++ []) :=
    .append growing.opened .nil
  rwa [growing.whole] at filled

theorem Growing.next
    (growing : Growing kd first (idx :: later)) (kdt : DbTable) :
    Growing (Function.update kd idx (.table kdt)) (first ++ [idx])
      later := by
  obtain ⟨before, after⟩ := growing.distinct
  refine ⟨?_, ?_, ?_⟩
  · rw [List.append_assoc, ← growing.whole]
    rfl
  · intro other member
    by_cases same : other = idx
    · exact ⟨kdt, by rw [same, Function.update_self]⟩
    · rw [Function.update_of_ne same]
      rcases List.mem_append.mp member with inside | isLast
      · exact growing.opened other inside
      · exact absurd (List.mem_singleton.mp isLast) same
  · intro other member
    have different : other ≠ idx := fun same => after (same ▸ member)
    rw [Function.update_of_ne different]
    exact growing.unset other (List.mem_cons_of_mem idx member)

/-- What is open after one more member of `kd_tables` is assigned. -/
theorem Growing.fds_update
    (growing : Growing kd first (idx :: later)) (slot : Slot) :
    dbFds (some (Function.update kd idx slot)) =
      slot.fds + dbFds (some kd) := by
  obtain ⟨before, after⟩ := growing.distinct
  have split (kd : Db) :
      dbFds (some kd) =
        (kd idx).fds + (slotsFds kd first + slotsFds kd later) := by
    change slotsFds kd (List.finRange (kcnEqTypeMax - 1)) = _
    rw [← growing.whole]
    unfold slotsFds
    rw [List.map_append, List.sum_append, List.map_cons, List.sum_cons,
      add_left_comm]
  rw [split, split, slotsFds_update before, slotsFds_update after,
    Function.update_self, growing.unset idx List.mem_cons_self, Slot.fds,
    zero_add]

/-- A database whose next table cannot be opened can be destroyed. -/
theorem Growing.fails
    (growing : Growing kd first (idx :: later)) :
    Complete (Function.update kd idx .null) := by
  obtain ⟨before, after⟩ := growing.distinct
  unfold Complete
  rw [← growing.whole]
  apply Filled.append
  · intro other member
    have different : other ≠ idx := fun same => before (same ▸ member)
    rw [Function.update_of_ne different]
    exact growing.opened other member
  · refine .null idx later (Function.update_self ..) ?_
    rw [slotsFds_update after]
    apply List.sum_eq_zero
    intro open' member
    obtain ⟨other, isLater, rfl⟩ := List.mem_map.mp member
    rw [growing.unset other (List.mem_cons_of_mem idx isLater)]
    rfl

theorem holds_newLoop (growing : Growing kd first later) :
    Holds (dbFds (some kd) + held) (newLoop kd later)
      fun kd => dbFds kd + held := by
  induction later generalizing kd first with
  | nil =>
      exact .pure (some kd) rfl
  | cons idx later inductionHypothesis =>
      unfold newLoop
      apply holds_tableOpen.bind
      intro kdt
      rw [← add_assoc]
      cases kdt with
      | none =>
          have same := growing.fds_update .null
          apply Moves.bind
          · rw [show optionFds none = Slot.null.fds from rfl, ← same]
            exact holds_destroy growing.fails
          intro _
          exact .pure none (zero_add held).symm
      | some kdt =>
          have same := growing.fds_update (.table kdt)
          rw [show optionFds (some kdt) = (Slot.table kdt).fds from rfl,
            ← same]
          exact inductionHypothesis (growing.next kdt)

/-- A database that is returned is complete. -/
theorem complete_newLoop
    (growing : Growing kd first later) (io : FdIo) :
    wp (newLoop kd later)
      (fun kd _ => ∀ whole, kd = some whole → Complete whole)
      (fun _ => True) io := by
  induction later generalizing kd first io with
  | nil =>
      rintro whole ⟨⟩
      exact growing.complete
  | cons idx later inductionHypothesis =>
      unfold newLoop
      refine wp_seq (wp_of_ok fun _ _ _ => trivial) ?_
      intro kdt io' _
      cases kdt with
      | none =>
          refine wp_seq (wp_of_ok fun _ _ _ => trivial) ?_
          rintro _ _ _ whole ⟨⟩
      | some kdt =>
          exact inductionHypothesis (growing.next kdt) io'

theorem growing_start :
    Growing (fun _ => .unset) [] (List.finRange (kcnEqTypeMax - 1)) where
  whole := rfl
  opened := fun _ member => absurd member List.not_mem_nil
  unset := fun _ _ => rfl

/-- `kcndb_db_new` holds the files of the tables that it returns. -/
theorem holds_new : Holds held new fun kd => dbFds kd + held := by
  have empty : dbFds (some fun _ => .unset) = 0 := by
    apply List.sum_eq_zero
    intro open' member
    obtain ⟨_, _, rfl⟩ := List.mem_map.mp member
    rfl
  unfold new
  apply holds_allocate.bind
  intro ok
  split
  · have opens :
        Holds (dbFds (some fun _ => .unset) + held)
          (newLoop (fun _ => .unset) (List.finRange _))
          fun kd => dbFds kd + held :=
      holds_newLoop growing_start
    rwa [empty, zero_add] at opens
  · exact Moves.bind (.pure () rfl) fun _ =>
      .pure none (zero_add held).symm

theorem complete_new (io : FdIo) :
    wp new (fun kd _ => ∀ whole, kd = some whole → Complete whole)
      (fun _ => True) io := by
  unfold new
  refine wp_seq (wp_of_ok fun _ _ _ => trivial) ?_
  intro ok io' _
  split
  · exact complete_newLoop growing_start io'
  · rintro _ ⟨⟩

end FdDb

/-! ### Sessions and threads -/

namespace KcndbServer

open KcnNet NetCtx

variable {held : Multiset Nat}

/-- A session in which `kcn_net_new` fails early or not at all. -/
theorem wp_netSession
    {deliveries : List NetStep} {fd : Nat}
    {ibuf obuf incoming : List UInt8} {env : Env}
    {answers : List NetAnswer}
    (once : OwnsOnce answers) :
    wp (netSession deliveries fd ibuf obuf)
      (fun _ net => net.closed = [fd])
      Asserted (NetIo.start env answers incoming) := by
  unfold netSession
  rw [wp_bind]
  apply wp_imp (wp_new fd ibuf obuf _ (by decide))
  intro result net made
  cases made with
  | refused env rest answered =>
      simp only [wp_bind, NetIo.socketClose, wp_modify, wp_pure]
      rfl
  | failed _ rest answered ungranted _ =>
      rcases once with unallocated | granted
      · have allocated : answers.head? = some (.malloc true) :=
          congrArg List.head? answered
        rw [allocated] at unallocated
        cases unallocated
      · exact absurd granted ungranted
  | made env rest _ =>
      have known : Open fd (built fd ibuf obuf env rest incoming) :=
        {
          sound_built fd ibuf obuf env rest incoming with
          registers := False.elim
        }
      rw [wp_bind, wp_runOn]
      exact wp_served deliveries known nofun

/-- A session closes the descriptor that it was given. -/
theorem holds_visitSession
    {visit : Visit} (once : OwnsOnce visit.answers) (fd : Nat) :
    Holds (fds (some fd) + held) (visitSession visit fd)
      fun _ => held :=
  holds_onConnection fun _ => wp_netSession once

theorem holds_serveLoop
    {visits : List Visit}
    (once : ∀ visit ∈ visits, OwnsOnce visit.answers) :
    Holds held (serveLoop visits) fun _ => held := by
  induction visits with
  | nil =>
      exact .pure () rfl
  | cons visit later inductionHypothesis =>
      obtain ⟨first, rest⟩ := List.forall_mem_cons.mp once
      unfold serveLoop
      apply KcnSocket.holds_accept.bind
      intro s
      cases s with
      | none =>
          rw [fds, zero_add]
          exact inductionHypothesis rest
      | some fd =>
          apply (holds_visitSession first fd).bind
          intro _
          exact inductionHypothesis rest

/-- A thread that serves holds the files of its database. -/
theorem holds_serverMain
    {visits : List Visit}
    (once : ∀ visit ∈ visits, OwnsOnce visit.answers) :
    Holds held (serverMain visits)
      fun kd => FdDb.dbFds kd + held := by
  have nothing : held = FdDb.dbFds none + held := (zero_add held).symm
  unfold serverMain
  apply holds_allocate.bind
  intro evb
  apply FdDb.holds_new.bind_of FdDb.complete_new
  intro kd complete
  cases kd with
  | none =>
      cases evb with
      | false =>
          exact Moves.bind (.pure () rfl) fun _ =>
            .pure none rfl
      | true =>
          exact Moves.bind (.pure () rfl) fun _ =>
            .pure none rfl
  | some kd =>
      cases evb with
      | false =>
          apply (FdDb.holds_destroy (complete kd rfl)).bind
          intro _
          exact .pure none nothing
      | true =>
          apply (holds_serveLoop once).bind
          intro _
          exact .pure (some kd) rfl

theorem holds_createThreads (missing : Nat) :
    Holds held (createThreads missing) fun _ => held := by
  induction missing with
  | zero =>
      exact .pure true rfl
  | succ missing inductionHypothesis =>
      unfold createThreads
      apply holds_succeeds.bind
      intro ok
      split
      · exact inductionHypothesis
      · exact .pure false rfl

theorem holds_serverStart (ipv6 : Bool) :
    Holds held (serverStart ipv6) fun socket => fds socket + held := by
  have nothing : held = fds none + held := (zero_add held).symm
  have known :
      KcnSockaddr.init ipv6
          (KcnSockaddr.pf2af ipv6 (if ipv6 then afInet6 else afInet)) ≠
        none := by
    cases ipv6 <;> decide
  unfold serverStart
  apply (KcnSocket.holds_listen known).bind
  intro socket
  cases socket with
  | none =>
      apply (KcnSocket.holds_close none).bind
      intro _
      exact .pure none nothing
  | some socket =>
      apply (holds_createThreads _).bind
      intro ok
      split
      · exact .pure (some socket) rfl
      · apply (KcnSocket.holds_close (some socket)).bind
        intro _
        exact .pure none nothing

/-- What a thread leaves open. -/
def Rest.fds (rest : Rest) : Multiset Nat :=
  FdDb.dbFds rest.db + Kcn.fds rest.socket

/-- A thread has open in the end what it still knows of. -/
theorem holds_thread
    {visits : List Visit}
    (once : ∀ visit ∈ visits, OwnsOnce visit.answers)
    (ipv6 : Bool) (k : Fin nworkers) :
    Holds 0 (thread ipv6 visits k) Rest.fds := by
  unfold thread
  split
  · apply (holds_serverStart ipv6).bind
    intro socket
    cases socket with
    | none =>
        exact .pure _ rfl
    | some socket =>
        apply (holds_serverMain once).bind
        intro kd
        exact .pure _ rfl
  · apply (holds_serverMain once).bind
    intro kd
    exact .pure _ rfl

/-- A thread waits, but reads nothing that it has not assigned. -/
theorem thread_waits
    {visits : List Visit}
    (once : ∀ visit ∈ visits, OwnsOnce visit.answers)
    (ipv6 : Bool) (k : Fin nworkers) (answers : List FdReply) :
    wp (thread ipv6 visits k) (fun _ _ => True) FdStop.Waits
      (FdIo.start answers) :=
  wp_imp (holds_thread once ipv6 k _) fun _ _ _ => trivial

/-- What a thread does with descriptors, up to the end of its visits. -/
def ThreadRuns
    (ipv6 : Bool) (visits : List Visit) (k : Fin nworkers)
    (log : List FdOp) (rest : Rest) : Prop :=
  ∃ answers io,
    thread ipv6 visits k (FdIo.start answers) = .ok (rest, io) ∧
      io.log = log

/--
In any interleaving of the threads, where in each session the structure is not
allocated or nothing in `kcn_net_new` fails, a thread only closes descriptors
that it has opened itself, and in the end those that are still open are the
listening socket and the files of the databases of the threads that serve.
-/
theorem closes_own
    {ipv6 : Bool} {visits : Fin nworkers → List Visit}
    {logs : Fin nworkers → List FdOp} {rests : Fin nworkers → Rest}
    {labels : List (Fin nworkers × FdOp)} {s : Fds (Fin nworkers)}
    (once : ∀ k, ∀ visit ∈ visits k, OwnsOnce visit.answers)
    (runs : ∀ k, ThreadRuns ipv6 (visits k) k (logs k) (rests k))
    (run : Run Fds.Step (Fds.start logs) labels s)
    (k : Fin nworkers) :
    (∀ fd ops, s.todo k = .closed fd :: ops → s.owner fd = some k) ∧
      (s.todo k = [] →
        ∀ fd, fd ∈ (rests k).fds ↔ s.owner fd = some k) := by
  have owns (k : Fin nworkers) : Owns 0 (logs k) (rests k).fds := by
    obtain ⟨answers, io, returns, logEq⟩ := runs k
    rw [← logEq]
    exact (holds_thread (once k) ipv6 k).ok rfl returns
  have careful := Fds.careful_run owns run k
  exact ⟨fun _ _ => careful.closes, careful.done⟩

/-! ### Two threads that serve -/

/-- The answers with which a table is opened. -/
def tableAnswers (fd : Nat) : List FdReply :=
  [.allocated true, .allocated true, .allocated true, .opened (.ok fd),
    .allocated true, .allocated true, .opened (.ok (fd + 1)),
    .returned none, .returned none]

/-- The answers with which a thread accepts connections. -/
def acceptAnswers (fd count : Nat) : List FdReply :=
  [.allocated true, .allocated true] ++
    (List.range 7).flatMap (fun i => tableAnswers (fd + 2 * i)) ++
    (List.replicate count
      [.opened (.ok 40), .returned none, .returned none]).flatten

/-- The other threads cannot start. -/
def answersOf (count : Nat) (k : Fin nworkers) : List FdReply :=
  if k.val = 0 then
    [.opened (.error IoError.emfile.errno)]
  else if k.val = 1 then
    acceptAnswers 3 count
  else if k.val = 2 then
    acceptAnswers 17 count
  else
    [.allocated false, .allocated false]

/-- A session with these events, and these answers in `kcn_net_new`. -/
def visitOf
    (deliveries : List NetStep) (answers : List NetAnswer) : Visit where
  deliveries := deliveries
  ibuf := [0]
  obuf := [0]
  answers := answers
  incoming := []

/-- What the threads do if those that serve do this with connections. -/
def logOf (served : List FdOp) (k : Fin nworkers) : List FdOp :=
  let files (fd : Nat) := (List.range 14).map fun i => .opened (fd + i)
  if k.val = 1 then
    files 3 ++ served
  else if k.val = 2 then
    files 17 ++ served
  else
    []

/-- Whether a thread does this. -/
def does
    (visits : List Visit) (served : List FdOp) (k : Fin nworkers) :
    Bool :=
  match
    thread true visits k (FdIo.start (answersOf visits.length k)) with
  | .ok (_, io) => io.log = logOf served k
  | .error _ => false

theorem runs_of_does
    {visits : List Visit} {served : List FdOp}
    (shown : ∀ k, does visits served k = true) :
    ∃ rests : Fin nworkers → Rest, ∀ k,
      ThreadRuns true visits k (logOf served k) (rests k) := by
  have some (k : Fin nworkers) :
      ∃ rest, ThreadRuns true visits k (logOf served k) rest := by
    have shown := shown k
    unfold does at shown
    split at shown
    · rename_i rest io returns
      exact ⟨rest, answersOf visits.length k, io, returns,
        of_decide_eq_true shown⟩
    · cases shown
  exact Classical.skolem.mp some

/-- Two of the threads -/
def firstWorker : Fin nworkers := ⟨1, by decide⟩

def secondWorker : Fin nworkers := ⟨2, by decide⟩

/-- The first worker is about to close what belongs to this thread. -/
def closesOf
    (k : Fin nworkers) (_ : List (Fin nworkers × FdOp))
    (s : Fds (Fin nworkers)) : Bool :=
  s.todo firstWorker == [.closed 40] && s.owner 40 == some k

/-- What a worker is about to close belongs to this thread. -/
theorem next_of_closesOf
    {k : Fin nworkers} {labels : List (Fin nworkers × FdOp)}
    {s : Fds (Fin nworkers)}
    (shown : closesOf k labels s = true) :
    s.todo firstWorker = [.closed 40] ∧ s.owner 40 = some k := by
  obtain ⟨next, owner⟩ := Bool.and_eq_true_iff.mp shown
  exact ⟨beq_iff_eq.mp next, beq_iff_eq.mp owner⟩

/-- A connection whose events time out, and one without memory for it. -/
def twoVisits : List Visit :=
  [visitOf [timesOut, readTimesOut] NetIo.allGranted,
    visitOf [] [.malloc false]]

/-- Both connections are accepted and closed. -/
def twoServed : List FdOp :=
  [.opened 40, .closed 40, .opened 40, .closed 40]

/--
The workers open their files by turns.  The first one serves a connection, the
second one serves both of its own, and the first one accepts another.
-/
def turns : List (Fin nworkers) :=
  (List.replicate 14 [firstWorker, secondWorker]).flatten ++
    List.replicate 2 firstWorker ++ List.replicate 4 secondWorker ++
    [firstWorker]

/-- The first worker closes its second connection, the second one is done. -/
def showsTurns
    (labels : List (Fin nworkers × FdOp)) (s : Fds (Fin nworkers)) :
    Bool :=
  closesOf firstWorker labels s && s.todo secondWorker == []

/-- Two workers that use one number by turns, and what the second leaves. -/
theorem closes_own_two :
    ∃ (rests : Fin nworkers → Rest)
      (labels : List (Fin nworkers × FdOp)) (s : Fds (Fin nworkers)),
      (∀ k, ThreadRuns true twoVisits k (logOf twoServed k) (rests k)) ∧
        Run Fds.Step (Fds.start (logOf twoServed)) labels s ∧
        s.todo firstWorker = [.closed 40] ∧
        s.owner 40 = some firstWorker ∧
        ∀ fd,
          fd ∈ (rests secondWorker).fds ↔
            s.owner fd = some secondWorker := by
  obtain ⟨rests, runs⟩ :=
    runs_of_does
      (show ∀ k, does twoVisits twoServed k = true by decide +kernel)
  obtain ⟨labels, s, run, shown⟩ :=
    Run.of_shown Fds.step_perform
      (show
        (performAll Fds.perform (Fds.start (logOf twoServed)) turns).any
            (fun performed => showsTurns performed.1 performed.2) =
          true
        by decide +kernel)
  have once (_ : Fin nworkers) (visit : Visit)
      (member : visit ∈ twoVisits) : OwnsOnce visit.answers := by
    rcases List.mem_pair.mp member with rfl | rfl
    · exact Or.inr (List.prefix_refl _)
    · exact Or.inl rfl
  obtain ⟨closes, ended⟩ := Bool.and_eq_true_iff.mp shown
  have next := (next_of_closesOf closes).1
  have own := (closes_own once runs run firstWorker).1 40 [] next
  have left :=
    (closes_own once runs run secondWorker).2 (beq_iff_eq.mp ended)
  exact ⟨rests, labels, s, runs, run, next, own, left⟩

/-- A session for which the last event cannot be registered. -/
def lateFailure : List Visit :=
  [visitOf []
    [.malloc true, .malloc true, .malloc true, .eventAdd none,
      .eventAdd none, .eventAdd (some .enomem)]]

/-- The connection is closed twice. -/
def servedTwice : List FdOp :=
  [.opened 40, .closed 40, .closed 40]

/--
When `kcn_net_new` fails late, a worker closes its connection twice, and the
second time it can be that of another worker.
-/
theorem closes_foreign :
    ∃ (rests : Fin nworkers → Rest)
      (labels : List (Fin nworkers × FdOp)) (s : Fds (Fin nworkers)),
      (∀ k,
        ThreadRuns true lateFailure k (logOf servedTwice k) (rests k)) ∧
        Run Fds.Step (Fds.start (logOf servedTwice)) labels s ∧
        s.todo firstWorker = [.closed 40] ∧
        s.owner 40 = some secondWorker := by
  obtain ⟨rests, runs⟩ :=
    runs_of_does
      (show ∀ k, does lateFailure servedTwice k = true by
        decide +kernel)
  obtain ⟨labels, s, run, shown⟩ :=
    Run.of_shown Fds.step_perform
      (show
        (performAll Fds.perform (Fds.start (logOf servedTwice))
          (List.replicate 16 firstWorker ++
            List.replicate 15 secondWorker)).any
            (fun performed =>
              closesOf secondWorker performed.1 performed.2) = true
        by decide +kernel)
  obtain ⟨next, owner⟩ := next_of_closesOf shown
  exact ⟨rests, labels, s, runs, run, next, owner⟩

end KcndbServer

end Kcn
