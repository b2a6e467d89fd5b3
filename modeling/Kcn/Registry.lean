import Kcn.Library.Ranking
import Kcn.Library.Run
import Kcn.Netstat

namespace Kcn

open Ranking KcnNetstat

/-!
# The registry of databases

`kcn_db_list` holds pointers to databases: `dbs` is what they point to.  Any
sequence of registrations keeps the list in the order of the priorities, and
the first one of the databases with the highest score is selected.
-/

namespace KcnDb

variable {ι : Type} [DecidableEq ι] (dbs : ι → KcnDb)

/-- `kcn_db_register`; none where the assertion fails. -/
def registerAt (kdn : ι) : List ι → Option (List ι)
  | [] => some [kdn]
  | kd :: later =>
      if kd = kdn then
        none
      else if (dbs kd).kdPrio < (dbs kdn).kdPrio then
        some (kdn :: kd :: later)
      else
        (registerAt kdn later).map (kd :: ·)

/-- `kcn_db_deregister`; only what is in the list can be removed. -/
def deregisterAt (kd : ι) (list : List ι) : Option (List ι) :=
  if kd ∈ list then some (list.erase kd) else none

/-- The loop of `kcn_db_match`, with the best database so far. -/
def matchLoopAt (keys : List UInt8) :
    List ι → Option (ι × Nat) → Except Errno (Option ι)
  | [], best => .ok (best.map Prod.fst)
  | kd :: later, best =>
      match (dbs kd).kdMatch keys with
      | .error errno =>
          if errno ≠ 0 then
            .error Errno.einval
          else
            matchLoopAt keys later best
      | .ok score =>
          match best with
          | none => matchLoopAt keys later (some (kd, score))
          | some (_, scorematch) =>
              if score > scorematch then
                matchLoopAt keys later (some (kd, score))
              else
                matchLoopAt keys later best

/-- `kcn_db_match`, with the `errno` where it returns NULL. -/
def dbMatchAt (list : List ι) (keys : List UInt8) : Except Errno ι :=
  match matchLoopAt dbs keys list none with
  | .error errno => .error errno
  | .ok none => .error Errno.eprotonosupport
  | .ok (some kd) => .ok kd

/-! ### Registrations -/

variable {dbs}

/-- A database that is not in the list is put at its place. -/
theorem registerAt_eq {kdn : ι} {list : List ι} (fresh : kdn ∉ list) :
    registerAt dbs kdn list =
      some (Ranking.insert (fun kd => (dbs kd).kdPrio) kdn list) := by
  induction list with
  | nil =>
      rfl
  | cons kd later inductionHypothesis =>
      have differs : kd ≠ kdn :=
        fun same => fresh (same ▸ List.mem_cons_self)
      have others : kdn ∉ later :=
        fun inside => fresh (List.mem_cons_of_mem _ inside)
      rw [registerAt, if_neg differs, inductionHypothesis others,
        insert_cons]
      split
      · rfl
      · rfl

/-- The list of what the pointers point to. -/
theorem registerAt_map {kdn : ι} {list : List ι} (fresh : kdn ∉ list) :
    (registerAt dbs kdn list).map (List.map dbs) =
      some (register (dbs kdn) (list.map dbs)) := by
  induction list with
  | nil =>
      rfl
  | cons kd later inductionHypothesis =>
      have differs : kd ≠ kdn :=
        fun same => fresh (same ▸ List.mem_cons_self)
      have others : kdn ∉ later :=
        fun inside => fresh (List.mem_cons_of_mem _ inside)
      have rest := inductionHypothesis others
      rw [registerAt, if_neg differs, List.map_cons, register]
      split
      · rfl
      · cases shape : registerAt dbs kdn later with
        | none =>
            rw [shape] at rest
            cases rest
        | some list' =>
            rw [shape] at rest
            rw [← Option.some.inj rest]
            rfl

/-- A call that changes the registry. -/
inductive RegistryOp (ι : Type) where
  | register (kd : ι)
  | deregister (kd : ι)
  deriving Repr, DecidableEq

/-- The databases that are registered, in the order of their registrations. -/
def RegistryOp.apply (arrived : List ι) : RegistryOp ι → List ι
  | .register kd => arrived ++ [kd]
  | .deregister kd => arrived.erase kd

/-- The databases that some calls leave registered. -/
def registered (ops : List (RegistryOp ι)) : List ι :=
  ops.foldl RegistryOp.apply []

theorem registered_snoc (ops : List (RegistryOp ι)) (op : RegistryOp ι) :
    registered (ops ++ [op]) = op.apply (registered ops) := by
  rw [registered, List.foldl_append]
  rfl

/--
A call on a registry: databases are registered while they are not, and
deregistered while they are.
-/
inductive Registers (dbs : ι → KcnDb) (list : List ι) :
    RegistryOp ι → List ι → Prop where
  | register (kd : ι) (list' : List ι) :
      kd ∉ list →
      registerAt dbs kd list = some list' →
      Registers dbs list (.register kd) list'
  | deregister (kd : ι) (list' : List ι) :
      deregisterAt kd list = some list' →
      Registers dbs list (.deregister kd) list'

/-- The list holds the registered databases, ranked by their priorities. -/
structure Ranked (dbs : ι → KcnDb) (arrived list : List ι) : Prop where
  stable : Stable (fun kd => (dbs kd).kdPrio) arrived list
  distinct : arrived.Nodup

omit [DecidableEq ι] in
theorem Ranked.nil : Ranked dbs [] [] :=
  ⟨Stable.nil, List.nodup_nil⟩

/-- What is in the list is registered. -/
theorem Ranked.mem_iff
    {arrived list : List ι} (ranked : Ranked dbs arrived list) (kd : ι) :
    kd ∈ list ↔ kd ∈ arrived :=
  ranked.stable.perm.mem_iff

/-- Each call keeps the list ranked. -/
theorem Ranked.step
    {arrived list list' : List ι} {op : RegistryOp ι}
    (ranked : Ranked dbs arrived list)
    (step : Registers dbs list op list') :
    Ranked dbs (op.apply arrived) list' := by
  cases step with
  | register kd _ fresh returns =>
      rw [registerAt_eq fresh] at returns
      rw [← Option.some.inj returns]
      refine ⟨ranked.stable.insert kd, ?_⟩
      have new : kd ∉ arrived :=
        fun inside => fresh ((ranked.mem_iff kd).mpr inside)
      have all := ranked.distinct.concat new
      rwa [List.concat_eq_append] at all
  | deregister kd _ returns =>
      unfold deregisterAt at returns
      split at returns
      · rw [← Option.some.inj returns]
        exact ⟨ranked.stable.erase kd, ranked.distinct.erase kd⟩
      · cases returns

/-- All calls do. -/
theorem Ranked.run
    {ops : List (RegistryOp ι)} {list : List ι}
    (run : Run (Registers dbs) [] ops list) :
    Ranked dbs (registered ops) list := by
  refine @Run.invariant _ _ _ [] (fun ops list =>
    Ranked dbs (registered ops) list) Ranked.nil ?_ ops list run
  intro ops list op list' ranked step
  rw [registered_snoc]
  exact ranked.step step

/-! ### Selection -/

/-- The score of a database, if it matches. -/
def scoreAt (dbs : ι → KcnDb) (keys : List UInt8) (kd : ι) : Option Nat :=
  match (dbs kd).kdMatch keys with
  | .ok score => some score
  | .error _ => none

/-- Databases that do not match set no error. -/
def Declines
    (dbs : ι → KcnDb) (keys : List UInt8) (list : List ι) : Prop :=
  ∀ kd ∈ list, ∀ errno,
    (dbs kd).kdMatch keys = .error errno → errno = 0

omit [DecidableEq ι] in
/-- The loop is a scan for the best score. -/
theorem matchLoopAt_eq
    {keys : List UInt8} {list : List ι}
    (declines : Declines dbs keys list) (found : Option (ι × Nat)) :
    matchLoopAt dbs keys list found =
      .ok ((best (scoreAt dbs keys) list found).map Prod.fst) := by
  induction list generalizing found with
  | nil =>
      rfl
  | cons kd later inductionHypothesis =>
      have others : Declines dbs keys later :=
        fun other member => declines other (List.mem_cons_of_mem _ member)
      have rest := inductionHypothesis others
      rw [matchLoopAt, best]
      cases answer : (dbs kd).kdMatch keys with
      | error errno =>
          have zero := declines kd List.mem_cons_self errno answer
          have score : scoreAt dbs keys kd = none := by
            simp [scoreAt, answer]
          subst zero
          simp only [score, ne_eq, not_true_eq_false, ↓reduceIte]
          exact rest found
      | ok s =>
          have score : scoreAt dbs keys kd = some s := by
            simp [scoreAt, answer]
          simp only [score]
          cases found with
          | none =>
              exact rest _
          | some candidate =>
              simp only [gt_iff_lt]
              split
              · exact rest _
              · exact rest _

omit [DecidableEq ι] in
/-- The loop selects what the loop over the databases themselves selects. -/
theorem matchLoopAt_map
    (keys : List UInt8) (list : List ι) (found : Option (ι × Nat)) :
    (matchLoopAt dbs keys list found).map (Option.map dbs) =
      matchLoop keys (list.map dbs)
        (found.map fun candidate => (dbs candidate.1, candidate.2)) := by
  induction list generalizing found with
  | nil =>
      cases found <;> rfl
  | cons kd later inductionHypothesis =>
      rw [matchLoopAt, List.map_cons, matchLoop]
      cases (dbs kd).kdMatch keys with
      | error errno =>
          simp only
          split
          · rfl
          · exact inductionHypothesis found
      | ok score =>
          cases found with
          | none =>
              exact inductionHypothesis _
          | some candidate =>
              simp only [Option.map_some]
              split
              · exact inductionHypothesis _
              · exact inductionHypothesis _

omit [DecidableEq ι] in
theorem dbMatchAt_map (list : List ι) (keys : List UInt8) :
    (dbMatchAt dbs list keys).map dbs = dbMatch (list.map dbs) keys := by
  have loop := @matchLoopAt_map ι dbs keys list none
  unfold dbMatchAt dbMatch
  rw [← show _ = matchLoop keys (list.map dbs) none from loop]
  rcases matchLoopAt dbs keys list none with errno | _ | kd
  · rfl
  · rfl
  · rfl

/--
After any registrations the list is in the order of the priorities, and of the
registrations where these are equal, and holds what is registered; the first one
of the databases with the highest score is selected, or none if none matches.
-/
theorem registry_selects
    {ops : List (RegistryOp ι)} {list : List ι}
    (run : Run (Registers dbs) [] ops list) :
    (list.Pairwise fun kd kd' => (dbs kd').kdPrio ≤ (dbs kd).kdPrio) ∧
      list.Perm (registered ops) ∧
      (∀ prio,
        list.filter (ofRank (fun kd => (dbs kd).kdPrio) prio) =
          (registered ops).filter
            (ofRank (fun kd => (dbs kd).kdPrio) prio)) ∧
      (∀ kd, kd ∉ registered ops →
        ∃ list', Registers dbs list (.register kd) list') ∧
      (∀ kd ∈ registered ops,
        ∃ list', Registers dbs list (.deregister kd) list') ∧
      ∀ keys, Declines dbs keys list →
        (∀ kd, dbMatchAt dbs list keys = .ok kd →
          ∃ score, FirstBest (scoreAt dbs keys) list kd score) ∧
        ∀ errno, dbMatchAt dbs list keys = .error errno ↔
          errno = Errno.eprotonosupport ∧
            ∀ kd ∈ list, scoreAt dbs keys kd = none := by
  have ranked := Ranked.run run
  refine ⟨ranked.stable.ordered, ranked.stable.perm, ranked.stable.same,
    ?_, ?_, ?_⟩
  · intro kd fresh
    have absent : kd ∉ list :=
      fun inside => fresh ((ranked.mem_iff kd).mp inside)
    exact ⟨_, .register kd _ absent (registerAt_eq absent)⟩
  · intro kd member
    have inside := (ranked.mem_iff kd).mpr member
    exact ⟨_, .deregister kd _ (if_pos inside)⟩
  · intro keys declines
    have loop := matchLoopAt_eq declines none
    have found : Found (scoreAt dbs keys) ([] ++ list)
        (best (scoreAt dbs keys) list none) :=
      found_best (found_nil _) list
    rw [List.nil_append] at found
    unfold dbMatchAt
    rw [loop]
    cases selected : best (scoreAt dbs keys) list none with
    | none =>
        rw [selected] at found
        refine ⟨?_, ?_⟩
        · intro kd returns
          cases returns
        intro errno
        constructor
        · intro returns
          exact ⟨(Except.error.inj returns).symm, found⟩
        · rintro ⟨rfl, _⟩
          rfl
    | some candidate =>
        obtain ⟨kd, score⟩ := candidate
        rw [selected] at found
        constructor
        · intro other returns
          rw [← Except.ok.inj returns]
          exact ⟨score, found⟩
        · intro errno
          constructor
          · intro returns
            cases returns
          · rintro ⟨_, none⟩
            obtain ⟨member, scored⟩ := FirstBest.mem found
            rw [none kd member] at scored
            cases scored

/-- The databases of `key2loc`. -/
def keyDbs (isNet : Bool) : KcnDb :=
  if isNet then kcnNetstat else kcnGoogle

theorem registry_selects_cpu :
    ∃ score,
      FirstBest (scoreAt keyDbs (ascii "cpu")) [true, false] true score := by
  have run : Run (Registers keyDbs) [] [.register false, .register true]
      [true, false] := by
    have first : Registers keyDbs [] (.register false) [false] :=
      .register false _ (by decide) rfl
    have second : Registers keyDbs [false] (.register true) [true, false] :=
      .register true _ (by decide) rfl
    exact (Run.single first).snoc second
  have declines : Declines keyDbs (ascii "cpu") [true, false] := by
    have net : netstatMatch (ascii "cpu") = .ok 1 := by decide
    intro kd _ errno answer
    cases kd with
    | true =>
        rw [show (keyDbs true).kdMatch = netstatMatch from rfl, net]
          at answer
        cases answer
    | false =>
        cases answer
  obtain ⟨_, _, _, _, _, selects⟩ := registry_selects run
  exact (selects _ declines).1 true rfl

end KcnDb

end Kcn
