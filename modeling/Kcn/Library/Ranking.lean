import Mathlib.Data.List.Sort
import Mathlib.Data.List.MinMax

/-!
# Lists in the order of a rank

Elements that are inserted in front of the first one of a lower rank stay in the
order of their ranks, and those of one rank in the order of their arrival.  A
scan that replaces its candidate by better ones only finds the first best one.
-/

namespace Ranking

variable {α β : Type} [LinearOrder β]

/-- The rank is higher. -/
def Above (rank : α → β) (a b : α) : Prop :=
  rank b < rank a

instance (rank : α → β) : DecidableRel (Above rank) :=
  fun a b => inferInstanceAs (Decidable (rank b < rank a))

/-- The element has this rank. -/
def ofRank (rank : α → β) (r : β) (a : α) : Bool :=
  decide (rank a = r)

/-- Put an element in front of the first one of a lower rank. -/
def insert (rank : α → β) (a : α) (l : List α) : List α :=
  l.orderedInsert (Above rank) a

theorem insert_cons (rank : α → β) (a b : α) (l : List α) :
    insert rank a (b :: l) =
      if rank b < rank a then a :: b :: l else b :: insert rank a l :=
  List.orderedInsert_cons (Above rank) a b l

/--
The elements are those that arrived, in the order of their ranks, and in the
order of their arrival where the ranks are equal.
-/
structure Stable (rank : α → β) (arrived l : List α) : Prop where
  ordered : l.Pairwise fun a b => rank b ≤ rank a
  same : ∀ r,
    l.filter (ofRank rank r) = arrived.filter (ofRank rank r)

namespace Stable

variable {rank : α → β} {arrived l : List α}

theorem nil : Stable rank ([] : List α) [] :=
  ⟨List.Pairwise.nil, fun _ => rfl⟩

/-- The elements are those that arrived. -/
theorem perm [DecidableEq α] (stable : Stable rank arrived l) :
    l.Perm arrived := by
  rw [List.perm_iff_count]
  intro a
  have here : ofRank rank (rank a) a = true := decide_eq_true rfl
  have count := congrArg (List.count a) (stable.same (rank a))
  rwa [List.count_filter here, List.count_filter here] at count

theorem ordered_insert
    (ordered : l.Pairwise fun a b => rank b ≤ rank a) (a : α) :
    (insert rank a l).Pairwise fun a b => rank b ≤ rank a := by
  induction l with
  | nil =>
      exact List.pairwise_singleton _ a
  | cons first later inductionHypothesis =>
      rw [List.pairwise_cons] at ordered
      rw [insert_cons]
      split
      · rename_i above
        have lower : rank first ≤ rank a := le_of_lt above
        refine List.pairwise_cons.mpr ⟨?_, List.pairwise_cons.mpr ordered⟩
        intro b member
        rcases List.mem_cons.mp member with rfl | inside
        · exact lower
        · exact (ordered.1 b inside).trans lower
      · rename_i notAbove
        have higher : rank a ≤ rank first := not_lt.mp notAbove
        refine List.pairwise_cons.mpr
          ⟨?_, inductionHypothesis ordered.2⟩
        intro b member
        rcases (List.mem_orderedInsert _).mp member with rfl | inside
        · exact higher
        · exact ordered.1 b inside

/-- Behind an element of a lower rank all have lower ranks. -/
theorem filter_lower
    {r : β} (lower : ∀ a ∈ l, rank a < r) :
    l.filter (ofRank rank r) = [] := by
  rw [List.filter_eq_nil_iff]
  intro a member
  rw [ofRank, decide_eq_true_eq]
  exact ne_of_lt (lower a member)

/-- An inserted element comes last among those of its rank. -/
theorem filter_insert
    (ordered : l.Pairwise fun a b => rank b ≤ rank a) (a : α) (r : β) :
    (insert rank a l).filter (ofRank rank r) =
      l.filter (ofRank rank r) ++ [a].filter (ofRank rank r) := by
  induction l with
  | nil =>
      rfl
  | cons first later inductionHypothesis =>
      rw [List.pairwise_cons] at ordered
      rw [insert_cons]
      split
      · rename_i above
        by_cases here : rank a = r
        · have lower : ∀ b ∈ first :: later, rank b < r := by
            intro b member
            rw [← here]
            rcases List.mem_cons.mp member with rfl | inside
            · exact above
            · exact lt_of_le_of_lt (ordered.1 b inside) above
          have shown : ofRank rank r a = true := decide_eq_true here
          rw [List.filter_cons_of_pos shown, filter_lower lower,
            List.filter_cons_of_pos shown]
          rfl
        · have hidden : ¬ ofRank rank r a = true :=
            fun shown => here (of_decide_eq_true shown)
          rw [List.filter_cons_of_neg hidden,
            List.filter_cons_of_neg hidden]
          exact (List.append_nil _).symm
      · have rest := inductionHypothesis ordered.2
        by_cases here : rank first = r
        · have shown : ofRank rank r first = true :=
            decide_eq_true here
          rw [List.filter_cons_of_pos shown,
            List.filter_cons_of_pos shown, rest, List.cons_append]
        · have hidden : ¬ ofRank rank r first = true :=
            fun shown => here (of_decide_eq_true shown)
          rw [List.filter_cons_of_neg hidden,
            List.filter_cons_of_neg hidden, rest]

/-- An element arrives. -/
theorem insert
    (stable : Stable rank arrived l) (a : α) :
    Stable rank (arrived ++ [a]) (Ranking.insert rank a l) := by
  refine ⟨ordered_insert stable.ordered a, ?_⟩
  intro r
  rw [filter_insert stable.ordered, stable.same, List.filter_append]

/-- An element leaves. -/
theorem erase [DecidableEq α]
    (stable : Stable rank arrived l) (a : α) :
    Stable rank (arrived.erase a) (l.erase a) := by
  refine ⟨stable.ordered.sublist List.erase_sublist, ?_⟩
  intro r
  rw [← List.erase_filter, stable.same, List.erase_filter]

end Stable

/-- The first one of those with the highest score. -/
def FirstBest
    (score : α → Option β) (l : List α) (a : α) (s : β) : Prop :=
  ∃ before after,
    l = before ++ a :: after ∧ score a = some s ∧
      (∀ b ∈ before, ∀ t, score b = some t → t < s) ∧
      ∀ b ∈ after, ∀ t, score b = some t → t ≤ s

/-- A scan with the best one so far, and its score. -/
def best (score : α → Option β) : List α → Option (α × β) → Option (α × β)
  | [], found => found
  | a :: later, found =>
      match score a with
      | none => best score later found
      | some s =>
          match found with
          | none => best score later (some (a, s))
          | some (_, t) =>
              if t < s then
                best score later (some (a, s))
              else
                best score later found

/-- What a scan has found in the elements that it has seen. -/
def Found (score : α → Option β) (seen : List α) : Option (α × β) → Prop
  | none => ∀ a ∈ seen, score a = none
  | some (a, s) => FirstBest score seen a s

variable {score : α → Option β} {seen : List α} {a b : α} {s t : β}

theorem FirstBest.mem (found : FirstBest score seen a s) :
    a ∈ seen ∧ score a = some s := by
  obtain ⟨before, after, rfl, scored, _⟩ := found
  exact ⟨List.mem_append_right _ List.mem_cons_self, scored⟩

/-- All scores are at most the best one. -/
theorem FirstBest.le
    (found : FirstBest score seen a s) (member : b ∈ seen)
    (scored : score b = some t) : t ≤ s := by
  obtain ⟨before, after, rfl, here, lower, atMost⟩ := found
  rcases List.mem_append.mp member with early | late
  · exact le_of_lt (lower b early t scored)
  · rcases List.mem_cons.mp late with rfl | inside
    · rw [here] at scored
      exact le_of_eq (Option.some.inj scored).symm
    · exact atMost b inside t scored

/-- One more element that is no better. -/
theorem FirstBest.keep
    (found : FirstBest score seen a s)
    (noBetter : ∀ t, score b = some t → t ≤ s) :
    FirstBest score (seen ++ [b]) a s := by
  obtain ⟨before, after, rfl, here, lower, atMost⟩ := found
  refine ⟨before, after ++ [b], by simp, here, lower, ?_⟩
  intro c member
  rcases List.mem_append.mp member with early | last
  · exact atMost c early
  · rw [List.mem_singleton] at last
    subst last
    exact noBetter

/-- One more element that is better than all. -/
theorem FirstBest.replace
    (scored : score b = some t)
    (better : ∀ a ∈ seen, ∀ s, score a = some s → s < t) :
    FirstBest score (seen ++ [b]) b t :=
  ⟨seen, [], rfl, scored, better, nofun⟩

theorem found_nil (score : α → Option β) : Found score [] none :=
  fun _ member => by cases member

/-- A scan finds the first best one. -/
theorem found_best
    {found : Option (α × β)} (known : Found score seen found)
    (l : List α) : Found score (seen ++ l) (best score l found) := by
  induction l generalizing seen found with
  | nil =>
      rw [List.append_nil]
      exact known
  | cons b later inductionHypothesis =>
      have next {found : Option (α × β)}
          (known : Found score (seen ++ [b]) found) :
          Found score (seen ++ b :: later) (best score later found) := by
        have whole := inductionHypothesis known
        rwa [List.append_assoc] at whole
      rw [best]
      cases scored : score b with
      | none =>
          apply next
          cases found with
          | none =>
              intro a member
              rcases List.mem_append.mp member with early | last
              · exact known a early
              · rw [List.mem_singleton] at last
                subst last
                exact scored
          | some candidate =>
              refine FirstBest.keep known ?_
              intro t some
              rw [scored] at some
              cases some
      | some t =>
          cases found with
          | none =>
              apply next
              refine FirstBest.replace scored ?_
              intro a member s some
              rw [known a member] at some
              cases some
          | some candidate =>
              obtain ⟨a, s⟩ := candidate
              simp only
              split
              · rename_i better
                apply next
                refine FirstBest.replace scored ?_
                intro c member r some
                exact lt_of_le_of_lt (FirstBest.le known member some) better
              · rename_i noBetter
                apply next
                refine FirstBest.keep known ?_
                intro r some
                rw [scored] at some
                rw [← Option.some.inj some]
                exact not_lt.mp noBetter

end Ranking
