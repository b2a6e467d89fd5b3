import Kcn.Netstat
import Kcn.Numeral

namespace Kcn

open Words KcnDb KcnNetstat

/-!
# Routing of queries

The matcher looks for words in the whole string and the compiler for spellings
in the first keywords: they agree but for one type.
-/

/-! ### Words in keywords -/

/-- One of the words of the matcher is in the keyword. -/
def Mentions (key : List UInt8) : Prop :=
  ∃ word ∈ matchWords, strcasestr key (ascii word) = true

/-- The words of the matcher are letters. -/
theorem matchWords_letters :
    ∀ word ∈ matchWords,
      lower (ascii word) ≠ [] ∧
        ∀ c ∈ lower (ascii word), 0x61 ≤ c ∧ c ≤ 0x7a := by
  have letters : ∀ word ∈ matchWords,
      lower (ascii word) ≠ [] ∧
        (lower (ascii word)).all
          (fun c => decide (0x61 ≤ c ∧ c ≤ 0x7a)) = true := by
    decide
  simpa only [List.all_eq_true, decide_eq_true_eq] using letters

/-- A letter is no separator. -/
theorem separates_of_le {c : UInt8} (above : 0x41 ≤ c) :
    separates c = false := by
  simp [separates, UInt8.le_iff_toNat_le, ← UInt8.toNat_inj] at above ⊢
  omega

theorem separates_tolower (c : UInt8) :
    separates (tolower c) = separates c := by
  unfold tolower
  split
  · rename_i upper
    have sum := UInt8.toNat_add c 0x20
    have above : 0x41 ≤ c + 0x20 := by
      rw [UInt8.le_iff_toNat_le] at upper ⊢
      simp [UInt8.le_iff_toNat_le] at upper sum ⊢
      omega
    rw [separates_of_le above, separates_of_le upper.1]
  · rfl

/-- Words are found in the string where they are found in a keyword. -/
theorem strcasestr_split
    {word : String} (known : word ∈ matchWords) (s : List UInt8) :
    strcasestr s (ascii word) = true ↔
      ∃ key ∈ kcnKeySplit s, strcasestr key (ascii word) = true := by
  obtain ⟨nonempty, letters⟩ := matchWords_letters word known
  have isPure : Pure separates (lower (ascii word)) := by
    intro c member
    exact separates_of_le
      (UInt8.le_trans (by decide) (letters c member).1)
  have keys : words separates (lower s) = (kcnKeySplit s).map lower := by
    rw [kcnKeySplit_eq]
    exact words_map separates_tolower s
  rw [strcasestr_iff, infix_iff isPure nonempty, keys]
  simp only [List.mem_map, strcasestr_iff]
  constructor
  · rintro ⟨_, ⟨key, member, rfl⟩, inside⟩
    exact ⟨key, member, inside⟩
  · rintro ⟨key, member, inside⟩
    exact ⟨_, ⟨key, member, rfl⟩, inside⟩

/-- The string matches if one of its keywords mentions a word. -/
theorem netstatMatch_iff (s : List UInt8) :
    (∃ score, 0 < score ∧ netstatMatch s = .ok score) ↔
      ∃ key ∈ kcnKeySplit s, Mentions key := by
  have found :
      (∃ key ∈ kcnKeySplit s, Mentions key) ↔
        ∃ word ∈ matchWords, strcasestr s (ascii word) = true := by
    constructor
    · rintro ⟨key, member, word, known, inside⟩
      exact ⟨word, known,
        (strcasestr_split known s).mpr ⟨key, member, inside⟩⟩
    · rintro ⟨word, known, inside⟩
      obtain ⟨key, member, inside'⟩ :=
        (strcasestr_split known s).mp inside
      exact ⟨key, member, word, known, inside'⟩
  rw [found]
  unfold netstatMatch
  simp only
  constructor
  · rintro ⟨score, positive, matched⟩
    split at matched
    · cases matched
    · rename_i some
      have positive := Nat.pos_of_ne_zero some
      obtain ⟨word, member⟩ := List.exists_mem_of_length_pos positive
      rw [List.mem_filter] at member
      exact ⟨word, member.1, member.2⟩
  · rintro ⟨word, known, inside⟩
    have member :
        word ∈ matchWords.filter fun word => strcasestr s (ascii word) :=
      List.mem_filter.mpr ⟨known, inside⟩
    have positive := List.length_pos_of_mem member
    rw [if_neg (Nat.ne_of_gt positive)]
    exact ⟨_, positive, rfl⟩

/-! ### Keywords that compile -/

/-- A keyword mentions what a keyword that is equal but for case does. -/
theorem mentions_congr
    {key other : List UInt8} (same : lower key = lower other) :
    Mentions key ↔ Mentions other := by
  unfold Mentions
  simp only [strcasestr_iff, same]

instance (key : List UInt8) : Decidable (Mentions key) :=
  inferInstanceAs
    (Decidable (∃ word ∈ matchWords, strcasestr key (ascii word) = true))

theorem ismatch_iff (a : String) (s : List UInt8) :
    ismatch a s = true ↔ lower (ascii a) = lower s :=
  strncasecmpEq_iff _ _

/-- A name of a type mentions a word, unless it is `rtt`. -/
theorem mentions_type
    {key : List UInt8} {type : Nat}
    (compiles : kcnEqTypeAton key = some type) :
    Mentions key ↔ lower key ≠ ascii "rtt" := by
  have byName (a : String) (isA : lower (ascii a) = lower key)
      (fact : Mentions (ascii a) ↔ lower (ascii a) ≠ ascii "rtt") :
      Mentions key ↔ lower key ≠ ascii "rtt" := by
    rw [← mentions_congr isA, ← isA]
    exact fact
  unfold kcnEqTypeAton at compiles
  simp only [ismatch_iff] at compiles
  split at compiles
  · rename_i name
    rcases name with isA | isA
    · exact byName _ isA (by decide)
    · exact byName _ isA (by decide)
  · split at compiles
    · rename_i name
      rcases name with isA | isA
      · exact byName _ isA (by decide)
      · exact byName _ isA (by decide)
    · split at compiles
      · rename_i isA
        exact byName _ isA (by decide)
      · split at compiles
        · rename_i isA
          exact byName _ isA (by decide)
        · split at compiles
          · rename_i name
            rcases name with isA | isA
            · exact byName _ isA (by decide)
            · exact byName _ isA (by decide)
          · split at compiles
            · rename_i isA
              exact byName _ isA (by decide)
            · split at compiles
              · rename_i isA
                exact byName _ isA (by decide)
              · cases compiles

/-- The operators that are spelled with letters. -/
def letterOperators : List String :=
  ["lt", "le", "eq", "gt", "ge"]

/-- An operator mentions a word if it is spelled with letters. -/
theorem mentions_operator
    {w : List UInt8} {op : Nat}
    (compiles : kcnEqOperatorAton w = some op) :
    Mentions w ↔ lower w ∈ letterOperators.map ascii := by
  have byName (a : String) (isA : lower (ascii a) = lower w)
      (fact :
        Mentions (ascii a) ↔
          lower (ascii a) ∈ letterOperators.map ascii) :
      Mentions w ↔ lower w ∈ letterOperators.map ascii := by
    rw [← mentions_congr isA, ← isA]
    exact fact
  unfold kcnEqOperatorAton at compiles
  simp only [strcasecmpEq_iff] at compiles
  split at compiles
  · rename_i name
    rcases name with isA | isA
    · exact byName _ isA (by decide)
    · exact byName _ isA (by decide)
  · split at compiles
    · rename_i name
      rcases name with isA | isA
      · exact byName _ isA (by decide)
      · exact byName _ isA (by decide)
    · split at compiles
      · rename_i name
        rcases name with isA | isA | isA
        · exact byName _ isA (by decide)
        · exact byName _ isA (by decide)
        · exact byName _ isA (by decide)
      · split at compiles
        · rename_i name
          rcases name with isA | isA
          · exact byName _ isA (by decide)
          · exact byName _ isA (by decide)
        · split at compiles
          · rename_i name
            rcases name with isA | isA
            · exact byName _ isA (by decide)
            · exact byName _ isA (by decide)
          · cases compiles

/-- A numeral has no letters. -/
theorem numeral_letters
    {w : List UInt8} {value : Int} (numeral : Numeral w value) :
    ∀ c ∈ w, ¬ (0x61 ≤ tolower c ∧ tolower c ≤ 0x7a) := by
  have small {c : UInt8} (below : c ≤ 0x40) :
      ¬ (0x61 ≤ tolower c ∧ tolower c ≤ 0x7a) := by
    have same : tolower c = c := by
      unfold tolower
      rw [if_neg]
      rw [UInt8.le_iff_toNat_le] at below
      simp [UInt8.le_iff_toNat_le] at below ⊢
      omega
    rw [same]
    simp [UInt8.le_iff_toNat_le] at below ⊢
    omega
  cases numeral with
  | @intro blanks sign digits _ areBlanks signed areDigits =>
      intro c member
      apply small
      rcases List.mem_append.mp member with blank | later
      · have space := areBlanks c blank
        simp [isspace, UInt8.le_iff_toNat_le, ← UInt8.toNat_inj] at space ⊢
        omega
      · rcases List.mem_append.mp later with isSign | digit
        · cases signed with
          | bare =>
              cases isSign
          | plus | minus =>
              rw [List.mem_singleton] at isSign
              subst isSign
              decide
        · have isDigit := areDigits.all c digit
          simp [isdigit, UInt8.le_iff_toNat_le] at isDigit ⊢
          omega

/-- A value mentions no word. -/
theorem mentions_value
    {w : List UInt8} {val : UInt64}
    (compiles : kcnEqValAton w = some val) :
    ¬ Mentions w := by
  have numeral : ∃ value, Numeral w value := by
    by_contra none
    unfold kcnEqValAton at compiles
    rw [kcnStrtoull_other (not_exists.mp none)] at compiles
    cases compiles
  obtain ⟨value, numeral⟩ := numeral
  rintro ⟨word, known, inside⟩
  obtain ⟨nonempty, letters⟩ := matchWords_letters word known
  obtain ⟨c, member⟩ := List.exists_mem_of_ne_nil _ nonempty
  have inKey :=
    ((strcasestr_iff w (ascii word)).mp inside).subset member
  obtain ⟨d, member', rfl⟩ := List.mem_map.mp inKey
  exact numeral_letters numeral d member' (letters _ member)

/-! ### Selection -/

/-- The databases of `key2loc`, in the order in which it registers them. -/
def databases : List KcnDb :=
  register kcnGoogle (register kcnNetstat [])

/-- The order of the registrations does not matter. -/
theorem databases_eq :
    databases = register kcnNetstat (register kcnGoogle []) :=
  rfl

/-- The network statistics are selected where they match. -/
theorem select_iff (s : List UInt8) :
    select databases none s = .ok kcnNetstat ↔
      ∃ score, 0 < score ∧ netstatMatch s = .ok score := by
  have list : databases = [kcnNetstat, kcnGoogle] := rfl
  have differs : kcnGoogle ≠ kcnNetstat := by
    intro same
    have prios := congrArg KcnDb.kdPrio same
    revert prios
    decide
  have outcome :
      netstatMatch s = .error 0 ∨
        ∃ score, 0 < score ∧ netstatMatch s = .ok score := by
    unfold netstatMatch
    simp only
    split
    · exact Or.inl rfl
    · rename_i some
      exact Or.inr ⟨_, Nat.pos_of_ne_zero some, rfl⟩
  rcases outcome with declines | ⟨score, positive, matched⟩
  · have google : select databases none s = .ok kcnGoogle := by
      simp [select, list, dbMatch, matchLoop, kcnNetstat, kcnGoogle,
        declines, googleMatch]
    rw [google, declines]
    constructor
    · intro same
      exact absurd (Except.ok.inj same) differs
    · rintro ⟨_, _, matched⟩
      cases matched
  · have net : select databases none s = .ok kcnNetstat := by
      simp [select, list, dbMatch, matchLoop, kcnNetstat, kcnGoogle,
        matched, googleMatch]
    exact ⟨fun _ => ⟨score, positive, matched⟩, fun _ => net⟩

/-- The string matches with a positive score, and its database is selected. -/
def Routed (s : List UInt8) : Prop :=
  (∃ score, 0 < score ∧ netstatMatch s = .ok score) ∧
    select databases none s = .ok kcnNetstat

/--
The type is not `rtt`, or the operator is spelled with letters, or a keyword
behind the value mentions a word.
-/
def Findable : List (List UInt8) → Prop
  | key :: operator :: _ :: more =>
      lower key ≠ ascii "rtt" ∨
        lower operator ∈ letterOperators.map ascii ∨
        ∃ other ∈ more, Mentions other
  | _ => False

/--
A string that the compiler accepts is routed to the network statistics if and
only if it does not ask for the round trip time by symbols alone.
-/
theorem query_routing
    {s : List UInt8} {now : Option Int64} {ke : KcnEq}
    (accepts : (netstatCompile (kcnKeySplit s) now ke).1 = true) :
    Routed s ↔ Findable (kcnKeySplit s) := by
  unfold Routed
  rw [select_iff, and_self, netstatMatch_iff]
  generalize kcnKeySplit s = keyv at accepts
  match keyv with
  | [] | [_] | [_, _] =>
      cases accepts
  | key :: operator :: value :: more =>
      unfold netstatCompile at accepts
      simp only at accepts
      split at accepts
      · cases accepts
      · rename_i type isType
        split at accepts
        · cases accepts
        · rename_i op isOp
          split at accepts
          · cases accepts
          · rename_i val isVal
            have findable :
                Findable (key :: operator :: value :: more) ↔
                  lower key ≠ ascii "rtt" ∨
                    lower operator ∈ letterOperators.map ascii ∨
                    ∃ other ∈ more, Mentions other :=
              Iff.rfl
            rw [findable, ← mentions_type isType, ← mentions_operator isOp]
            have noValue := mentions_value isVal
            simp only [List.mem_cons, exists_eq_or_imp, noValue,
              false_or]

/-- The query `cpu > 5` is routed. -/
theorem query_routing_cpu :
    Routed (ascii "cpu > 5") ↔ Findable (kcnKeySplit (ascii "cpu > 5")) :=
  query_routing
    (show (netstatCompile (kcnKeySplit (ascii "cpu > 5")) (some 1000)
      { keType := 0, keOp := 0, keVal := 0, keStart := 0, keEnd := 0 }).1 =
        true by decide)

/-- The query `rtt < 5` compiles, and goes to the Web search. -/
theorem rtt_not_routed :
    (netstatCompile (kcnKeySplit (ascii "rtt < 5")) (some 1000)
      { keType := 0, keOp := 0, keVal := 0, keStart := 0, keEnd := 0 }).1 =
        true ∧
      netstatMatch (ascii "rtt < 5") = .error 0 ∧
      select databases none (ascii "rtt < 5") = .ok kcnGoogle ∧
      ¬ Routed (ascii "rtt < 5") := by
  have declines : netstatMatch (ascii "rtt < 5") = .error 0 := by decide
  refine ⟨by decide, declines, rfl, ?_⟩
  rintro ⟨⟨score, _, matched⟩, _⟩
  rw [declines] at matched
  cases matched

end Kcn
