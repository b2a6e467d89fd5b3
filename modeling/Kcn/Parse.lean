import Kcn.Fields

namespace Kcn

open Program Bytes KcnBuf

/-!
# Any data as a line

What `get64`, `get64` and `getstr` make of any data is a function of the data,
and what they leave of data that is not a complete line.
-/

namespace KcndbctlFile

/-- The word at the head of the data, and what follows its blank. -/
def scan (data : List UInt8) : Except Errno (List UInt8 × List UInt8) :=
  match data.dropWhile isgraph with
  | [] => .error Errno.eagain
  | c :: rest =>
      if isspace c then
        .ok (data.takeWhile isgraph, rest)
      else
        .error Errno.einval

/-- The number at the head of the data. -/
def get64Of (data : List UInt8) : Except Errno (UInt64 × List UInt8) :=
  match scan data with
  | .error error => .error error
  | .ok (word, rest) =>
      (kcnStrtoull word 0 ullongMax).map fun value => (value, rest)

/-- The locator at the head of the data. -/
def getstrOf (data : List UInt8) :
    Except Errno (List UInt8 × List UInt8) :=
  match scan data with
  | .error error => .error error
  | .ok (word, rest) =>
      if word.length > kcnMsgMaxlocsiz then
        .error Errno.e2big
      else
        .ok (word, rest)

/-- The line at the head of the data. -/
def fieldsOf (type : Nat) (data : List UInt8) :
    Except Errno (KcnMsgAdd × List UInt8) :=
  match get64Of data with
  | .error error => .error error
  | .ok (time, afterTime) =>
      match get64Of afterTime with
      | .error error => .error error
      | .ok (val, afterVal) =>
          match getstrOf afterVal with
          | .error error => .error error
          | .ok (loc, rest) =>
              .ok ({
                kmaType := type
                kmaTime := time
                kmaVal := val
                kmaLoc := loc
              }, rest)

variable
  {size sp : Nat} {before data : List UInt8} {kb kb₁ : KcnBuf}
  {halt : Stop → Prop}

/-! ### Words -/

/-- How the data starts. -/
inductive Scan (data : List UInt8) :
    Except Errno (List UInt8 × List UInt8) → Prop where
  | passed (word : List UInt8) (c : UInt8) (rest : List UInt8) :
      data = word ++ c :: rest →
      (∀ d ∈ word, isgraph d = true) →
      isspace c = true →
      Scan data (.ok (word, rest))
  | ended :
      (∀ d ∈ data, isgraph d = true) →
      Scan data (.error Errno.eagain)
  | refused (word : List UInt8) (c : UInt8) (rest : List UInt8) :
      data = word ++ c :: rest →
      (∀ d ∈ word, isgraph d = true) →
      isspace c = false →
      isprint c = false →
      Scan data (.error Errno.einval)

theorem scan_eq (data : List UInt8) : Scan data (scan data) := by
  have split := List.takeWhile_append_dropWhile (p := isgraph) (l := data)
  have graphs : ∀ d ∈ data.takeWhile isgraph, isgraph d = true :=
    fun d member => List.mem_takeWhile_imp member
  unfold scan
  cases shape : data.dropWhile isgraph with
  | nil =>
      exact .ended (List.dropWhile_eq_nil_iff.mp shape)
  | cons c rest =>
      rw [shape] at split
      have stops : isgraph c = false := by
        have head := List.head?_dropWhile_not isgraph data
        rw [shape] at head
        simpa using head
      simp only
      by_cases space : isspace c = true
      · rw [if_pos space]
        exact .passed _ c rest split.symm graphs space
      · rw [if_neg space]
        rw [Bool.not_eq_true] at space
        have noPrint : isprint c = false := by
          unfold isgraph at stops
          rw [space] at stops
          simpa using stops
        exact .refused _ c rest split.symm graphs space noPrint

/-- Numbers that are refused do not wait for more data. -/
theorem kcnStrtoull_ne_eagain {word : List UInt8} {error : Errno}
    (refused : kcnStrtoull word 0 ullongMax = .error error) :
    error ≠ Errno.eagain := by
  unfold kcnStrtoull at refused
  simp only at refused
  split at refused
  · cases refused
    decide
  · split at refused
    · cases refused
      decide
    · split at refused
      · cases refused
        decide
      · cases refused

/-- What `get64` makes of any data. -/
theorem wp_get64_of
    {post : Except Errno UInt64 → KcnBuf → Prop}
    (holds : kb.Holds size sp before data)
    (passed : ∀ word c rest value kb',
      data = word ++ c :: rest →
      isspace c = true →
      get64Of data = .ok (value, rest) →
      kb'.Holds size sp (before ++ (word ++ [0])) rest →
      post (.ok value) kb')
    (ended : ∀ kb',
      (∀ d ∈ data, isgraph d = true) →
      get64Of data = .error Errno.eagain →
      kb'.Holds size sp (before ++ data) [] →
      post (.error Errno.eagain) kb')
    (failed : ∀ error kb',
      error ≠ Errno.eagain →
      get64Of data = .error error →
      post (.error error) kb') :
    wp get64 post halt kb := by
  have scans := scan_eq data
  generalize result : scan data = scanned at scans
  cases scans with
  | passed word c rest dataEq graphs space =>
      have holds' := holds
      rw [dataEq] at holds'
      apply wp_get64_word graphs space holds'
      intro kb' settled
      cases parsed : kcnStrtoull word 0 ullongMax with
      | error error =>
          have whole : get64Of data = .error error := by
            simp only [get64Of, result, parsed, Except.map]
          exact failed error kb' (kcnStrtoull_ne_eagain parsed) whole
      | ok value =>
          have whole : get64Of data = .ok (value, rest) := by
            simp only [get64Of, result, parsed, Except.map]
          exact passed word c rest value kb' dataEq space whole settled
  | ended graphs =>
      apply wp_get64_again graphs holds
      intro kb' settled
      have whole : get64Of data = .error Errno.eagain := by
        simp only [get64Of, result]
      exact ended kb' graphs whole settled
  | refused word c rest dataEq graphs noSpace noPrint =>
      have holds' := holds
      rw [dataEq] at holds'
      unfold get64
      rw [wp_bind, wp_gets, wp_bind]
      apply wp_forward holds' (.refused graphs noSpace noPrint)
      intro kb' _
      have whole : get64Of data = .error Errno.einval := by
        simp only [get64Of, result]
      exact failed _ kb' (by decide) whole

/-- What `getstr` makes of any data. -/
theorem wp_getstr_of
    {post : Except Errno (List UInt8) → KcnBuf → Prop}
    (holds : kb.Holds size sp before data)
    (passed : ∀ word c rest kb',
      data = word ++ c :: rest →
      word.length ≤ kcnMsgMaxlocsiz →
      getstrOf data = .ok (word, rest) →
      kb'.Holds size sp (before ++ (word ++ [c])) rest →
      post (.ok word) kb')
    (ended : ∀ kb',
      getstrOf data = .error Errno.eagain →
      kb'.Holds size sp (before ++ data) [] →
      post (.error Errno.eagain) kb')
    (failed : ∀ error kb',
      error ≠ Errno.eagain →
      getstrOf data = .error error →
      post (.error error) kb') :
    wp getstr post halt kb := by
  have scans := scan_eq data
  generalize result : scan data = scanned at scans
  cases scans with
  | passed word c rest dataEq graphs space =>
      have holds' := holds
      rw [dataEq] at holds'
      by_cases fits : word.length ≤ kcnMsgMaxlocsiz
      · have whole : getstrOf data = .ok (word, rest) := by
          simp only [getstrOf, result, if_neg (Nat.not_lt.mpr fits)]
        apply wp_getstr graphs fits space holds'
        intro kb' settled
        exact passed word c rest kb' dataEq fits whole settled
      · have whole : getstrOf data = .error Errno.e2big := by
          simp only [getstrOf, result, if_pos (Nat.lt_of_not_le fits)]
        unfold getstr
        rw [wp_bind, wp_gets, wp_bind]
        apply wp_forward holds' (.passed graphs space)
        intro kb₁ holds₁
        have slen : kb₁.cp - kb.cp - 1 = word.length := by
          rw [holds₁.cp_eq, holds.cp_eq, List.length_append,
            List.length_append, List.length_singleton]
          omega
        simp only [wp_bind, wp_gets, slen,
          if_pos (Nat.lt_of_not_le fits)]
        exact failed _ kb₁ (by decide) whole
  | ended graphs =>
      apply wp_getstr_again graphs holds
      intro kb' settled
      have whole : getstrOf data = .error Errno.eagain := by
        simp only [getstrOf, result]
      exact ended kb' whole settled
  | refused word c rest dataEq graphs noSpace noPrint =>
      have holds' := holds
      rw [dataEq] at holds'
      unfold getstr
      rw [wp_bind, wp_gets, wp_bind]
      apply wp_forward holds' (.refused graphs noSpace noPrint)
      intro kb' _
      have whole : getstrOf data = .error Errno.einval := by
        simp only [getstrOf, result]
      exact failed _ kb' (by decide) whole

/-! ### Lines -/

/-- What the parser leaves of the data, by what it makes of it. -/
inductive Leaves
    (type size sp : Nat) (data : List UInt8) (kb : KcnBuf) :
    Except Errno (KcnMsgAdd × List UInt8) → Prop where
  | parsed (kma : KcnMsgAdd) (taken rest : List UInt8) :
      kma.kmaType = type →
      kma.kmaLoc.length ≤ kcnMsgMaxlocsiz →
      rest.length < data.length →
      kb.Holds size sp taken rest →
      Leaves type size sp data kb (.ok (kma, rest))
  | untouched :
      (∀ d ∈ data, isgraph d = true) →
      kb.Holds size sp data [] →
      Leaves type size sp data kb (.error Errno.eagain)
  | touched (word : List UInt8) (c : UInt8) (rest left : List UInt8) :
      data = word ++ c :: rest →
      isspace c = true →
      kb.Holds size sp (word ++ 0 :: left) [] →
      Leaves type size sp data kb (.error Errno.eagain)
  | failed (error : Errno) :
      error ≠ Errno.eagain →
      Leaves type size sp data kb (.error error)

/-- The parser makes the same of the same data, and violates no assertion. -/
theorem wp_fields_of
    (type : Nat) (holds : kb.Holds size sp [] data) :
    wp (fields type)
      (fun result kb' =>
        result = (fieldsOf type data).map Prod.fst ∧
          Leaves type size sp data kb' (fieldsOf type data))
      halt kb := by
  unfold fields
  rw [wp_bind]
  apply wp_get64_of holds
  · intro word c rest time kb₁ dataEq space timeEq holds₁
    simp only [wp_bind]
    apply wp_get64_of holds₁
    · intro word' c' rest' val kb₂ restEq _ valEq holds₂
      simp only [wp_bind]
      apply wp_getstr_of holds₂
      · intro loc c'' rest'' kb₃ restEq' fits locEq holds₃
        simp only [fieldsOf, timeEq, valEq, locEq, wp_pure]
        have shorter : rest''.length < data.length := by
          rw [dataEq, restEq, restEq']
          simp only [List.length_append, List.length_cons]
          omega
        exact ⟨rfl, .parsed _ _ rest'' rfl fits shorter holds₃⟩
      · intro kb₃ locEq holds₃
        simp only [fieldsOf, timeEq, valEq, locEq, wp_pure]
        refine ⟨rfl, ?_⟩
        have shape :
            [] ++ (word ++ [0]) ++ (word' ++ [0]) ++ rest' =
              word ++ 0 :: (word' ++ 0 :: rest') := by
          simp
        rw [shape] at holds₃
        exact .touched word c rest _ dataEq space holds₃
      · intro error kb₃ other locEq
        simp only [fieldsOf, timeEq, valEq, locEq, wp_pure]
        exact ⟨rfl, .failed error other⟩
    · intro kb₂ _ valEq holds₂
      simp only [fieldsOf, timeEq, valEq, wp_pure]
      refine ⟨rfl, ?_⟩
      have shape :
          [] ++ (word ++ [0]) ++ rest = word ++ 0 :: rest := by
        simp
      rw [shape] at holds₂
      exact .touched word c rest rest dataEq space holds₂
    · intro error kb₂ other valEq
      simp only [fieldsOf, timeEq, valEq, wp_pure]
      exact ⟨rfl, .failed error other⟩
  · intro kb₁ graphs timeEq holds₁
    simp only [fieldsOf, timeEq, wp_pure]
    exact ⟨rfl, .untouched graphs holds₁⟩
  · intro error kb₁ other timeEq
    simp only [fieldsOf, timeEq, wp_pure]
    exact ⟨rfl, .failed error other⟩

/-! ### Parsing again -/

/-- The data and the pointers are what they were. -/
structure SameBuf (kb kb' : KcnBuf) : Prop where
  sp_eq : kb'.sp = kb.sp
  cp_eq : kb'.cp = kb.cp
  ep_eq : kb'.ep = kb.ep
  data_eq : kb'.data = kb.data

/--
After `kcn_buf_start` the buffer is what it was before the attempt, and with
more data behind it the line is parsed as it is at once.
-/
structure Restarts (type : Nat) (kb kb₁ : KcnBuf) : Prop where
  same : ∀ kb₂, KcnBuf.start kb₁ = .ok ((), kb₂) → SameBuf kb kb₂
  again : ∀ kb₂, KcnBuf.start kb₁ = .ok ((), kb₂) →
    ∀ (size₃ sp₃ size₄ sp₄ : Nat) (more : List UInt8) (kb₃ kb₄ : KcnBuf),
      kb₃.Holds size₃ sp₃ [] (kb₂.data ++ more) →
      kb₄.Holds size₄ sp₄ [] (kb.data ++ more) →
      ∃ result kb₃' kb₄', fields type kb₃ = .ok (result, kb₃') ∧
        fields type kb₄ = .ok (result, kb₄')

/-- The same data is parsed in the same way, wherever it is. -/
theorem fields_same
    {size₃ sp₃ size₄ sp₄ : Nat} {kb₃ kb₄ : KcnBuf} (type : Nat)
    (holds₃ : kb₃.Holds size₃ sp₃ [] data)
    (holds₄ : kb₄.Holds size₄ sp₄ [] data) :
    ∃ result kb₃' kb₄', fields type kb₃ = .ok (result, kb₃') ∧
      fields type kb₄ = .ok (result, kb₄') := by
  obtain ⟨result₃, kb₃', returns₃, same₃, _⟩ :=
    wp_returns (wp_fields_of type holds₃)
  obtain ⟨result₄, kb₄', returns₄, same₄, _⟩ :=
    wp_returns (wp_fields_of type holds₄)
  rw [same₃] at returns₃
  rw [same₄] at returns₄
  exact ⟨_, kb₃', kb₄', returns₃, returns₄⟩

/--
After the attempt to parse a line that is not complete, parsing can start
again if and only if there is no blank in the data.
-/
theorem restart_exact
    {type : Nat}
    (holds : kb.Holds size sp [] data)
    (incomplete : fields type kb = .ok (.error Errno.eagain, kb₁)) :
    Restarts type kb kb₁ ↔ ∀ c ∈ data, isspace c = false := by
  have dataEq : kb.data = data := by
    rw [holds.data_eq, List.nil_append]
  have spec :
      wp (fields type)
        (fun result kb' =>
          result = (fieldsOf type data).map Prod.fst ∧
            Leaves type size sp data kb' (fieldsOf type data))
        (fun _ => False) kb :=
    wp_fields_of type holds
  obtain ⟨result, leaves⟩ := wp_ok spec incomplete
  generalize parsed : fieldsOf type data = whole at result leaves
  have starts {before : List UInt8}
      (holds₁ : kb₁.Holds size sp before []) :
      ∃ kb₂, KcnBuf.start kb₁ = .ok ((), kb₂) ∧
        kb₂.Holds size sp [] before := by
    have runs : wp KcnBuf.start (fun _ kb₂ => kb₂.Holds size sp [] before)
        (fun _ => False) kb₁ := by
      apply wp_start holds₁
      intro kb₂ holds₂
      rw [List.append_nil] at holds₂
      exact holds₂
    obtain ⟨_, kb₂, returns, holds₂⟩ := wp_returns runs
    exact ⟨kb₂, returns, holds₂⟩
  cases leaves with
  | parsed kma taken rest _ _ _ _ =>
      cases result
  | failed error other =>
      cases result
      exact absurd rfl other
  | untouched graphs holds₁ =>
      obtain ⟨kb₂, returns, holds₂⟩ := starts holds₁
      have same : kb₂.data = data := by
        rw [holds₂.data_eq, List.nil_append]
      constructor
      · intro _ c member
        exact (of_isgraph (graphs c member)).1
      · intro _
        constructor
        · intro kb₂' returns'
          cases returns.symm.trans returns'
          exact {
            sp_eq := holds₂.sp_eq.trans holds.sp_eq.symm
            cp_eq := holds₂.cp_eq.trans holds.cp_eq.symm
            ep_eq := holds₂.ep_eq.trans holds.ep_eq.symm
            data_eq := same.trans dataEq.symm
          }
        · intro kb₂' returns' _ _ _ _ more kb₃ kb₄ holds₃ holds₄
          cases returns.symm.trans returns'
          rw [same] at holds₃
          rw [dataEq] at holds₄
          exact fields_same type holds₃ holds₄
  | touched word c rest left split space holds₁ =>
      obtain ⟨kb₂, returns, holds₂⟩ := starts holds₁
      constructor
      · intro restarts
        exfalso
        have same := (restarts.same kb₂ returns).data_eq
        rw [dataEq, holds₂.data_eq, List.nil_append, split] at same
        have heads := List.append_cancel_left same
        cases heads
        cases space
      · intro none
        have member : c ∈ data := by
          rw [split]
          exact List.mem_append_right _ List.mem_cons_self
        rw [none c member] at space
        cases space

/-- A buffer that is full of data. -/
def filled (data : List UInt8) : KcnBuf where
  size := data.length
  bytes := data
  sp := 0
  cp := 0
  ep := data.length
  sp_le_cp := (KcnBuf.new data).sp_le_cp
  cp_le_ep := (KcnBuf.new data).ep_le_size
  ep_le_size := Nat.le_refl _
  length_bytes := (KcnBuf.new data).length_bytes

theorem holds_filled (data : List UInt8) :
    (filled data).Holds data.length 0 [] data := by
  apply holds_of_slice rfl rfl rfl (Nat.zero_add _).symm
  rw [List.length_nil, Nat.zero_add]
  exact slice_self data

/--
The line `12345 7 ab` is cut inside the timestamp, and is parsed as a whole
when the rest of it is there.
-/
theorem restart_exact_time :
    ∃ kb₁ kb₂,
      fields 1 (filled [0x31, 0x32, 0x33]) =
          .ok (.error Errno.eagain, kb₁) ∧
        (Restarts 1 (filled [0x31, 0x32, 0x33]) kb₁ ↔
          ∀ c ∈ [(0x31 : UInt8), 0x32, 0x33], isspace c = false) ∧
        KcnBuf.start kb₁ = .ok ((), kb₂) ∧
        (fields 1
            (filled
              (kb₂.data ++
                [0x34, 0x35, 0x20, 0x37, 0x20, 0x61, 0x62, 0x0a]))).map
            Prod.fst =
          .ok (.ok {
            kmaType := 1, kmaTime := 12345, kmaVal := 7
            kmaLoc := [0x61, 0x62]
          }) :=
  ⟨_, _, rfl, restart_exact (holds_filled _) rfl, rfl,
    by decide +kernel⟩

/-- The blank in `1 2` is overwritten. -/
theorem restart_overwritten :
    ∃ kb₁ kb₂,
      fields 1 (filled [0x31, 0x20, 0x32]) =
          .ok (.error Errno.eagain, kb₁) ∧
        KcnBuf.start kb₁ = .ok ((), kb₂) ∧
        kb₂.data = [0x31, 0, 0x32] ∧
        ¬ Restarts 1 (filled [0x31, 0x20, 0x32]) kb₁ := by
  refine ⟨_, _, rfl, rfl, by decide, ?_⟩
  intro restarts
  have same := (restarts.same _ rfl).data_eq
  revert same
  decide

end KcndbctlFile

end Kcn
