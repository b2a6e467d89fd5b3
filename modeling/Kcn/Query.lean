import Kcn.Codec
import Kcn.Netstat

namespace Kcn

open Program KcnBuf KcnNetstat

/-!
# The query of the network statistics

`kcn_netstat_search` fills a query on its stack and sends it.  What the stack
held before is an argument here, so that two runs can be compared.
-/

namespace KcnNetstat

/--
`kcn_netstat_search` up to the query that it sends, if the keywords compile;
`ke` is what the stack holds in the place of `kmq_eq`.
-/
def searchQuery
    (loctype : KcnLocType) (maxnlocs : Nat) (keyv : List (List UInt8))
    (now : Option Int64) (ke : KcnEq) : Option KcnMsgQuery :=
  match netstatCompile keyv now ke with
  | (true, ke) =>
      some {
        kmqLoctype := loctype
        kmqMaxcount := UInt8.ofNat maxnlocs
        kmqEq := ke
      }
  | (false, _) => none

/-- The frame that the query leaves in the output buffer. -/
def queryFrame (kmq : KcnMsgQuery) (kb : KcnBuf) :
    Except Stop (List UInt8) :=
  (KcnMsg.queryEncode kmq kb).map fun result => result.2.data

/-- The frame that is sent, from the contents of the stack and the buffer. -/
def sentFrame
    (loctype : KcnLocType) (maxnlocs : Nat) (keyv : List (List UInt8))
    (now : Option Int64) (ke : KcnEq) (kb : KcnBuf) :
    Option (Except Stop (List UInt8)) :=
  (searchQuery loctype maxnlocs keyv now ke).map fun kmq =>
    queryFrame kmq kb

/-- The buffer has room for a query. -/
def HasRoom (kb : KcnBuf) : Prop :=
  kcnMsgHdrsiz + kcnMsgQuerySiz ≤ kb.size

/-! ### What compiles -/

/-- Three keywords that compile set all fields. -/
theorem compile_three
    {keyv : List (List UInt8)} {now : Option Int64} {ke : KcnEq}
    (three : keyv.length = 3)
    (compiles : (netstatCompile keyv now ke).1 = true) :
    ∃ fixed, ∀ ke', netstatCompile keyv now ke' = (true, fixed) := by
  match keyv, three with
  | [key, operator, value], _ =>
      unfold netstatCompile at compiles ⊢
      cases isType : kcnEqTypeAton key with
      | none =>
          simp [isType] at compiles
      | some type =>
          cases isOp : kcnEqOperatorAton operator with
          | none =>
              simp [isType, isOp] at compiles
          | some op =>
              cases isVal : kcnEqValAton value with
              | none =>
                  simp [isType, isOp, isVal] at compiles
              | some val =>
                  cases now with
                  | none =>
                      simp [isType, isOp, isVal] at compiles
                  | some start =>
                      refine ⟨{
                        keType := type
                        keOp := op
                        keVal := val
                        keStart := start - kcnTimeJitter
                        keEnd := kcnTimeNow
                      }, ?_⟩
                      intro ke'
                      simp [isType, isOp, isVal]

/-- More keywords that compile leave the times as they were. -/
theorem compile_more
    {keyv : List (List UInt8)} {now : Option Int64} {ke : KcnEq}
    (more : 3 < keyv.length)
    (compiles : (netstatCompile keyv now ke).1 = true) :
    ∃ type op val, ∀ ke', netstatCompile keyv now ke' =
      (true, { ke' with keType := type, keOp := op, keVal := val }) := by
  match keyv, more with
  | key :: operator :: value :: other :: others, _ =>
      unfold netstatCompile at compiles ⊢
      cases isType : kcnEqTypeAton key with
      | none =>
          simp [isType] at compiles
      | some type =>
          cases isOp : kcnEqOperatorAton operator with
          | none =>
              simp [isType, isOp] at compiles
          | some op =>
              cases isVal : kcnEqValAton value with
              | none =>
                  simp [isType, isOp, isVal] at compiles
              | some val =>
                  refine ⟨type, op, val, ?_⟩
                  intro ke'
                  simp [isType, isOp, isVal]

/-- Fewer keywords do not compile. -/
theorem length_of_compiles
    {keyv : List (List UInt8)} {now : Option Int64} {ke : KcnEq}
    (compiles : (netstatCompile keyv now ke).1 = true) :
    3 ≤ keyv.length := by
  match keyv with
  | [] | [_] | [_, _] =>
      cases compiles
  | _ :: _ :: _ :: more =>
      simp

/-! ### The frame -/

/-- The frame of a query does not depend on what the buffer held. -/
theorem queryFrame_eq
    (kmq : KcnMsgQuery) {kb : KcnBuf} (room : HasRoom kb) :
    queryFrame kmq kb = .ok (frame .query (queryBody kmq)) := by
  obtain ⟨kb', runs, holds⟩ :=
    KcnMsg.queryEncode_encodes kmq kb room
  unfold queryFrame
  rw [runs]
  exact congrArg Except.ok holds.data_eq

/-- The frame tells the start of the time. -/
theorem keStart_of_frame
    {kmq kmq' : KcnMsgQuery}
    (same : frame .query (queryBody kmq) =
      frame .query (queryBody kmq')) :
    bytes64 kmq.kmqEq.keStart.toUInt64 =
      bytes64 kmq'.kmqEq.keStart.toUInt64 := by
  have part (kmq : KcnMsgQuery) :
      ((frame .query (queryBody kmq)).drop 16).take 8 =
        bytes64 kmq.kmqEq.keStart.toUInt64 :=
    rfl
  rw [← part kmq, ← part kmq', same]

/-- A stack with a given start of the time. -/
def stack (start : Int64) : KcnEq where
  keType := 0
  keOp := 0
  keVal := 0
  keStart := start
  keEnd := 0

theorem starts_differ :
    bytes64 (stack 0).keStart.toUInt64 ≠
      bytes64 (stack 1).keStart.toUInt64 := by
  decide

/-- A buffer of 64 bytes. -/
def room64 : KcnBuf :=
  KcnBuf.new (List.replicate 64 0)

theorem hasRoom_room64 : HasRoom room64 := by
  unfold HasRoom room64
  decide

/--
For keywords that compile, the frame does not depend on what the stack and the
buffer held if and only if there are three of them.
-/
theorem query_determined_iff
    {loctype : KcnLocType} {maxnlocs : Nat} {keyv : List (List UInt8)}
    {now : Option Int64} {ke : KcnEq}
    (compiles : (netstatCompile keyv now ke).1 = true) :
    (∀ ke₁ ke₂ kb₁ kb₂, HasRoom kb₁ → HasRoom kb₂ →
      sentFrame loctype maxnlocs keyv now ke₁ kb₁ =
        sentFrame loctype maxnlocs keyv now ke₂ kb₂) ↔
      keyv.length = 3 := by
  have least := length_of_compiles compiles
  constructor
  · intro determined
    by_contra notThree
    have more : 3 < keyv.length := by omega
    obtain ⟨type, op, val, compiled⟩ := compile_more more compiles
    have same := determined (stack 0) (stack 1) room64 room64
      hasRoom_room64 hasRoom_room64
    unfold sentFrame searchQuery at same
    rw [compiled, compiled] at same
    simp only [Option.map_some, queryFrame_eq _ hasRoom_room64,
      Option.some.injEq, Except.ok.injEq] at same
    have starts := keStart_of_frame same
    dsimp only at starts
    exact starts_differ starts
  · intro three ke₁ ke₂ kb₁ kb₂ room₁ room₂
    obtain ⟨fixed, compiled⟩ := compile_three three compiles
    unfold sentFrame searchQuery
    rw [compiled, compiled]
    simp only [Option.map_some]
    rw [queryFrame_eq _ room₁, queryFrame_eq _ room₂]

/-- The three keywords `cpu > 5` determine the frame. -/
theorem query_determined_iff_cpu :
    (∀ ke₁ ke₂ kb₁ kb₂, HasRoom kb₁ → HasRoom kb₂ →
      sentFrame .uri 10 [ascii "cpu", ascii ">", ascii "5"] (some 1000)
          ke₁ kb₁ =
        sentFrame .uri 10 [ascii "cpu", ascii ">", ascii "5"] (some 1000)
          ke₂ kb₂) ↔
      [ascii "cpu", ascii ">", ascii "5"].length = 3 :=
  query_determined_iff
    (show (netstatCompile [ascii "cpu", ascii ">", ascii "5"] (some 1000)
      (stack 0)).1 = true by decide)

/-- The four keywords `cpu > 5 today` send what the stack held. -/
theorem query_undetermined :
    (netstatCompile
        [ascii "cpu", ascii ">", ascii "5", ascii "today"] (some 1000)
        (stack 0)).1 = true ∧
      sentFrame .uri 10
          [ascii "cpu", ascii ">", ascii "5", ascii "today"] (some 1000)
          (stack 0) room64 ≠
        sentFrame .uri 10
          [ascii "cpu", ascii ">", ascii "5", ascii "today"] (some 1000)
          (stack 1) room64 := by
  have compiled (start : Int64) :
      searchQuery .uri 10
          [ascii "cpu", ascii ">", ascii "5", ascii "today"] (some 1000)
          (stack start) =
        some {
          kmqLoctype := .uri
          kmqMaxcount := 10
          kmqEq := { stack start with keType := 2, keOp := 4, keVal := 5 }
        } := by
    rfl
  refine ⟨by decide, ?_⟩
  intro same
  unfold sentFrame at same
  rw [compiled, compiled] at same
  simp only [Option.map_some, queryFrame_eq _ hasRoom_room64,
    Option.some.injEq, Except.ok.injEq] at same
  have starts := keStart_of_frame same
  dsimp only at starts
  exact starts_differ starts

end KcnNetstat

end Kcn
