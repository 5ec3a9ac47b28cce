import Semasm.Contract.Eval
import Semasm.Contract.Validate
import Semasm.Library.Spans
import Mathlib.Tactic.SplitIfs

/-!
# What region atoms say about memory

An assignment gives every base parameter an address and every length parameter a
byte count, in exact integers. A region is then a span of addresses, and the
three relations are those of spans. A judgement of an atom is right when a proof
holds under every assignment, a refutation fails under every assignment, and a
conditional judgement follows from the declared preconditions.

The evaluator answers from one stored row. Its regions, in the stored order, and
the order of the question decide whether the answer is right, so the condition
below is stated on the offsets and lengths of those two regions.
-/

namespace Semasm.Contract

open Library Library.Saturation

/-- Values of the pointer and length parameters. -/
structure Assignment where
  base : String → Int
  length : String → Int

/-- The byte count of a length. -/
def LengthSpec.bytes (assignment : Assignment) : LengthSpec → Int
  | .literal bytes => bytes.toNat
  | .param name => assignment.length name

/-- The exact addresses of a region. -/
def CheckedRegion.span (assignment : Assignment) (region : CheckedRegion) : Span Int :=
  let start := assignment.base region.baseParam + region.offset.toInt
  ⟨start, start + region.length.bytes assignment⟩

/-- The relation between two spans that a declaration requires. -/
def RelationRequire.Holds : RelationRequire → Span Int → Span Int → Prop
  | .disjoint, left, right => left.Apart right
  | .equal, left, right => left = right
  | .contains, left, right => left.Covers right

/-- The named regions exist and stand in the relation. -/
def Related (memory : CheckedMemory) (assignment : Assignment) (require : RelationRequire)
    (left right : String) : Prop :=
  ∃ leftRegion rightRegion, memory.region? left = some leftRegion ∧
    memory.region? right = some rightRegion ∧
    require.Holds (leftRegion.span assignment) (rightRegion.span assignment)

/-- Every relation declared as a precondition holds. -/
def PreconditionsHold (memory : CheckedMemory) (assignment : Assignment) : Prop :=
  ∀ relation ∈ memory.relations, relation.basis = some .precondition →
    Related memory assignment relation.require relation.left relation.right

/-- The declared preconditions entail the atom. -/
def Entailed (memory : CheckedMemory) (require : RelationRequire) (left right : String) : Prop :=
  ∀ assignment, PreconditionsHold memory assignment → Related memory assignment require left right

/-- What a judgement of the atom promises. -/
structure AtomSound (memory : CheckedMemory) (require : RelationRequire) (left right : String)
    (judgement : ExprJudgement) : Prop where
  proven : judgement = .provenTrue → ∀ assignment, Related memory assignment require left right
  refuted : judgement = .provenFalse →
    ∀ assignment, ¬ Related memory assignment require left right
  conditional : judgement = .trueUnderPrecondition → Entailed memory require left right

/-- The syntax `regions.require(left,right)`; the source positions are arbitrary. -/
def regionsAtom (spans : Fin 5 → SourceSpan) (require : RelationRequire) (left right : String) :
    Expr :=
  .call (.member (.ident "regions" (spans 0)) require.asStr (spans 1))
    [.ident left (spans 2), .ident right (spans 3)] (spans 4)

/-- The first relation naming the pair in either order, and whether its order is reversed. -/
def pairRelation? (left right : String) :
    List CheckedRelation → Option (CheckedRelation × Bool)
  | [] => none
  | relation :: rest =>
    if relation.left = left ∧ relation.right = right then some (relation, false)
    else if relation.left = right ∧ relation.right = left then some (relation, true)
    else pairRelation? left right rest

/-- Offsets and literal lengths of two regions of one base, in the stored order. -/
structure ConstantPair where
  leftOffset : Int64
  leftLength : UInt64
  rightOffset : Int64
  rightLength : UInt64

namespace ConstantPair

/-- The exact stop of the left region, relative to the base. -/
def leftStop (pair : ConstantPair) : Int := pair.leftOffset.toInt + pair.leftLength.toNat

/-- The exact stop of the right region, relative to the base. -/
def rightStop (pair : ConstantPair) : Int := pair.rightOffset.toInt + pair.rightLength.toNat

/-- Ordered end points after saturation, left outside. -/
def LeftOuter (pair : ConstantPair) : Prop :=
  pair.leftOffset.toInt ≤ pair.rightOffset.toInt ∧ clamp pair.rightStop ≤ clamp pair.leftStop
deriving Decidable

/-- Ordered end points after saturation, right outside. -/
def RightOuter (pair : ConstantPair) : Prop :=
  pair.rightOffset.toInt ≤ pair.leftOffset.toInt ∧ clamp pair.leftStop ≤ clamp pair.rightStop
deriving Decidable

/-- Nothing the saturation of a stop can hide: equal ends come from equal lengths. -/
def EqualRight (pair : ConstantPair) : Prop :=
  pair.LeftOuter → pair.RightOuter → pair.leftLength = pair.rightLength

/-- A span inside another one, judged to overlap it, has a byte in it. The reversed
question is not decided when the stored left region is strictly outside. -/
def DisjointRight (pair : ConstantPair) (reversed : Bool) : Prop :=
  (pair.LeftOuter → (reversed = true ∧ ¬ pair.RightOuter) ∨
      (pair.rightLength ≠ 0 ∧ pair.rightOffset.toInt < pair.leftStop)) ∧
    (pair.RightOuter → pair.leftLength ≠ 0 ∧ pair.leftOffset.toInt < pair.rightStop)

/-- Containment asked in the stored order: a strict outer span is not cut by
saturation, equal spans are declared to contain each other or the right one is
longer, and an unordered right span has a byte. -/
def ContainsRight (pair : ConstantPair) (declared : Prop) : Prop :=
  (pair.LeftOuter → ¬ pair.RightOuter → pair.rightStop ≤ pair.leftStop) ∧
    (pair.LeftOuter → pair.RightOuter → declared ∨ pair.leftLength < pair.rightLength) ∧
    (¬ pair.LeftOuter → pair.rightLength ≠ 0)

/-- Containment asked in the reverse order. A declaration in the stored order
answers the reverse question too, so it has to be entailed there. -/
def ReverseContainsRight (pair : ConstantPair) (declared entailed : Prop) : Prop :=
  (pair.RightOuter → ¬ pair.LeftOuter → pair.rightStop < pair.leftStop) ∧
    (pair.LeftOuter → pair.RightOuter →
      (declared → entailed) ∧ (¬ declared → pair.rightLength < pair.leftLength)) ∧
    (¬ pair.LeftOuter → ¬ pair.RightOuter → pair.leftLength ≠ 0)

end ConstantPair

/-- The relation declares this precondition. -/
def CheckedRelation.Declares (relation : CheckedRelation) (require : RelationRequire) : Prop :=
  relation.require = require ∧ relation.basis = some .precondition
deriving Decidable

/-- When the answer read from a stored relation is right, on the regions it names. -/
def AnswerRight (require : RelationRequire) (relation : CheckedRelation) (reversed : Bool)
    (left right : CheckedRegion) (entailed : Prop) : Prop :=
  match left.length, right.length with
  | .literal leftLength, .literal rightLength =>
    if left.baseParam = right.baseParam then
      let pair : ConstantPair := ⟨left.offset, leftLength, right.offset, rightLength⟩
      match require, reversed with
      | .equal, _ => pair.EqualRight
      | .disjoint, reversed => pair.DisjointRight reversed
      | .contains, false => pair.ContainsRight (relation.Declares .contains)
      | .contains, true => pair.ReverseContainsRight (relation.Declares .contains) entailed
    else require = .contains → reversed = true → relation.Declares .contains → entailed
  | _, _ =>
    if left.baseParam = right.baseParam ∧ left.offset = right.offset ∧
        left.length = right.length then
      require = .equal ∨ (require = .contains ∧ relation.Declares .contains)
    else require = .contains → reversed = true → relation.Declares .contains → entailed

/-- When the evaluator's answer to an atom is right. -/
def AtomRight (memory : CheckedMemory) (require : RelationRequire) (left right : String) : Prop :=
  ∀ relation reversed leftRegion rightRegion,
    pairRelation? left right memory.relations = some (relation, reversed) →
    memory.region? relation.left = some leftRegion →
    memory.region? relation.right = some rightRegion →
    AnswerRight require relation reversed leftRegion rightRegion
      (Entailed memory require left right)

namespace ConstantPair

/-- The left span of the pair, relative to the base. -/
def left (pair : ConstantPair) : Span Int := ⟨pair.leftOffset.toInt, pair.leftStop⟩

/-- The right span of the pair, relative to the base. -/
def right (pair : ConstantPair) : Span Int := ⟨pair.rightOffset.toInt, pair.rightStop⟩

/-- The observation of the pair, on the order of its end points. -/
def observed (pair : ConstantPair) : RelationObserved :=
  if pair.LeftOuter ∧ pair.RightOuter then .provenEqual
  else if pair.LeftOuter then .provenContains
  else if pair.RightOuter then .provenPartialOverlap
  else if clamp pair.leftStop ≤ pair.rightOffset.toInt ∨
      clamp pair.rightStop ≤ pair.leftOffset.toInt then .provenDisjoint
  else .provenPartialOverlap

/-- The engine's comparison of saturated end points is the observation above. -/
theorem observeSpans_observed (pair : ConstantPair) :
    (observeSpans pair.leftOffset (saturatingAddUnsigned pair.leftOffset pair.leftLength)
      pair.rightOffset (saturatingAddUnsigned pair.rightOffset pair.rightLength)).1 =
      pair.observed := by
  have leftOuter : pair.leftOffset ≤ pair.rightOffset ∧
      saturatingAddUnsigned pair.rightOffset pair.rightLength ≤
        saturatingAddUnsigned pair.leftOffset pair.leftLength ↔ pair.LeftOuter := by
    simp only [Int64.le_iff_toInt_le, toInt_saturatingAddUnsigned]
    rfl
  have rightOuter : pair.rightOffset ≤ pair.leftOffset ∧
      saturatingAddUnsigned pair.leftOffset pair.leftLength ≤
        saturatingAddUnsigned pair.rightOffset pair.rightLength ↔ pair.RightOuter := by
    simp only [Int64.le_iff_toInt_le, toInt_saturatingAddUnsigned]
    rfl
  have same : pair.leftOffset = pair.rightOffset ∧
      saturatingAddUnsigned pair.leftOffset pair.leftLength =
        saturatingAddUnsigned pair.rightOffset pair.rightLength ↔
      pair.LeftOuter ∧ pair.RightOuter := by
    rw [← leftOuter, ← rightOuter]
    simp only [← Int64.toInt_inj, Int64.le_iff_toInt_le]
    omega
  have apart : saturatingAddUnsigned pair.leftOffset pair.leftLength ≤ pair.rightOffset ∨
      saturatingAddUnsigned pair.rightOffset pair.rightLength ≤ pair.leftOffset ↔
      clamp pair.leftStop ≤ pair.rightOffset.toInt ∨
        clamp pair.rightStop ≤ pair.leftOffset.toInt := by
    simp only [Int64.le_iff_toInt_le, toInt_saturatingAddUnsigned]
    rfl
  simp only [observeSpans, leftOuter, rightOuter, same, apart, observed]
  split_ifs <;> rfl

/-- Saturation keeps the smaller of the exact stop and the largest value. -/
theorem clamp_leftStop (pair : ConstantPair) :
    clamp pair.leftStop = min (pair.leftOffset.toInt + pair.leftLength.toNat) maxI64 :=
  clamp_eq_min (min_le_add_length _ _)

theorem clamp_rightStop (pair : ConstantPair) :
    clamp pair.rightStop = min (pair.rightOffset.toInt + pair.rightLength.toNat) maxI64 :=
  clamp_eq_min (min_le_add_length _ _)

theorem leftOuter_iff (pair : ConstantPair) :
    pair.LeftOuter ↔ pair.leftOffset.toInt ≤ pair.rightOffset.toInt ∧
      min (pair.rightOffset.toInt + pair.rightLength.toNat) maxI64 ≤
        min (pair.leftOffset.toInt + pair.leftLength.toNat) maxI64 := by
  rw [LeftOuter, clamp_leftStop, clamp_rightStop]

theorem rightOuter_iff (pair : ConstantPair) :
    pair.RightOuter ↔ pair.rightOffset.toInt ≤ pair.leftOffset.toInt ∧
      min (pair.leftOffset.toInt + pair.leftLength.toNat) maxI64 ≤
        min (pair.rightOffset.toInt + pair.rightLength.toNat) maxI64 := by
  rw [RightOuter, clamp_leftStop, clamp_rightStop]

end ConstantPair

/-- Two literal regions of one base stand in a relation under one assignment
exactly when their offset spans do. -/
theorem holds_constant_iff (assignment : Assignment) (require : RelationRequire)
    (left right : CheckedRegion) (leftLength rightLength : UInt64)
    (sameBase : left.baseParam = right.baseParam)
    (leftLiteral : left.length = .literal leftLength)
    (rightLiteral : right.length = .literal rightLength) :
    require.Holds (left.span assignment) (right.span assignment) ↔
      require.Holds (ConstantPair.left ⟨left.offset, leftLength, right.offset, rightLength⟩)
        (ConstantPair.right ⟨left.offset, leftLength, right.offset, rightLength⟩) := by
  have leftMoved : left.span assignment =
      (ConstantPair.left ⟨left.offset, leftLength, right.offset, rightLength⟩).shift
        (assignment.base right.baseParam) := by
    simp only [CheckedRegion.span, Span.shift, ConstantPair.left, ConstantPair.leftStop,
      leftLiteral, LengthSpec.bytes, sameBase, add_assoc]
  have rightMoved : right.span assignment =
      (ConstantPair.right ⟨left.offset, leftLength, right.offset, rightLength⟩).shift
        (assignment.base right.baseParam) := by
    simp only [CheckedRegion.span, Span.shift, ConstantPair.right, ConstantPair.rightStop,
      rightLiteral, LengthSpec.bytes, add_assoc]
  rw [leftMoved, rightMoved]
  cases require with
  | disjoint => exact Span.shift_apart_iff _ _ _
  | equal => exact Span.shift_eq_iff _ _ _
  | contains => exact Span.shift_covers_iff _ _ _

/-- The relation the question asks of the two stored regions. -/
def Asked (require : RelationRequire) (reversed : Bool) (assignment : Assignment)
    (left right : CheckedRegion) : Prop :=
  if reversed then require.Holds (right.span assignment) (left.span assignment)
  else require.Holds (left.span assignment) (right.span assignment)

/-- What the question sees of a stored observation. -/
def seenObservation (reversed : Bool) (observed : RelationObserved) : RelationObserved :=
  if reversed ∧ observed = .provenContains then .mayOverlap else observed

/-- The relation's own precondition is the basis of its row. -/
def CheckedRelation.Assumed (relation : CheckedRelation) (observed : RelationObserved) : Prop :=
  relation.basis = some .precondition ∧ ¬ relationSatisfies relation.require observed ∧
    ¬ contradicts relation.require observed
deriving Decidable

/-- The judgement of a question answered from one stored relation. -/
def storedAnswer (require : RelationRequire) (relation : CheckedRelation) (reversed : Bool)
    (observed : RelationObserved) : ExprJudgement :=
  let seen := seenObservation reversed observed
  if relationSatisfies require seen then .provenTrue
  else if relation.Assumed observed ∧ relation.require = require then .trueUnderPrecondition
  else if seen = .mayOverlap ∨ seen = .notEvaluated ∨ seen = .invalidRegion then .incomplete
  else .provenFalse

/-- The row looked up for a pair is the row of the first relation naming it. -/
theorem lookup_rows (memory : CheckedMemory) (left right : String)
    (relations : List CheckedRelation) :
    lookupRelationRow left right (relations.map (relationRow memory)) =
      (pairRelation? left right relations).map (fun found =>
        (relationRow memory found.1,
          seenObservation found.2 (relationRow memory found.1).observed)) := by
  induction relations with
  | nil => rfl
  | cons relation rest inductionHypothesis =>
    have leftKept : (relationRow memory relation).left = relation.left := rfl
    have rightKept : (relationRow memory relation).right = relation.right := rfl
    simp only [List.map_cons, lookupRelationRow, pairRelation?, leftKept, rightKept,
      inductionHypothesis]
    split_ifs
    · rfl
    · simp only [Option.map_some, seenObservation]
      cases (relationRow memory relation).observed <;> rfl
    · rfl

/-- Constant spans are always compared on static grounds. -/
theorem observeSpans_basis (leftStart leftStop rightStart rightStop : Int64) :
    (observeSpans leftStart leftStop rightStart rightStop).2.2 = .provenStatic := by
  unfold observeSpans
  split_ifs <;> rfl

/-- The observation never claims a declaration as its own basis. -/
theorem observePair_basis (left right : CheckedRegion) :
    (observePair left right).2.2 ≠ .declaredPrecondition := by
  by_cases sameBase : left.baseParam ≠ right.baseParam
  · simp [observePair, sameBase]
  · simp only [observePair, sameBase, if_false]
    split
    · simp [observeSpans_basis]
    · split_ifs <;> simp

/-- The row of a relation whose two regions are declared. -/
theorem relationRow_declared (memory : CheckedMemory) (relation : CheckedRelation)
    (left right : CheckedRegion) (leftFound : memory.region? relation.left = some left)
    (rightFound : memory.region? relation.right = some right) :
    (relationRow memory relation).observed = (observePair left right).1 ∧
      ((relationRow memory relation).evidenceBasis = .declaredPrecondition ↔
        relation.Assumed (observePair left right).1) := by
  have own := observePair_basis left right
  simp only [relationRow, leftFound, rightFound, ← CheckedRelation.Assumed.eq_1]
  split_ifs with assumed
  · exact ⟨rfl, iff_of_true rfl assumed⟩
  · exact ⟨rfl, iff_of_false own assumed⟩

/-- The row of a relation with an undeclared region decides nothing. -/
theorem relationRow_undeclared (memory : CheckedMemory) (relation : CheckedRelation)
    (missing : memory.region? relation.left = none ∨ memory.region? relation.right = none) :
    (relationRow memory relation).observed = .invalidRegion ∧
      (relationRow memory relation).evidenceBasis = .unknown := by
  unfold relationRow
  rcases missing with leftMissing | rightMissing
  · simp [leftMissing]
  · cases memory.region? relation.left <;> simp [rightMissing]

/-- An undeclared region leaves every question about its relation undecided. -/
theorem judgeRequire_undeclared (memory : CheckedMemory) (relation : CheckedRelation)
    (missing : memory.region? relation.left = none ∨ memory.region? relation.right = none)
    (require : RelationRequire) (reversed : Bool) (left right : String) :
    (judgeRequire require (relationRow memory relation)
      (seenObservation reversed (relationRow memory relation).observed) left right).1 =
      .incomplete := by
  obtain ⟨observed, basis⟩ := relationRow_undeclared memory relation missing
  cases require <;> cases reversed <;>
    simp [judgeRequire, observed, basis, seenObservation, relationSatisfies]

/-- The judgement of an atom, from the first relation naming its pair. -/
theorem evalExpr_regionsAtom (memory : CheckedMemory) (accesses : List ObservedMemoryAccess)
    (bindings : ExprBindings) (force : Bool) (spans : Fin 5 → SourceSpan)
    (require : RelationRequire) (left right : String) :
    (evalExpr (some (evaluateAlias memory accesses)) bindings force
      (regionsAtom spans require left right)).1 =
      match pairRelation? left right memory.relations with
      | none => .incomplete
      | some (relation, reversed) =>
        match memory.region? relation.left, memory.region? relation.right with
        | some leftRegion, some rightRegion =>
          storedAnswer require relation reversed (observePair leftRegion rightRegion).1
        | _, _ => .incomplete := by
  have matched : matchRegionsAtom (.member (.ident "regions" (spans 0)) require.asStr (spans 1))
      [.ident left (spans 2), .ident right (spans 3)] = some (require, left, right) := by
    cases require <;> rfl
  simp only [regionsAtom, evalExpr, evalCall, matched]
  have rows : (evaluateAlias memory accesses).relations =
      memory.relations.map (relationRow memory) := rfl
  rw [rows, lookup_rows]
  cases pairRelation? left right memory.relations with
  | none => rfl
  | some found =>
    obtain ⟨relation, reversed⟩ := found
    simp only [Option.map_some]
    cases leftFound : memory.region? relation.left with
    | none => exact judgeRequire_undeclared memory relation (Or.inl leftFound) ..
    | some leftRegion =>
      cases rightFound : memory.region? relation.right with
      | none => exact judgeRequire_undeclared memory relation (Or.inr rightFound) ..
      | some rightRegion =>
        obtain ⟨observed, assumed⟩ := relationRow_declared memory relation leftRegion rightRegion
          leftFound rightFound
        have required : (relationRow memory relation).required = require.asStr ↔
            relation.require = require :=
          ⟨RelationRequire.asStr_injective, congrArg RelationRequire.asStr⟩
        simp only [judgeRequire, observed, assumed, required, storedAnswer]
        split_ifs <;> rfl

namespace ConstantPair

/-- The five ways the engine's comparison of two constant spans can end. -/
theorem observed_cases (pair : ConstantPair) :
    (pair.observed = .provenEqual ∧ pair.LeftOuter ∧ pair.RightOuter) ∨
      (pair.observed = .provenContains ∧ pair.LeftOuter ∧ ¬ pair.RightOuter) ∨
      (pair.observed = .provenPartialOverlap ∧ ¬ pair.LeftOuter ∧ pair.RightOuter) ∨
      (pair.observed = .provenDisjoint ∧ ¬ pair.LeftOuter ∧ ¬ pair.RightOuter ∧
        (clamp pair.leftStop ≤ pair.rightOffset.toInt ∨
          clamp pair.rightStop ≤ pair.leftOffset.toInt)) ∨
      (pair.observed = .provenPartialOverlap ∧ ¬ pair.LeftOuter ∧ ¬ pair.RightOuter ∧
        pair.rightOffset.toInt < clamp pair.leftStop ∧
        pair.leftOffset.toInt < clamp pair.rightStop) := by
  unfold observed
  by_cases leftOuter : pair.LeftOuter <;> by_cases rightOuter : pair.RightOuter
  · simp [leftOuter, rightOuter]
  · simp [leftOuter, rightOuter]
  · simp [leftOuter, rightOuter]
  · simp only [leftOuter, rightOuter, and_self, if_false]
    by_cases apart : clamp pair.leftStop ≤ pair.rightOffset.toInt ∨
        clamp pair.rightStop ≤ pair.leftOffset.toInt
    · simp [apart]
    · simp only [apart, if_false]
      simp only [not_or, not_le] at apart
      simp [apart]

end ConstantPair

/-- A judgement read from one stored relation is right for the question asked. -/
structure AnswerSound (judgement : ExprJudgement) (asked : Assignment → Prop)
    (entailed : Prop) : Prop where
  proven : judgement = .provenTrue → ∀ assignment, asked assignment
  refuted : judgement = .provenFalse → ∀ assignment, ¬ asked assignment
  conditional : judgement = .trueUnderPrecondition → entailed

/-- The observation decides the question it does not satisfy. -/
def Decisive (seen : RelationObserved) : Prop :=
  seen ≠ .mayOverlap ∧ seen ≠ .notEvaluated ∧ seen ≠ .invalidRegion

/-- A row assumed for the asked relation is one that declares it. -/
theorem assumed_iff (relation : CheckedRelation) (require : RelationRequire)
    (observed : RelationObserved) :
    relation.Assumed observed ∧ relation.require = require ↔
      relation.Declares require ∧ ¬ relationSatisfies require observed ∧
        ¬ contradicts require observed := by
  unfold CheckedRelation.Assumed CheckedRelation.Declares
  constructor
  · rintro ⟨⟨basis, unmet, open_⟩, rfl⟩
    exact ⟨⟨rfl, basis⟩, unmet, open_⟩
  · rintro ⟨⟨rfl, basis⟩, unmet, open_⟩
    exact ⟨⟨basis, unmet, open_⟩, rfl⟩

/-- A stored answer is right when the one verdict it gives is. -/
theorem answerSound_iff (require : RelationRequire) (relation : CheckedRelation) (reversed : Bool)
    (observed : RelationObserved) (asked : Assignment → Prop) (entailed : Prop) :
    AnswerSound (storedAnswer require relation reversed observed) asked entailed ↔
      (relationSatisfies require (seenObservation reversed observed) →
        ∀ assignment, asked assignment) ∧
      (¬ relationSatisfies require (seenObservation reversed observed) →
        ¬ relationSatisfies require observed → ¬ contradicts require observed →
        relation.Declares require → entailed) ∧
      (¬ relationSatisfies require (seenObservation reversed observed) →
        Decisive (seenObservation reversed observed) →
        (¬ relationSatisfies require observed → ¬ contradicts require observed →
          ¬ relation.Declares require) →
        ∀ assignment, ¬ asked assignment) := by
  simp only [storedAnswer, assumed_iff]
  constructor
  · rintro ⟨proven, refuted, conditional⟩
    refine ⟨fun satisfied => ?_, fun unmet own open_ declares => ?_, fun unmet decisive other => ?_⟩
    · exact proven (by simp [satisfied])
    · exact conditional (by simp [unmet, own, open_, declares])
    · obtain ⟨may, never, invalid⟩ := decisive
      have undeclared : ¬ (relation.Declares require ∧ ¬ relationSatisfies require observed ∧
          ¬ contradicts require observed) :=
        fun assumed => other assumed.2.1 assumed.2.2 assumed.1
      exact refuted (by simp only [unmet, undeclared, may, never, invalid, or_self, if_false,
        Bool.false_eq_true])
  · rintro ⟨proven, conditional, refuted⟩
    refine ⟨fun judged => ?_, fun judged => ?_, fun judged => ?_⟩ <;> split_ifs at judged
    · exact proven ‹_›
    · next unmet undeclared undecided =>
        simp only [not_or] at undecided
        exact refuted unmet undecided (fun own open_ declares => undeclared ⟨declares, own, open_⟩)
    · next unmet assumed => exact conditional unmet assumed.2.1 assumed.2.2 assumed.1

instance : Nonempty Assignment := ⟨⟨fun _ => 0, fun _ => 0⟩⟩

section Constant

variable (relation : CheckedRelation) (reversed : Bool) (pair : ConstantPair) (entailed : Prop)

/-- Equality of two constant spans, asked in either order. -/
theorem constant_equal_iff (declared : relation.Declares .equal → entailed) :
    AnswerSound (storedAnswer .equal relation reversed pair.observed)
      (fun _ => pair.left = pair.right) entailed ↔ pair.EqualRight := by
  have leftLe := toInt_le_max pair.leftOffset
  have rightLe := toInt_le_max pair.rightOffset
  simp only [answerSound_iff, forall_const, ConstantPair.left, ConstantPair.right, Span.mk.injEq,
    ConstantPair.EqualRight, ConstantPair.leftOuter_iff, ConstantPair.rightOuter_iff,
    ← UInt64.toNat_inj, ConstantPair.leftStop, ConstantPair.rightStop]
  rcases pair.observed_cases with ⟨observed, left, right⟩ | ⟨observed, left, right⟩ |
    ⟨observed, left, right⟩ | ⟨observed, left, right, _⟩ | ⟨observed, left, right, _⟩ <;>
    simp only [ConstantPair.leftOuter_iff, ConstantPair.rightOuter_iff] at left right <;>
    cases reversed <;>
    simp [observed, seenObservation, relationSatisfies, contradicts, Decisive]
  all_goals first | omega | grind

/-- Separation of two constant spans, asked in either order. -/
theorem constant_disjoint_iff :
    AnswerSound (storedAnswer .disjoint relation reversed pair.observed)
      (fun _ => pair.left.Apart pair.right) entailed ↔ pair.DisjointRight reversed := by
  have leftLe := toInt_le_max pair.leftOffset
  have rightLe := toInt_le_max pair.rightOffset
  simp only [answerSound_iff, forall_const, ConstantPair.left, ConstantPair.right,
    Span.apart_iff, ConstantPair.DisjointRight, ConstantPair.leftOuter_iff,
    ConstantPair.rightOuter_iff, ne_eq, ← UInt64.toNat_inj, ConstantPair.leftStop,
    ConstantPair.rightStop]
  rcases pair.observed_cases with ⟨observed, left, right⟩ | ⟨observed, left, right⟩ |
    ⟨observed, left, right⟩ | ⟨observed, left, right, ends⟩ | ⟨observed, left, right, ends⟩ <;>
    simp only [ConstantPair.leftOuter_iff, ConstantPair.rightOuter_iff,
      ConstantPair.clamp_leftStop, ConstantPair.clamp_rightStop] at * <;>
    cases reversed <;>
    simp [observed, seenObservation, relationSatisfies, contradicts, Decisive]
  all_goals omega

/-- Containment of two constant spans, asked in the stored order. -/
theorem constant_contains_iff (declared : relation.Declares .contains → entailed) :
    AnswerSound (storedAnswer .contains relation false pair.observed)
      (fun _ => pair.left.Covers pair.right) entailed ↔
      pair.ContainsRight (relation.Declares .contains) := by
  have leftLe := toInt_le_max pair.leftOffset
  have rightLe := toInt_le_max pair.rightOffset
  simp only [answerSound_iff, forall_const, ConstantPair.left, ConstantPair.right,
    Span.covers_iff_or, ConstantPair.ContainsRight, ConstantPair.leftOuter_iff,
    ConstantPair.rightOuter_iff, ne_eq, ← UInt64.toNat_inj, UInt64.lt_iff_toNat_lt,
    ConstantPair.leftStop, ConstantPair.rightStop]
  rcases pair.observed_cases with ⟨observed, left, right⟩ | ⟨observed, left, right⟩ |
    ⟨observed, left, right⟩ | ⟨observed, left, right, ends⟩ | ⟨observed, left, right, ends⟩ <;>
    simp only [ConstantPair.leftOuter_iff, ConstantPair.rightOuter_iff,
      ConstantPair.clamp_leftStop, ConstantPair.clamp_rightStop] at * <;>
    simp [observed, seenObservation, relationSatisfies, contradicts, Decisive]
  all_goals first | omega | grind

/-- Containment of two constant spans, asked in the reverse order. -/
theorem constant_reverse_contains_iff :
    AnswerSound (storedAnswer .contains relation true pair.observed)
      (fun _ => pair.right.Covers pair.left) entailed ↔
      pair.ReverseContainsRight (relation.Declares .contains) entailed := by
  have leftLe := toInt_le_max pair.leftOffset
  have rightLe := toInt_le_max pair.rightOffset
  simp only [answerSound_iff, forall_const, ConstantPair.left, ConstantPair.right,
    Span.covers_iff_or, ConstantPair.ReverseContainsRight, ConstantPair.leftOuter_iff,
    ConstantPair.rightOuter_iff, ne_eq, ← UInt64.toNat_inj, UInt64.lt_iff_toNat_lt,
    ConstantPair.leftStop, ConstantPair.rightStop]
  rcases pair.observed_cases with ⟨observed, left, right⟩ | ⟨observed, left, right⟩ |
    ⟨observed, left, right⟩ | ⟨observed, left, right, ends⟩ | ⟨observed, left, right, ends⟩ <;>
    simp only [ConstantPair.leftOuter_iff, ConstantPair.rightOuter_iff,
      ConstantPair.clamp_leftStop, ConstantPair.clamp_rightStop] at * <;>
    simp [observed, seenObservation, relationSatisfies, contradicts, Decisive]
  all_goals first | omega | grind

end Constant

/-- A row that observed nothing is right when its own declaration answers. -/
theorem undecided_iff (require : RelationRequire) (relation : CheckedRelation) (reversed : Bool)
    (asked : Assignment → Prop) (entailed : Prop)
    (own : relation.Declares require → ¬ (require = .contains ∧ reversed = true) → entailed) :
    AnswerSound (storedAnswer require relation reversed .mayOverlap) asked entailed ↔
      (require = .contains → reversed = true → relation.Declares .contains → entailed) := by
  rw [answerSound_iff]
  cases require <;> cases reversed <;>
    simp_all [seenObservation, relationSatisfies, contradicts, Decisive]

/-- Spans of one offset and one length parameter are the same span. -/
theorem span_eq_of_same (assignment : Assignment) (left right : CheckedRegion)
    (sameBase : left.baseParam = right.baseParam) (sameOffset : left.offset = right.offset)
    (sameLength : left.length = right.length) :
    left.span assignment = right.span assignment := by
  simp only [CheckedRegion.span, sameBase, sameOffset, sameLength]

/-- The question about one span and itself. -/
theorem asked_same (require : RelationRequire) (reversed : Bool) (assignment : Assignment)
    (left right : CheckedRegion) (same : left.span assignment = right.span assignment) :
    Asked require reversed assignment left right ↔
      require.Holds (left.span assignment) (left.span assignment) := by
  simp [Asked, same]

/-- Two regions of one symbolic length are equal, contain each other, and are
apart when that length is zero. -/
theorem symbolic_same_iff (require : RelationRequire) (relation : CheckedRelation)
    (reversed : Bool) (left right : CheckedRegion) (name : String) (entailed : Prop)
    (same : ∀ assignment, left.span assignment = right.span assignment)
    (symbolic : left.length = .param name)
    (follows : (∀ assignment, Asked require reversed assignment left right) → entailed) :
    AnswerSound (storedAnswer require relation reversed .provenEqual)
      (fun assignment => Asked require reversed assignment left right) entailed ↔
      require = .equal ∨ (require = .contains ∧ relation.Declares .contains) := by
  simp only [answerSound_iff, asked_same _ _ _ _ _ (same _)] at follows ⊢
  cases require with
  | equal => simp [seenObservation, relationSatisfies, RelationRequire.Holds]
  | disjoint =>
    let none_ : Assignment := ⟨fun _ => 0, fun _ => 0⟩
    have apart : (left.span none_).Apart (left.span none_) := by
      refine Span.apart_of_empty_left ?_ _
      simp [none_, CheckedRegion.span, symbolic, LengthSpec.bytes]
    simp only [seenObservation, relationSatisfies, contradicts, Decisive, RelationRequire.Holds]
    simp
    exact ⟨none_, apart⟩
  | contains =>
    have covers (assignment : Assignment) :
        RelationRequire.contains.Holds (left.span assignment) (left.span assignment) :=
      Span.covers_refl _
    have entails := follows covers
    simp [seenObservation, relationSatisfies, contradicts, Decisive, covers, entails]

/-- What the engine observes for a pair of regions, by the form of their lengths. -/
theorem observePair_constant (left right : CheckedRegion) (leftLength rightLength : UInt64)
    (sameBase : left.baseParam = right.baseParam)
    (leftLiteral : left.length = .literal leftLength)
    (rightLiteral : right.length = .literal rightLength) :
    (observePair left right).1 =
      ConstantPair.observed ⟨left.offset, leftLength, right.offset, rightLength⟩ := by
  simp only [observePair, sameBase, leftLiteral, rightLiteral, ne_eq, not_true_eq_false, if_false]
  exact ConstantPair.observeSpans_observed ⟨left.offset, leftLength, right.offset, rightLength⟩


/-- An answer read from one stored relation is right exactly under its condition. -/
theorem answer_right_iff (require : RelationRequire) (relation : CheckedRelation)
    (reversed : Bool) (left right : CheckedRegion) (entailed : Prop)
    (own : relation.Declares require → ¬ (require = .contains ∧ reversed = true) → entailed)
    (follows : (∀ assignment, Asked require reversed assignment left right) → entailed) :
    AnswerSound (storedAnswer require relation reversed (observePair left right).1)
      (fun assignment => Asked require reversed assignment left right) entailed ↔
      AnswerRight require relation reversed left right entailed := by
  by_cases sameBase : left.baseParam = right.baseParam
  · unfold AnswerRight
    split
    next leftLength rightLength leftLiteral rightLiteral =>
      rw [if_pos sameBase,
        observePair_constant left right leftLength rightLength sameBase leftLiteral rightLiteral]
      have forward (assignment : Assignment) := holds_constant_iff assignment require left right
        leftLength rightLength sameBase leftLiteral rightLiteral
      have backward (assignment : Assignment) := holds_constant_iff assignment require right left
        rightLength leftLength sameBase.symm rightLiteral leftLiteral
      cases require with
      | equal =>
        have asked (assignment : Assignment) : Asked .equal reversed assignment left right ↔
            ConstantPair.left ⟨left.offset, leftLength, right.offset, rightLength⟩ =
              ConstantPair.right ⟨left.offset, leftLength, right.offset, rightLength⟩ := by
          cases reversed
          · exact forward assignment
          · exact (backward assignment).trans eq_comm
        simp only [asked]
        exact constant_equal_iff _ _ _ _ (fun declares => own declares (by simp))
      | disjoint =>
        have asked (assignment : Assignment) : Asked .disjoint reversed assignment left right ↔
            (ConstantPair.left ⟨left.offset, leftLength, right.offset, rightLength⟩).Apart
              (ConstantPair.right ⟨left.offset, leftLength, right.offset, rightLength⟩) := by
          cases reversed
          · exact forward assignment
          · exact (backward assignment).trans (Span.apart_comm _ _)
        simp only [asked]
        exact constant_disjoint_iff _ _ _ _
      | contains =>
        cases reversed with
        | false =>
          have asked (assignment : Assignment) := forward assignment
          simp only [Asked, Bool.false_eq_true, if_false, asked]
          exact constant_contains_iff _ _ _ (fun declares => own declares (by simp))
        | true =>
          have asked (assignment : Assignment) := backward assignment
          simp only [Asked, if_true, asked]
          exact constant_reverse_contains_iff _ _ _
    next symbolic =>
      by_cases same : left.offset = right.offset ∧ left.length = right.length
      · obtain ⟨name, named⟩ : ∃ name, left.length = .param name := by
          cases stored : left.length with
          | param name => exact ⟨name, rfl⟩
          | literal bytes => exact (symbolic bytes bytes stored (same.2 ▸ stored)).elim
        have observed : (observePair left right).1 = .provenEqual := by
          simp [observePair, sameBase, ← same.2, same.1, named]
        rw [if_pos ⟨sameBase, same⟩, observed]
        exact symbolic_same_iff require relation reversed left right name entailed
          (fun assignment => span_eq_of_same assignment left right sameBase same.1 same.2)
          named follows
      · have observed : (observePair left right).1 = .mayOverlap := by
          simp only [observePair, sameBase, ne_eq, not_true_eq_false, if_false, same]
        rw [if_neg (fun all => same all.2), observed]
        exact undecided_iff require relation reversed _ entailed own
  · have observed : (observePair left right).1 = .mayOverlap := by
      simp [observePair, sameBase]
    rw [observed, undecided_iff require relation reversed _ entailed own]
    unfold AnswerRight
    split
    · rw [if_neg sameBase]
    · rw [if_neg (fun all => sameBase all.1)]

/-- The relation found for a pair is declared and names it in the reported order. -/
theorem pairRelation?_spec (left right : String) (relations : List CheckedRelation)
    (relation : CheckedRelation) (reversed : Bool)
    (found : pairRelation? left right relations = some (relation, reversed)) :
    relation ∈ relations ∧
      (if reversed then relation.left = right ∧ relation.right = left
        else relation.left = left ∧ relation.right = right) := by
  induction relations with
  | nil => simp [pairRelation?] at found
  | cons first rest inductionHypothesis =>
    simp only [pairRelation?] at found
    split_ifs at found with stored opposite
    · cases found
      exact ⟨List.mem_cons_self .., stored⟩
    · cases found
      exact ⟨List.mem_cons_self .., opposite⟩
    · obtain ⟨member, names⟩ := inductionHypothesis found
      exact ⟨List.mem_cons_of_mem _ member, names⟩

/-- The atom over the found regions is the question asked of them. -/
theorem related_iff_asked (memory : CheckedMemory) (assignment : Assignment)
    (require : RelationRequire) (left right : String) (relation : CheckedRelation)
    (reversed : Bool) (leftRegion rightRegion : CheckedRegion)
    (names : if reversed then relation.left = right ∧ relation.right = left
      else relation.left = left ∧ relation.right = right)
    (leftFound : memory.region? relation.left = some leftRegion)
    (rightFound : memory.region? relation.right = some rightRegion) :
    Related memory assignment require left right ↔
      Asked require reversed assignment leftRegion rightRegion := by
  cases reversed with
  | false =>
    obtain ⟨rfl, rfl⟩ := names
    simp [Related, Asked, leftFound, rightFound]
  | true =>
    obtain ⟨rfl, rfl⟩ := names
    simp [Related, Asked, leftFound, rightFound]

/-- Apart from containment the relations do not depend on the order. -/
theorem Related.symm {memory : CheckedMemory} {assignment : Assignment}
    {require : RelationRequire} {left right : String} (symmetric : require ≠ .contains)
    (related : Related memory assignment require left right) :
    Related memory assignment require right left := by
  obtain ⟨leftRegion, rightRegion, leftFound, rightFound, holds⟩ := related
  refine ⟨rightRegion, leftRegion, rightFound, leftFound, ?_⟩
  cases require with
  | disjoint => exact Span.apart_symm holds
  | equal => exact Eq.symm holds
  | contains => exact absurd rfl symmetric

/-- A declared precondition entails itself, and its converse when it is symmetric. -/
theorem entailed_of_declares (memory : CheckedMemory) (require : RelationRequire)
    (left right : String) (relation : CheckedRelation) (reversed : Bool)
    (member : relation ∈ memory.relations)
    (names : if reversed then relation.left = right ∧ relation.right = left
      else relation.left = left ∧ relation.right = right)
    (declares : relation.Declares require)
    (answers : ¬ (require = .contains ∧ reversed = true)) :
    Entailed memory require left right := by
  intro assignment preconditions
  have holds := preconditions relation member declares.2
  rw [declares.1] at holds
  cases reversed with
  | false =>
    obtain ⟨rfl, rfl⟩ := names
    exact holds
  | true =>
    obtain ⟨rfl, rfl⟩ := names
    exact holds.symm (fun containment => answers ⟨containment, rfl⟩)

/-- The judgement of a region atom is right exactly when the first relation
naming its pair answers it rightly.

Proof: an atom without a relation, or with an undeclared region, stays
undecided and promises nothing. Otherwise the judgement is read from the two
regions of that relation, which also decide what the atom says. -/
theorem atom_sound_iff (memory : CheckedMemory) (accesses : List ObservedMemoryAccess)
    (bindings : ExprBindings) (force : Bool) (spans : Fin 5 → SourceSpan)
    (require : RelationRequire) (left right : String) :
    AtomSound memory require left right
        (evalExpr (some (evaluateAlias memory accesses)) bindings force
          (regionsAtom spans require left right)).1 ↔
      AtomRight memory require left right := by
  have undecided (judgement : ExprJudgement) (same : judgement = .incomplete) :
      AtomSound memory require left right judgement := by
    subst same
    exact ⟨nofun, nofun, nofun⟩
  rw [evalExpr_regionsAtom]
  unfold AtomRight
  cases found : pairRelation? left right memory.relations with
  | none => exact iff_of_true (undecided _ rfl) nofun
  | some pair =>
    obtain ⟨relation, reversed⟩ := pair
    obtain ⟨member, names⟩ := pairRelation?_spec left right _ relation reversed found
    cases leftFound : memory.region? relation.left with
    | none =>
      refine iff_of_true (undecided _ (by simp [leftFound])) ?_
      rintro _ _ leftRegion _ same present
      cases same
      simp [leftFound] at present
    | some leftRegion =>
      cases rightFound : memory.region? relation.right with
      | none =>
        refine iff_of_true (undecided _ (by simp [leftFound, rightFound])) ?_
        rintro _ _ _ rightRegion same _ present
        cases same
        simp [rightFound] at present
      | some rightRegion =>
        have asked (assignment : Assignment) := related_iff_asked memory assignment require left
          right relation reversed leftRegion rightRegion names leftFound rightFound
        have right_iff := answer_right_iff require relation reversed leftRegion rightRegion
          (Entailed memory require left right)
          (entailed_of_declares memory require left right relation reversed member names)
          (fun holds assignment _ => (asked assignment).mpr (holds assignment))
        simp only [← asked] at right_iff
        simp only [leftFound, rightFound]
        constructor
        · rintro sound _ _ _ _ same leftSame rightSame
          cases same
          rw [leftFound] at leftSame
          rw [rightFound] at rightSame
          cases leftSame
          cases rightSame
          exact right_iff.mp ⟨sound.proven, sound.refuted, sound.conditional⟩
        · intro answers
          have sound := right_iff.mpr (answers relation reversed leftRegion rightRegion rfl
            leftFound rightFound)
          exact ⟨sound.proven, sound.refuted, sound.conditional⟩

/-- A block of two names for the same eight bytes. -/
def twoNamesSchema : MemoryBlockSchema where
  regions := [⟨"whole", "p", none, "8", "read"⟩, ⟨"copy", "p", some "0", "8", "write"⟩]
  relations := [⟨"whole", "copy", "equal", none⟩]

/-- The checked form of the block. -/
def twoNames : CheckedMemory where
  regions := [⟨"whole", "p", 0, .literal 8, .read⟩, ⟨"copy", "p", 0, .literal 8, .write⟩]
  relations := [⟨"whole", "copy", .equal, none⟩]

theorem twoNames_accepted : Accepted twoNames :=
  ⟨twoNamesSchema, [⟨"p", .ptr (.uint 8) true, none⟩], by decide⟩

/-- The evaluator refutes containment between two names of one span, although
each contains the other whatever the base address. -/
theorem equal_spans_refute_containment :
    Accepted twoNames ∧
      ¬ AtomSound twoNames .contains "whole" "copy"
        (evalExpr (some (evaluateAlias twoNames [])) ⟨fun _ => none, fun _ => none⟩ false
          (regionsAtom (fun _ => ⟨0, 0⟩) .contains "whole" "copy")).1 := by
  refine ⟨twoNames_accepted, fun sound => ?_⟩
  refine sound.refuted (by decide) ⟨fun _ => 0, fun _ => 0⟩ ⟨_, _, rfl, rfl, ?_⟩
  exact Span.covers_refl _

end Semasm.Contract
