import Semasm.Contract.AliasHonesty
import Mathlib.Data.List.Pairwise

/-!
# The alias slice and the expression slice on one relation

Both slices decide a required relation from the observation stored in its row. They
agree on proofs, on contradictions and on obligations of the caller, but for two
observations: a region that strictly covers the other one is no contradiction of a
required equality for the alias slice, and equal regions are none of a required
containment, while the expression slice refutes the atom in both cases.
-/

namespace Semasm.Contract

open Library Library.Saturation

/-- Two relations name the same two regions, in either order. -/
def SamePair (first second : CheckedRelation) : Prop :=
  first.left = second.left ∧ first.right = second.right ∨
    first.left = second.right ∧ first.right = second.left

/-- Each pair of regions is declared at most once. -/
def DeclaredOnce (memory : CheckedMemory) : Prop :=
  memory.relations.Pairwise (fun first second => ¬ SamePair first second)

namespace CheckedRelation

variable (memory : CheckedMemory) (relation : CheckedRelation)

/-- The relation is contradicted by its observation. -/
def Contradicted : Prop :=
  contradicts relation.require (relationRow memory relation).observed = true

instance : Decidable (relation.Contradicted memory) := inferInstanceAs (Decidable (_ = true))

/-- The regions of the relation have the same base, offset and length, or constant spans
that saturation makes the same. -/
def SeemsEqual : Prop :=
  (∃ pair, relation.pair? memory = some pair ∧ pair.LeftOuter ∧ pair.RightOuter) ∨
    ∃ left right, memory.region? relation.left = some left ∧
      memory.region? relation.right = some right ∧ left.baseParam = right.baseParam ∧
      left.offset = right.offset ∧ left.length = right.length

/-- The left region of the relation has a constant span that, after saturation, strictly
covers the right one. -/
def SeemsLarger : Prop :=
  ∃ pair, relation.pair? memory = some pair ∧ pair.LeftOuter ∧ ¬ pair.RightOuter

/-- The relation is not declared as a precondition and requires an equality of a region
with a strict part of it, or a containment between equal regions. -/
def Disputed : Prop :=
  relation.basis ≠ some .precondition ∧
    (relation.require = .equal ∧ relation.SeemsLarger memory ∨
      relation.require = .contains ∧ relation.SeemsEqual memory)

/-- The slices give one answer about the relation. -/
structure Agreed (accesses : List ObservedMemoryAccess) (judgement : ExprJudgement) : Prop where
  proven : judgement = .provenTrue ↔ relation.Met memory
  refuted : judgement = .provenFalse ↔ relation.Contradicted memory
  deferred : judgement = .trueUnderPrecondition ↔
    relation.obligation ∈ (evaluateAlias memory accesses).unresolvedObligations

end CheckedRelation

theorem samePair_symm {first second : CheckedRelation} (same : SamePair first second) :
    SamePair second first := by
  rcases same with ⟨left, right⟩ | ⟨left, right⟩
  · exact Or.inl ⟨left.symm, right.symm⟩
  · exact Or.inr ⟨right.symm, left.symm⟩

/-- A relation declared once is the only one for its pair. -/
theorem DeclaredOnce.eq {memory : CheckedMemory} (once : DeclaredOnce memory)
    {first second : CheckedRelation} (firstMember : first ∈ memory.relations)
    (secondMember : second ∈ memory.relations) (same : SamePair first second) : first = second := by
  by_contra different
  have symmetric : Std.Symm (fun first second => ¬ SamePair first second) :=
    ⟨fun _ _ apart same => apart (samePair_symm same)⟩
  exact List.Pairwise.forall once firstMember secondMember different same

/-- The relation found for its own pair is the relation itself, in its own order. -/
theorem pairRelation?_self (relations : List CheckedRelation) (relation : CheckedRelation)
    (member : relation ∈ relations)
    (once : relations.Pairwise (fun first second => ¬ SamePair first second)) :
    pairRelation? relation.left relation.right relations = some (relation, false) := by
  induction relations with
  | nil => cases member
  | cons first rest inductionHypothesis =>
    obtain ⟨apart, later⟩ := List.pairwise_cons.mp once
    rcases List.mem_cons.mp member with rfl | inRest
    · simp [pairRelation?]
    · have other := apart relation inRest
      have direct : ¬ (first.left = relation.left ∧ first.right = relation.right) :=
        fun same => other (Or.inl same)
      have crossed : ¬ (first.left = relation.right ∧ first.right = relation.left) :=
        fun same => other (Or.inr same)
      rw [pairRelation?, if_neg direct, if_neg crossed, inductionHypothesis inRest later]

section Observed

variable (left right : CheckedRegion)

/-- When the engine observes equal regions. -/
theorem observePair_equal_iff :
    (observePair left right).1 = .provenEqual ↔
      (∃ pair, constantPair? left right = some pair ∧ pair.LeftOuter ∧ pair.RightOuter) ∨
        left.baseParam = right.baseParam ∧ left.offset = right.offset ∧
          left.length = right.length := by
  cases constant : constantPair? left right with
  | some pair =>
    obtain ⟨sameBase, leftLiteral, rightLiteral, same⟩ :=
      constantPair?_some left right pair constant
    rw [observePair_constant left right _ _ sameBase leftLiteral rightLiteral, ← same]
    constructor
    · intro observed
      refine Or.inl ⟨pair, rfl, ?_⟩
      rcases pair.observed_cases with ⟨_, both⟩ | ⟨other, _⟩ | ⟨other, _⟩ | ⟨other, _⟩ | ⟨other, _⟩
      · exact both
      all_goals rw [other] at observed; cases observed
    · rintro (⟨_, found, both⟩ | ⟨_, sameOffset, sameLength⟩)
      · cases found
        exact if_pos both
      · rw [leftLiteral, rightLiteral, LengthSpec.literal.injEq] at sameLength
        rw [same, ← sameLength, ← sameOffset]
        exact if_pos ⟨⟨le_rfl, le_rfl⟩, le_rfl, le_rfl⟩
  | none =>
    rcases observePair_symbolic left right constant with observed | ⟨observed, same⟩
    · rw [observed]
      refine iff_of_false (by simp) ?_
      rintro (⟨_, found, _⟩ | ⟨sameBase, sameOffset, sameLength⟩)
      · cases found
      · rw [constantPair?, if_pos sameBase] at constant
        rw [observePair, if_neg (not_not.mpr sameBase)] at observed
        split at constant
        next => cases constant
        next symbolic =>
          split at observed
          next leftLength rightLength leftLiteral rightLiteral =>
            exact symbolic leftLength rightLength leftLiteral rightLiteral
          next => simp [sameOffset, sameLength] at observed
    · exact iff_of_true observed (Or.inr same)

/-- When the engine observes that the left region strictly covers the right one. -/
theorem observePair_contains_iff :
    (observePair left right).1 = .provenContains ↔
      ∃ pair, constantPair? left right = some pair ∧ pair.LeftOuter ∧ ¬ pair.RightOuter := by
  cases constant : constantPair? left right with
  | some pair =>
    obtain ⟨sameBase, leftLiteral, rightLiteral, same⟩ :=
      constantPair?_some left right pair constant
    rw [observePair_constant left right _ _ sameBase leftLiteral rightLiteral, ← same]
    simp only [Option.some.injEq, exists_eq_left']
    rcases pair.observed_cases with ⟨observed, outer, inner⟩ | ⟨observed, both⟩ |
      ⟨observed, outer, _⟩ | ⟨observed, outer, _⟩ | ⟨observed, outer, _⟩
    · simp [observed, inner]
    · simp [observed, both]
    · simp [observed, outer]
    · simp [observed, outer]
    · simp [observed, outer]
  | none =>
    rcases observePair_symbolic left right constant with observed | ⟨observed, _⟩
    · simp [observed]
    · simp [observed]

end Observed

/-- The two tables on one observation: they differ only where a requirement is neither
met, contradicted nor assumed although the observation decides it. -/
theorem tables_agree_iff (relation : CheckedRelation) (observed : RelationObserved)
    (basis : RelationEvidenceBasis)
    (assumed : basis = .declaredPrecondition ↔ relation.Assumed observed) :
    ((storedAnswer relation.require relation false observed = .provenTrue ↔
        relationSatisfies relation.require observed = true) ∧
      (storedAnswer relation.require relation false observed = .provenFalse ↔
        contradicts relation.require observed = true) ∧
      (storedAnswer relation.require relation false observed = .trueUnderPrecondition ↔
        relation.basis = some .precondition ∧ basis = .declaredPrecondition ∧
          relationSatisfies relation.require observed = false ∧
          contradicts relation.require observed = false)) ↔
      ¬ (relation.basis ≠ some .precondition ∧
        (relation.require = .equal ∧ observed = .provenContains ∨
          relation.require = .contains ∧ observed = .provenEqual)) := by
  rw [assumed]
  obtain ⟨left, right, require, declared⟩ := relation
  unfold storedAnswer CheckedRelation.Assumed
  by_cases precondition : declared = some .precondition
  · cases require <;> cases observed <;>
      simp [precondition, seenObservation, relationSatisfies, contradicts]
  · cases require <;> cases observed <;>
      simp [precondition, seenObservation, relationSatisfies, contradicts]

/-- The expression slice and the alias slice give one answer about a relation declared
once exactly when it is not disputed.

Proof: the atom is answered from the relation's own row, and its obligation entry is
recorded for no other relation; the rest is a comparison of the two tables. -/
theorem slices_agree_iff (memory : CheckedMemory) (once : DeclaredOnce memory)
    (accesses : List ObservedMemoryAccess) (bindings : ExprBindings) (force : Bool)
    (spans : Fin 5 → SourceSpan) (relation : CheckedRelation)
    (member : relation ∈ memory.relations) :
    relation.Agreed memory accesses
        (evalExpr (some (evaluateAlias memory accesses)) bindings force
          (regionsAtom spans relation.require relation.left relation.right)).1 ↔
      ¬ relation.Disputed memory := by
  have recorded : relation.obligation ∈ (evaluateAlias memory accesses).unresolvedObligations ↔
      relation.Deferred memory := by
    rw [unresolvedObligations_iff]
    constructor
    · rintro ⟨other, otherMember, deferred, same⟩
      have left := congrArg VerificationObligation.left same
      have right := congrArg VerificationObligation.right same
      rw [once.eq member otherMember (Or.inl ⟨left, right⟩)]
      exact deferred
    · exact fun deferred => ⟨relation, member, deferred, rfl⟩
  have answered (judgement : ExprJudgement) : relation.Agreed memory accesses judgement ↔
      (judgement = .provenTrue ↔ relation.Met memory) ∧
        (judgement = .provenFalse ↔ relation.Contradicted memory) ∧
        (judgement = .trueUnderPrecondition ↔ relation.Deferred memory) := by
    rw [← recorded]
    exact ⟨fun agreed => ⟨agreed.proven, agreed.refuted, agreed.deferred⟩,
      fun agreed => ⟨agreed.1, agreed.2.1, agreed.2.2⟩⟩
  rw [answered, evalExpr_regionsAtom, pairRelation?_self memory.relations relation member once]
  simp only [CheckedRelation.Met, CheckedRelation.Contradicted, CheckedRelation.Deferred,
    CheckedRelation.Disputed, CheckedRelation.SeemsEqual, CheckedRelation.SeemsLarger,
    CheckedRelation.pair?]
  cases leftFound : memory.region? relation.left with
  | none =>
    obtain ⟨observed, basis⟩ := relationRow_undeclared memory relation (Or.inl leftFound)
    rw [observed, basis]
    cases required : relation.require <;> simp [relationSatisfies, contradicts]
  | some left =>
    cases rightFound : memory.region? relation.right with
    | none =>
      obtain ⟨observed, basis⟩ := relationRow_undeclared memory relation (Or.inr rightFound)
      rw [observed, basis]
      cases required : relation.require <;> simp [relationSatisfies, contradicts]
    | some right =>
      obtain ⟨observed, assumed⟩ :=
        relationRow_declared memory relation left right leftFound rightFound
      rw [observed]
      have tables := tables_agree_iff relation (observePair left right).1 _ assumed
      rw [observePair_equal_iff, observePair_contains_iff] at tables
      refine tables.trans (not_congr (and_congr_right fun _ => ?_))
      simp

/-- Without a declared precondition the slices part on a region and its first half. -/
theorem slices_part_on_half :
    ∃ memory relation, Accepted memory ∧ DeclaredOnce memory ∧ relation ∈ memory.relations ∧
      (evalExpr (some (evaluateAlias memory [])) ⟨fun _ => none, fun _ => none⟩ false
        (regionsAtom (fun _ => ⟨0, 0⟩) relation.require relation.left relation.right)).1 =
          .provenFalse ∧
      ¬ relation.Contradicted memory := by
  refine ⟨⟨unequalHalf.regions, [⟨"whole", "half", .equal, none⟩]⟩,
    ⟨"whole", "half", .equal, none⟩, ?_, ?_, by simp, by decide, by decide⟩
  · exact ⟨⟨[⟨"whole", "p", none, "8", "read"⟩, ⟨"half", "p", some "0", "4", "write"⟩],
      [⟨"whole", "half", "equal", none⟩]⟩, [⟨"p", .ptr (.uint 8) true, none⟩], by decide⟩
  · exact List.pairwise_singleton _ _

/-- A region required to equal its first half as a precondition gets one answer. -/
theorem slices_agree_on_half :
    (CheckedRelation.mk "whole" "half" .equal (some .precondition)).Agreed unequalHalf []
        (evalExpr (some (evaluateAlias unequalHalf [])) ⟨fun _ => none, fun _ => none⟩ false
          (regionsAtom (fun _ => ⟨0, 0⟩) .equal "whole" "half")).1 ↔
      ¬ (CheckedRelation.mk "whole" "half" .equal (some .precondition)).Disputed unequalHalf :=
  slices_agree_iff unequalHalf (List.pairwise_singleton _ _) [] _ false _
    ⟨"whole", "half", .equal, some .precondition⟩ (List.mem_singleton.mpr rfl)

end Semasm.Contract
