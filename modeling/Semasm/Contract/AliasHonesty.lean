import Semasm.Contract.SliceStatus

/-!
# What the aggregate alias status says about the relations

A relation that is false for the exact spans of its two regions should fail the slice,
whatever the block declares besides. The comparison of saturated ends refutes it unless
the left span covers the right one after saturation: then a required equality is not
refuted at all, and a required containment not when only saturation makes it hold.
-/

namespace Semasm.Contract

open Library Library.Saturation

/-- The offsets and lengths of two literal regions of one base. -/
def constantPair? (left right : CheckedRegion) : Option ConstantPair :=
  if left.baseParam = right.baseParam then
    match left.length, right.length with
    | .literal leftLength, .literal rightLength =>
      some ⟨left.offset, leftLength, right.offset, rightLength⟩
    | _, _ => none
  else none

namespace CheckedRelation

variable (memory : CheckedMemory) (relation : CheckedRelation)

/-- The pair of the two regions a relation names. -/
def pair? : Option ConstantPair := do
  let left ← memory.region? relation.left
  let right ← memory.region? relation.right
  constantPair? left right

/-- The relation fails for the exact spans of its two regions. -/
def FalseExactly : Prop :=
  ∃ pair, relation.pair? memory = some pair ∧ ¬ relation.require.Holds pair.left pair.right

/-- The relation holds whatever the parameters are. -/
def StaticallyTrue : Prop :=
  ∀ assignment, Related memory assignment relation.require relation.left relation.right

/-- The entry that makes the relation an obligation of the caller. -/
def obligation : VerificationObligation :=
  ⟨s!"regions_{relation.require.asStr}", relation.left, relation.right, "caller"⟩

/-- The relation's row makes it an obligation of the caller. -/
def Deferred : Prop :=
  relation.basis = some .precondition ∧
    (relationRow memory relation).evidenceBasis = .declaredPrecondition ∧
    relationSatisfies relation.require (relationRow memory relation).observed = false ∧
    contradicts relation.require (relationRow memory relation).observed = false

instance : Decidable (relation.Deferred memory) := inferInstanceAs (Decidable (_ ∧ _))

end CheckedRelation

/-- A required relation that is false for a pair of spans but not refuted by their
saturated ends. -/
def ConstantPair.Overlooked (pair : ConstantPair) : RelationRequire → Prop
  | .disjoint => False
  | .equal => pair.LeftOuter ∧ (pair.RightOuter → pair.leftLength ≠ pair.rightLength)
  | .contains => pair.LeftOuter ∧ pair.rightLength ≠ 0 ∧ pair.leftStop < pair.rightStop

/-- The relation is overlooked for its two regions. -/
def CheckedRelation.Overlooked (memory : CheckedMemory) (relation : CheckedRelation) : Prop :=
  ∃ pair, relation.pair? memory = some pair ∧ pair.Overlooked relation.require

/-- A false relation is overlooked exactly when the observation does not contradict it. -/
theorem ConstantPair.overlooked_iff (pair : ConstantPair) (require : RelationRequire) :
    pair.Overlooked require ↔
      ¬ require.Holds pair.left pair.right ∧ contradicts require pair.observed = false := by
  have leftLe := toInt_le_max pair.leftOffset
  have rightLe := toInt_le_max pair.rightOffset
  cases require with
  | disjoint =>
    simp only [Overlooked, RelationRequire.Holds, left, right, Span.apart_iff, leftStop, rightStop]
    rcases pair.observed_cases with ⟨observed, _⟩ | ⟨observed, _⟩ | ⟨observed, _⟩ |
      ⟨observed, outer, inner, ends⟩ | ⟨observed, _⟩
    · simp [observed, contradicts]
    · simp [observed, contradicts]
    · simp [observed, contradicts]
    · simp only [observed, contradicts, leftOuter_iff, rightOuter_iff, clamp_leftStop,
        clamp_rightStop] at *
      simp only [and_true, false_iff, not_not]
      omega
    · simp [observed, contradicts]
  | equal =>
    simp only [Overlooked, RelationRequire.Holds, left, right, Span.mk.injEq, leftStop, rightStop,
      ne_eq, ← UInt64.toNat_inj]
    rcases pair.observed_cases with ⟨observed, outer, inner⟩ | ⟨observed, outer, inner⟩ |
      ⟨observed, outer, inner⟩ | ⟨observed, outer, inner, _⟩ | ⟨observed, outer, inner, _⟩ <;>
      simp only [observed, contradicts, outer, inner, true_and, false_and, and_false, and_true,
        forall_const, false_implies, Bool.true_eq_false]
    · rw [leftOuter_iff] at outer
      rw [rightOuter_iff] at inner
      omega
    · rw [leftOuter_iff] at outer
      rw [rightOuter_iff] at inner
      simp only [true_iff]
      omega
  | contains =>
    simp only [Overlooked, RelationRequire.Holds, left, right, Span.covers_iff_or, leftStop,
      rightStop, ne_eq, ← UInt64.toNat_inj]
    rcases pair.observed_cases with ⟨observed, outer, inner⟩ | ⟨observed, outer, inner⟩ |
      ⟨observed, outer, inner⟩ | ⟨observed, outer, inner, _⟩ | ⟨observed, outer, inner, _⟩ <;>
      simp only [observed, contradicts, outer, true_and, false_and, and_false, and_true,
        Bool.true_eq_false, UInt64.toNat_zero]
    · rw [leftOuter_iff] at outer
      omega
    · rw [leftOuter_iff] at outer
      omega

/-- The literal lengths and the common base behind a pair. -/
theorem constantPair?_some (left right : CheckedRegion) (pair : ConstantPair)
    (found : constantPair? left right = some pair) :
    left.baseParam = right.baseParam ∧ left.length = .literal pair.leftLength ∧
      right.length = .literal pair.rightLength ∧
      pair = ⟨left.offset, pair.leftLength, right.offset, pair.rightLength⟩ := by
  unfold constantPair? at found
  split_ifs at found with sameBase
  split at found
  next leftLength rightLength leftLiteral rightLiteral =>
    cases found
    exact ⟨sameBase, leftLiteral, rightLiteral, rfl⟩
  next => cases found

/-- Regions without a constant pair are the same span by name, or nothing is observed. -/
theorem observePair_symbolic (left right : CheckedRegion)
    (constant : constantPair? left right = none) :
    (observePair left right).1 = .mayOverlap ∨
      (observePair left right).1 = .provenEqual ∧ left.baseParam = right.baseParam ∧
        left.offset = right.offset ∧ left.length = right.length := by
  unfold constantPair? at constant
  unfold observePair
  by_cases sameBase : left.baseParam = right.baseParam
  · rw [if_pos sameBase] at constant
    rw [if_neg (not_not.mpr sameBase)]
    split at constant
    next => cases constant
    next symbolic =>
      have general : ∀ observed : RelationObserved × String × RelationEvidenceBasis,
          (observed = if left.offset = right.offset ∧ left.length = right.length
            then (.provenEqual, "same_base_same_offset_same_length_param", .provenStatic)
            else (.mayOverlap, "same_base_symbolic_length", .unknown)) →
          observed.1 = .mayOverlap ∨ observed.1 = .provenEqual ∧ left.baseParam = right.baseParam ∧
            left.offset = right.offset ∧ left.length = right.length := by
        rintro observed rfl
        split_ifs with same
        · exact Or.inr ⟨rfl, sameBase, same⟩
        · exact Or.inl rfl
      apply general
      cases leftLength : left.length with
      | param name => rfl
      | literal leftBytes =>
        cases rightLength : right.length with
        | param name => rfl
        | literal rightBytes => exact (symbolic leftBytes rightBytes leftLength rightLength).elim
  · rw [if_pos sameBase]
    exact Or.inl rfl

/-- An observation that decides nothing meets no requirement. -/
theorem relationSatisfies_undecided (require : RelationRequire) (observed : RelationObserved)
    (undecided : observed = .mayOverlap ∨ observed = .invalidRegion) :
    relationSatisfies require observed = false := by
  rcases undecided with rfl | rfl <;> cases require <;> rfl

section Rows

variable (memory : CheckedMemory) (relation : CheckedRelation)

/-- The regions behind the pair of a relation. -/
theorem CheckedRelation.pair?_some (pair : ConstantPair)
    (found : relation.pair? memory = some pair) :
    ∃ left right, memory.region? relation.left = some left ∧
      memory.region? relation.right = some right ∧ constantPair? left right = some pair := by
  simp only [pair?, Option.bind_eq_bind, Option.bind_eq_some_iff] at found
  obtain ⟨left, leftFound, right, rightFound, constant⟩ := found
  exact ⟨left, right, leftFound, rightFound, constant⟩

/-- The row of two literal regions of one base reports the comparison of their pair. -/
theorem relationRow_pair (pair : ConstantPair) (found : relation.pair? memory = some pair) :
    (relationRow memory relation).observed = pair.observed := by
  obtain ⟨left, right, leftFound, rightFound, constant⟩ := relation.pair?_some memory pair found
  obtain ⟨sameBase, leftLiteral, rightLiteral, same⟩ := constantPair?_some left right pair constant
  rw [(relationRow_declared memory relation left right leftFound rightFound).1,
    observePair_constant left right _ _ sameBase leftLiteral rightLiteral, ← same]

/-- A relation holds for its regions under every assignment when it does for their pair. -/
theorem staticallyTrue_of_pair (pair : ConstantPair) (found : relation.pair? memory = some pair)
    (holds : relation.require.Holds pair.left pair.right) : relation.StaticallyTrue memory := by
  obtain ⟨left, right, leftFound, rightFound, constant⟩ := relation.pair?_some memory pair found
  obtain ⟨sameBase, leftLiteral, rightLiteral, same⟩ := constantPair?_some left right pair constant
  intro assignment
  refine ⟨left, right, leftFound, rightFound, ?_⟩
  rw [holds_constant_iff assignment _ left right _ _ sameBase leftLiteral rightLiteral, ← same]
  exact holds

/-- A relation met by its observation holds, unless it is overlooked. -/
theorem staticallyTrue_of_met (met : relation.Met memory)
    (seen : ¬ relation.Overlooked memory) : relation.StaticallyTrue memory := by
  have quiet := (relationRow_of_met memory relation met).2
  cases constant : relation.pair? memory with
  | some pair =>
    rw [relationRow_pair memory relation pair constant] at quiet
    apply staticallyTrue_of_pair memory relation pair constant
    by_contra fails
    exact seen ⟨pair, constant, (pair.overlooked_iff relation.require).mpr ⟨fails, quiet⟩⟩
  | none =>
    unfold CheckedRelation.Met at met
    cases leftFound : memory.region? relation.left with
    | none =>
      rw [(relationRow_undeclared memory relation (Or.inl leftFound)).1,
        relationSatisfies_undecided _ _ (Or.inr rfl)] at met
      cases met
    | some left =>
      cases rightFound : memory.region? relation.right with
      | none =>
        rw [(relationRow_undeclared memory relation (Or.inr rightFound)).1,
          relationSatisfies_undecided _ _ (Or.inr rfl)] at met
        cases met
      | some right =>
        rw [(relationRow_declared memory relation left right leftFound rightFound).1] at met
        simp only [CheckedRelation.pair?, leftFound, rightFound, Option.bind_eq_bind,
          Option.bind_some] at constant
        rcases observePair_symbolic left right constant with
          observed | ⟨observed, sameBase, sameOffset, sameLength⟩
        · rw [observed, relationSatisfies_undecided _ _ (Or.inl rfl)] at met
          cases met
        · rw [observed] at met
          intro assignment
          refine ⟨left, right, leftFound, rightFound, ?_⟩
          have equal := span_eq_of_same assignment left right sameBase sameOffset sameLength
          cases required : relation.require with
          | equal => exact equal
          | disjoint => simp [required, relationSatisfies] at met
          | contains => simp [required, relationSatisfies] at met

/-- A round of the loop records an obligation for a deferred relation only. -/
theorem add_obligations (tally : AliasTally) (obligation : VerificationObligation) :
    obligation ∈ (tally.add relation (relationRow memory relation)).unresolvedObligations ↔
      obligation ∈ tally.unresolvedObligations ∨
        relation.Deferred memory ∧ obligation = relation.obligation := by
  have deferred : relation.Deferred memory ↔
      contradicts relation.require (relationRow memory relation).observed = false ∧
        relationSatisfies relation.require (relationRow memory relation).observed = false ∧
        (relationRow memory relation).evidenceBasis = .declaredPrecondition ∧
        relation.basis = some .precondition := by
    unfold CheckedRelation.Deferred
    tauto
  rw [deferred]
  unfold AliasTally.add
  split_ifs with failed satisfied assumed
  · simp [failed]
  · simp [satisfied]
  · simp [failed, satisfied, assumed, CheckedRelation.obligation]
  · simp [assumed]

/-- The obligations of the report are those of the deferred relations. -/
theorem unresolvedObligations_iff (accesses : List ObservedMemoryAccess)
    (obligation : VerificationObligation) :
    obligation ∈ (evaluateAlias memory accesses).unresolvedObligations ↔
      ∃ relation ∈ memory.relations, relation.Deferred memory ∧
        obligation = relation.obligation := by
  have general (relations : List CheckedRelation) (tally : AliasTally) :
      obligation ∈ (relations.foldl (fun tally relation =>
          tally.add relation (relationRow memory relation)) tally).unresolvedObligations ↔
        obligation ∈ tally.unresolvedObligations ∨
          ∃ relation ∈ relations, relation.Deferred memory ∧
            obligation = relation.obligation := by
    induction relations generalizing tally with
    | nil => simp
    | cons relation rest inductionHypothesis =>
      rw [List.foldl_cons, inductionHypothesis, add_obligations, or_assoc]
      simp only [List.mem_cons, exists_eq_or_imp]
  have listed := general memory.relations ⟨false, false, false, []⟩
  rw [← aliasTally_foldl] at listed
  exact listed.trans (by simp)

end Rows

/-- The slice fails when a relation is contradicted by its observation. -/
theorem evaluateAlias_failed_iff (memory : CheckedMemory) (accesses : List ObservedMemoryAccess) :
    (evaluateAlias memory accesses).status = .failed ↔ ∃ relation ∈ memory.relations,
      contradicts relation.require (relationRow memory relation).observed = true := by
  rw [← aliasTally_anyFailed]
  simp only [evaluateAlias]
  split_ifs <;> simp_all

/-- Whatever else a block declares, the status accounts for a relation exactly when the
comparison of its saturated spans does not overlook it.

Proof: a false relation that is not overlooked is contradicted, which fails the slice and
keeps it off the obligations; one met by its observation is true. An overlooked relation
alone in its block does not fail the slice. -/
theorem evaluateAlias_honest_iff (regions : List CheckedRegion) (relation : CheckedRelation) :
    (∀ relations accesses, relation ∈ relations →
      (relation.FalseExactly ⟨regions, relations⟩ →
        (evaluateAlias ⟨regions, relations⟩ accesses).status = .failed ∧
          relation.obligation ∉
            (evaluateAlias ⟨regions, relations⟩ accesses).unresolvedObligations) ∧
      ((evaluateAlias ⟨regions, relations⟩ accesses).status = .passed →
        relation.StaticallyTrue ⟨regions, relations⟩ ∧
          ∀ access ∈ accesses, access.addr ≠ .unknown)) ↔
      ¬ relation.Overlooked ⟨regions, []⟩ := by
  constructor
  · rintro honest ⟨pair, found, overlooked⟩
    obtain ⟨fails, quiet⟩ := (pair.overlooked_iff relation.require).mp overlooked
    have status := ((honest [relation] [] (by simp)).1 ⟨pair, found, fails⟩).1
    obtain ⟨other, member, raised⟩ := (evaluateAlias_failed_iff _ _).mp status
    obtain rfl := List.mem_singleton.mp member
    rw [relationRow_pair ⟨regions, [other]⟩ other pair found, quiet] at raised
    cases raised
  · intro seen relations accesses member
    refine ⟨?_, ?_⟩
    · rintro ⟨pair, found, fails⟩
      have observed := relationRow_pair ⟨regions, relations⟩ relation pair found
      have raised : contradicts relation.require pair.observed = true := by
        by_contra quiet
        exact seen ⟨pair, found, (pair.overlooked_iff relation.require).mpr
          ⟨fails, Bool.eq_false_iff.mpr quiet⟩⟩
      refine ⟨(evaluateAlias_failed_iff _ _).mpr ⟨relation, member, observed ▸ raised⟩, ?_⟩
      rw [unresolvedObligations_iff]
      rintro ⟨other, _, deferred, same⟩
      -- A deferred relation with the same entry has the same row.
      have required : other.require = relation.require := by
        have kinds := congrArg VerificationObligation.kind same
        have names : toString other.require.asStr = toString relation.require.asStr := by
          simpa [CheckedRelation.obligation] using kinds.symm
        exact RelationRequire.asStr_injective names
      have left : other.left = relation.left := (congrArg VerificationObligation.left same).symm
      have right : other.right = relation.right :=
        (congrArg VerificationObligation.right same).symm
      have otherFound : other.pair? ⟨regions, relations⟩ = some pair := by
        rw [CheckedRelation.pair?, left, right]
        exact found
      have quiet := deferred.2.2.2
      rw [relationRow_pair ⟨regions, relations⟩ other pair otherFound, required, raised] at quiet
      cases quiet
    · intro passed
      obtain ⟨met, modelled⟩ := (evaluateAlias_passed_iff ⟨regions, relations⟩ accesses).mp passed
      exact ⟨staticallyTrue_of_met ⟨regions, relations⟩ relation (met relation member) seen,
        modelled⟩

/-- A block that requires a region to equal its own first half. -/
def unequalHalf : CheckedMemory where
  regions := [⟨"whole", "p", 0, .literal 8, .read⟩, ⟨"half", "p", 0, .literal 4, .write⟩]
  relations := [⟨"whole", "half", .equal, some .precondition⟩]

theorem unequalHalf_accepted : Accepted unequalHalf :=
  ⟨⟨[⟨"whole", "p", none, "8", "read"⟩, ⟨"half", "p", some "0", "4", "write"⟩],
    [⟨"whole", "half", "equal", some "precondition"⟩]⟩, [⟨"p", .ptr (.uint 8) true, none⟩],
    by decide⟩

/-- A false equality of a region and its first half is passed on to the caller. -/
theorem unequalHalf_is_deferred :
    Accepted unequalHalf ∧ ∃ relation ∈ unequalHalf.relations,
      relation.FalseExactly unequalHalf ∧
        (evaluateAlias unequalHalf []).status = .passedUnderPreconditions ∧
        relation.obligation ∈ (evaluateAlias unequalHalf []).unresolvedObligations := by
  refine ⟨unequalHalf_accepted, ⟨"whole", "half", .equal, some .precondition⟩, by simp [unequalHalf],
    ⟨⟨0, 8, 0, 4⟩, rfl, ?_⟩, by decide, ?_⟩
  · intro same
    exact absurd (congrArg Span.stop same) (by decide)
  · rw [unresolvedObligations_iff]
    exact ⟨_, by simp [unequalHalf], by decide, rfl⟩

end Semasm.Contract
