import Semasm.Contract.ExprReport
import Semasm.Contract.AccessBounds
import Semasm.Library.Flags

/-!
# When each evidence slice passes

The status of a slice is read from flags that its rows raise. Each result here
states one status in terms of the rows alone, so that a reader of the report can
use it without the loop that computed it.
-/

namespace Semasm.Contract

open Library

/-- The row reports an access outside every region, or a forbidden mode. -/
def MemoryAccessEvidence.Refuted (row : MemoryAccessEvidence) : Prop :=
  row.bounds = .provenOutside ∨ row.permission = .denied
deriving Decidable

/-- The row leaves an obligation to the caller. -/
def MemoryAccessEvidence.Conditional (row : MemoryAccessEvidence) : Prop :=
  row.bounds = .mayEscape ∧ row.permission = .allowed ∧ row.evidenceBasis = .declaredPrecondition
deriving Decidable

/-- The row proves its access inside a permitting region. -/
def MemoryAccessEvidence.Settled (row : MemoryAccessEvidence) : Prop :=
  row.bounds = .provenInside ∧ row.permission = .allowed
deriving Decidable

/-- The row decides nothing. -/
def MemoryAccessEvidence.Undecided (row : MemoryAccessEvidence) : Prop :=
  ¬ row.Refuted ∧ ¬ row.Conditional ∧ ¬ row.Settled
deriving Decidable

namespace RegionAccessTally

variable (tally : RegionAccessTally) (row : MemoryAccessEvidence)

theorem add_anyFailed :
    (tally.add row).anyFailed = (tally.anyFailed || decide row.Refuted) := by
  unfold add MemoryAccessEvidence.Refuted
  split_ifs <;> simp_all

theorem add_anyIncomplete :
    (tally.add row).anyIncomplete = (tally.anyIncomplete || decide row.Undecided) := by
  obtain ⟨_, _, _, _, _, bounds, permission, basis⟩ := row
  unfold add MemoryAccessEvidence.Undecided MemoryAccessEvidence.Refuted
    MemoryAccessEvidence.Conditional MemoryAccessEvidence.Settled
  cases bounds <;> cases permission <;> cases basis <;> simp

theorem add_anyUnderPreconditions :
    (tally.add row).anyUnderPreconditions =
      (tally.anyUnderPreconditions || decide row.Conditional) := by
  obtain ⟨_, _, _, _, _, bounds, permission, basis⟩ := row
  unfold add MemoryAccessEvidence.Conditional
  cases bounds <;> cases permission <;> cases basis <;> simp

end RegionAccessTally

section Region

variable (rows : List MemoryAccessEvidence)

/-- The flags of the region-access slice, on its rows. -/
theorem regionAccess_flags :
    ((rows.foldl RegionAccessTally.add ⟨false, false, false⟩).anyFailed = true ↔
        ∃ row ∈ rows, row.Refuted) ∧
      ((rows.foldl RegionAccessTally.add ⟨false, false, false⟩).anyIncomplete = true ↔
        ∃ row ∈ rows, row.Undecided) ∧
      ((rows.foldl RegionAccessTally.add ⟨false, false, false⟩).anyUnderPreconditions = true ↔
        ∃ row ∈ rows, row.Conditional) := by
  have failed := foldl_flag RegionAccessTally.add (·.anyFailed) (fun row => decide row.Refuted)
    RegionAccessTally.add_anyFailed ⟨false, false, false⟩ rows
  have incomplete := foldl_flag RegionAccessTally.add (·.anyIncomplete)
    (fun row => decide row.Undecided) RegionAccessTally.add_anyIncomplete ⟨false, false, false⟩ rows
  have under := foldl_flag RegionAccessTally.add (·.anyUnderPreconditions)
    (fun row => decide row.Conditional) RegionAccessTally.add_anyUnderPreconditions
    ⟨false, false, false⟩ rows
  rw [failed, incomplete, under]
  simp

/-- A row counted as unknown is refuted or undecided. -/
theorem unknownRows_pos (counted : 0 < (unknownRows rows).length) :
    ∃ row ∈ rows, row.Refuted ∨ row.Undecided := by
  obtain ⟨row, member⟩ := List.exists_mem_of_length_pos counted
  obtain ⟨inRows, unknown⟩ := List.mem_filter.mp member
  refine ⟨row, inRows, ?_⟩
  obtain ⟨_, _, _, _, _, bounds, permission, basis⟩ := row
  unfold MemoryAccessEvidence.Undecided MemoryAccessEvidence.Refuted
    MemoryAccessEvidence.Conditional MemoryAccessEvidence.Settled
  cases bounds <;> cases permission <;> simp_all

/-- The status of the region-access slice on its rows: a refuted row first, then
an undecided one, then an obligation of the caller. -/
theorem regionAccessStatus_eq :
    regionAccessStatus rows =
      if ∃ row ∈ rows, row.Refuted then .failed
      else if ∃ row ∈ rows, row.Undecided then .incomplete
      else if ∃ row ∈ rows, row.Conditional then .passedUnderPreconditions
      else .passed := by
  obtain ⟨failed, incomplete, under⟩ := regionAccess_flags rows
  have counted := unknownRows_pos rows
  simp only [regionAccessStatus, failed, incomplete, under]
  by_cases refuted : ∃ row ∈ rows, row.Refuted
  · rw [if_pos refuted, if_pos refuted]
  · rw [if_neg refuted, if_neg refuted]
    refine if_congr ⟨?_, Or.inl⟩ rfl rfl
    rintro (undecided | some_)
    · exact undecided
    · obtain ⟨row, member, fails | undecided⟩ := counted some_
      · exact absurd ⟨row, member, fails⟩ refuted
      · exact ⟨row, member, undecided⟩

end Region

section Declared

variable (access : ObservedMemoryAccess)

/-- A row that may escape rests on a declaration only when its mode is allowed. -/
theorem evidenceMayEscape_conditional (address : String) (candidates : List CheckedRegion)
    (declared : (evidenceMayEscape access address candidates).evidenceBasis =
      .declaredPrecondition) :
    (evidenceMayEscape access address candidates).Conditional := by
  unfold evidenceMayEscape at declared ⊢
  split at declared
  · cases declared
  next region preferred =>
    simp only [ObservedMemoryAccess.evidence] at declared ⊢
    split at declared
    · split_ifs at declared with allowed
      exact ⟨rfl, allowed, by simp_all⟩
    · cases declared

/-- An affine row rests on a declaration only where its bounds stay open. -/
theorem judgeAffineAccess_conditional (memory : CheckedMemory) (baseParam : String)
    (offset : Int64)
    (declared : (judgeAffineAccess memory access baseParam offset).evidenceBasis =
      .declaredPrecondition) :
    (judgeAffineAccess memory access baseParam offset).Conditional := by
  simp only [judgeAffineAccess] at declared ⊢
  generalize (if offset = 0 then baseParam else s!"{baseParam}{Text.signed offset.toInt}") =
    address at declared ⊢
  by_cases unmatched : (memory.candidates baseParam).isEmpty
  · rw [if_pos unmatched] at declared
    cases declared
  · rw [if_neg unmatched] at declared ⊢
    split_ifs at declared ⊢
    · unfold evidenceProvenInside at declared
      split at declared <;> cases declared
    · cases declared
    · exact evidenceMayEscape_conditional access _ _ declared

/-- An indexed row rests on a declaration only when its mode is allowed. -/
theorem judgeIndexedAccess_conditional (memory : CheckedMemory) (baseParam : String)
    (scale : UInt8) (displacement : Int64)
    (declared : (judgeIndexedAccess memory access baseParam scale displacement).evidenceBasis =
      .declaredPrecondition) :
    (judgeIndexedAccess memory access baseParam scale displacement).Conditional := by
  simp only [judgeIndexedAccess] at declared ⊢
  split at declared
  · cases declared
  next region preferred =>
    simp only [ObservedMemoryAccess.evidence] at declared
    split_ifs at declared with denied
    refine ⟨rfl, ?_, by simp [ObservedMemoryAccess.evidence, denied]⟩
    unfold permissionOf at denied
    split_ifs at denied with allowed
    · simp [ObservedMemoryAccess.evidence, permissionOf, allowed]
    · exact absurd rfl denied

/-- A judged row that rests on a declared precondition is an obligation of the caller. -/
theorem conditional_of_declared (memory : CheckedMemory) (row : MemoryAccessEvidence)
    (judged : judgeAccess memory access = some row)
    (declared : row.evidenceBasis = .declaredPrecondition) : row.Conditional := by
  unfold judgeAccess at judged
  split at judged
  · cases judged
    cases declared
  · cases judged
  · cases judged
    exact judgeAffineAccess_conditional access _ _ _ declared
  · cases judged
    exact judgeAffineAccess_conditional access _ _ _ declared
  next baseParam scale displacement bound _ =>
    cases judged
    simp only [judgeIndexedRangeAccess] at declared ⊢
    split_ifs at declared ⊢
    · exact judgeIndexedAccess_conditional access _ _ _ _ declared
    · cases declared
    · exact judgeIndexedAccess_conditional access _ _ _ _ declared
  · cases judged
    exact judgeIndexedAccess_conditional access _ _ _ _ declared

end Declared

section Expressions

variable (rows : List ContractExprEvidence)

/-- A flag of the expression slice, on its rows. -/
theorem expr_flag (flag : ExprTally → Bool) (raises : ExprJudgement → Bool)
    (step : ∀ tally row, flag (tally.add row) = (flag tally || raises row.judgement))
    (down : flag ⟨false, false, false, false⟩ = false) :
    flag (rows.foldl ExprTally.add ⟨false, false, false, false⟩) = true ↔
      ∃ row ∈ rows, raises row.judgement = true := by
  rw [foldl_flag ExprTally.add flag (fun row => raises row.judgement) step, down, Bool.false_or,
    List.any_eq_true]

/-- The expression slice passes when every attempted row is proven and one was attempted. -/
theorem contractExprStatus_passed_iff :
    contractExprStatus rows = .passed ↔
      (∀ row ∈ rows, row.judgement = .provenTrue ∨ row.judgement = .notEvaluated) ∧
        ∃ row ∈ rows, row.judgement = .provenTrue := by
  have anyFalse := expr_flag rows (·.anyFalse) (· = .provenFalse)
    (fun tally row => by unfold ExprTally.add; split <;> simp_all) rfl
  have anyIncomplete := expr_flag rows (·.anyIncomplete) (· = .incomplete)
    (fun tally row => by unfold ExprTally.add; split <;> simp_all) rfl
  have anyUnder := expr_flag rows (·.anyUnderPrecondition) (· = .trueUnderPrecondition)
    (fun tally row => by unfold ExprTally.add; split <;> simp_all) rfl
  have anyTrue := expr_flag rows (·.anyTrue)
    (fun judgement => judgement = .provenTrue ∨ judgement = .trueUnderPrecondition)
    (fun tally row => by unfold ExprTally.add; split <;> simp_all) rfl
  simp only [contractExprStatus, anyFalse, anyIncomplete, anyUnder, anyTrue, decide_eq_true_eq]
  constructor
  · intro status
    split_ifs at status with refuted undecided conditional proven
    have each : ∀ row ∈ rows, row.judgement = .provenTrue ∨ row.judgement = .notEvaluated := by
      intro row member
      cases judged : row.judgement with
      | provenTrue => exact Or.inl rfl
      | notEvaluated => exact Or.inr rfl
      | provenFalse => exact absurd ⟨row, member, judged⟩ refuted
      | incomplete => exact absurd ⟨row, member, judged⟩ undecided
      | trueUnderPrecondition => exact absurd ⟨row, member, judged⟩ conditional
    obtain ⟨row, member, judged | judged⟩ := proven
    · exact ⟨each, row, member, judged⟩
    · exact absurd ⟨row, member, judged⟩ conditional
  · rintro ⟨each, row, member, judged⟩
    have none_ (bad : ExprJudgement) (notTrue : bad ≠ .provenTrue)
        (notSkipped : bad ≠ .notEvaluated) : ¬ ∃ row ∈ rows, row.judgement = bad := by
      rintro ⟨other, inRows, same⟩
      rcases each other inRows with proven | skipped
      · exact notTrue (same.symm.trans proven)
      · exact notSkipped (same.symm.trans skipped)
    have notFalse := none_ .provenFalse (by decide) (by decide)
    have notIncomplete := none_ .incomplete (by decide) (by decide)
    have notUnder := none_ .trueUnderPrecondition (by decide) (by decide)
    rw [if_neg notFalse, if_neg notIncomplete, if_neg notUnder,
      if_pos ⟨row, member, Or.inl judged⟩]

end Expressions

section Alias

variable (memory : CheckedMemory)

/-- The relation is met by its observation alone. -/
def CheckedRelation.Met (relation : CheckedRelation) : Prop :=
  relationSatisfies relation.require (relationRow memory relation).observed = true

/-- The loop over the relations and their rows is one over the relations. -/
theorem aliasTally_foldl :
    aliasTally memory = memory.relations.foldl
      (fun tally relation => tally.add relation (relationRow memory relation))
      ⟨false, false, false, []⟩ := by
  have zipped (relations : List CheckedRelation) :
      relations.zip (relations.map (relationRow memory)) =
        relations.map (fun relation => (relation, relationRow memory relation)) := by
    induction relations with
    | nil => rfl
    | cons relation rest inductionHypothesis => simp [inductionHypothesis]
  rw [aliasTally, zipped, List.foldl_map]

/-- A flag of the alias slice, on the declared relations. -/
theorem alias_flag (flag : AliasTally → Bool) (raises : CheckedRelation → Bool)
    (step : ∀ tally relation, flag (tally.add relation (relationRow memory relation)) =
      (flag tally || raises relation))
    (down : flag ⟨false, false, false, []⟩ = false) :
    flag (aliasTally memory) = true ↔ ∃ relation ∈ memory.relations, raises relation = true := by
  rw [aliasTally_foldl,
    foldl_flag (fun tally relation => tally.add relation (relationRow memory relation)) flag raises
      step, down, Bool.false_or, List.any_eq_true]

/-- The slice fails when some relation is contradicted by its observation. -/
theorem aliasTally_anyFailed :
    (aliasTally memory).anyFailed = true ↔ ∃ relation ∈ memory.relations,
      contradicts relation.require (relationRow memory relation).observed = true :=
  alias_flag memory (·.anyFailed)
    (fun relation => contradicts relation.require (relationRow memory relation).observed)
    (fun tally relation => by unfold AliasTally.add; split_ifs <;> simp_all) rfl

/-- An observation that meets a requirement does not contradict it. -/
theorem contradicts_of_satisfies (require : RelationRequire) (observed : RelationObserved)
    (satisfied : relationSatisfies require observed = true) :
    contradicts require observed = false := by
  cases require <;> cases observed <;> first | rfl | cases satisfied

/-- A relation that is not met raises one of the three flags. -/
theorem aliasTally_clear_iff :
    ((aliasTally memory).anyFailed = false ∧ (aliasTally memory).anyUnproven = false ∧
        (aliasTally memory).anyCallerObligation = false) ↔
      ∀ relation ∈ memory.relations, relation.Met memory := by
  have failed := aliasTally_anyFailed memory
  have unproven := alias_flag memory (·.anyUnproven)
    (fun relation => !contradicts relation.require (relationRow memory relation).observed &&
      !relationSatisfies relation.require (relationRow memory relation).observed &&
      !decide ((relationRow memory relation).evidenceBasis = .declaredPrecondition ∧
        relation.basis = some .precondition))
    (fun tally relation => by unfold AliasTally.add; split_ifs with _ _ assumed <;>
      simp_all only [Bool.not_eq_true, Bool.not_true, Bool.not_false, Bool.false_and,
        Bool.true_and, Bool.and_false, Bool.or_false, Bool.or_true, decide_true, decide_false,
        and_self]) rfl
  have obliged := alias_flag memory (·.anyCallerObligation)
    (fun relation => !contradicts relation.require (relationRow memory relation).observed &&
      !relationSatisfies relation.require (relationRow memory relation).observed &&
      decide ((relationRow memory relation).evidenceBasis = .declaredPrecondition ∧
        relation.basis = some .precondition))
    (fun tally relation => by unfold AliasTally.add; split_ifs <;> simp_all) rfl
  simp only [← Bool.not_eq_true, failed, unproven, obliged, CheckedRelation.Met]
  constructor
  · rintro ⟨notFailed, notUnproven, notObliged⟩ relation member
    by_contra unmet
    have quiet : contradicts relation.require (relationRow memory relation).observed = false :=
      Bool.eq_false_iff.mpr (fun raised => notFailed ⟨relation, member, raised⟩)
    by_cases assumed : (relationRow memory relation).evidenceBasis = .declaredPrecondition ∧
        relation.basis = some .precondition
    · exact notObliged ⟨relation, member, by simp [quiet, unmet, assumed]⟩
    · exact notUnproven ⟨relation, member, by simp [quiet, unmet, assumed]⟩
  · intro met
    refine ⟨?_, ?_, ?_⟩
    · rintro ⟨relation, member, raised⟩
      rw [contradicts_of_satisfies _ _ (met relation member)] at raised
      cases raised
    · rintro ⟨relation, member, raised⟩
      simp [met relation member] at raised
    · rintro ⟨relation, member, raised⟩
      simp [met relation member] at raised

/-- The alias slice passes when every relation is met and every address is modelled. -/
theorem evaluateAlias_passed_iff (accesses : List ObservedMemoryAccess) :
    (evaluateAlias memory accesses).status = .passed ↔
      (∀ relation ∈ memory.relations, relation.Met memory) ∧
        ∀ access ∈ accesses, access.addr ≠ .unknown := by
  have modelled : ¬ unknownMemoryAccesses accesses > 0 ↔
      ∀ access ∈ accesses, access.addr ≠ .unknown := by
    simp [unknownMemoryAccesses]
  rw [← aliasTally_clear_iff, ← modelled]
  simp only [evaluateAlias]
  constructor
  · intro status
    split_ifs at status with failed incomplete obliged
    simp_all
  · rintro ⟨⟨failed, unproven, obliged⟩, known⟩
    simp [failed, unproven, obliged, known]

/-- In a slice that passes no row rests on a declaration or contradicts its requirement. -/
theorem relationRow_of_met (relation : CheckedRelation) (met : relation.Met memory) :
    (relationRow memory relation).evidenceBasis ≠ .declaredPrecondition ∧
      contradicts relation.require (relationRow memory relation).observed = false := by
  refine ⟨fun declared => ?_, contradicts_of_satisfies _ _ met⟩
  unfold CheckedRelation.Met at met
  cases leftFound : memory.region? relation.left with
  | none =>
    rw [(relationRow_undeclared memory relation (Or.inl leftFound)).2] at declared
    cases declared
  | some left =>
    cases rightFound : memory.region? relation.right with
    | none =>
      rw [(relationRow_undeclared memory relation (Or.inr rightFound)).2] at declared
      cases declared
    | some right =>
      obtain ⟨observed, assumed⟩ := relationRow_declared memory relation left right leftFound
        rightFound
      rw [observed] at met
      exact (assumed.mp declared).2.1 met

end Alias

end Semasm.Contract
