import Semasm.Agent.Verify
import Semasm.Contract.SliceStatus

/-!
# What a verified status says

Attaching a slice changes the status in one of three ways: it keeps it, it lowers
verified to verified under preconditions, or it makes it a failure. These three
commute, so the order of attachment does not matter, and none of them raises the
status. A verified report therefore had every gate, every case and every slice
in order, with one exception: an incomplete region-access slice keeps the
status, and an undecided row makes the slice incomplete even when another row
rests on a declared precondition.
-/

namespace Semasm.Agent

open Contract

/-- The three ways a slice changes the status. -/
inductive Change where
  | keep | demote | fail
deriving DecidableEq

/-- The status after a change. -/
def Change.apply : Change → VerificationStatus → VerificationStatus
  | .keep, status => status
  | .demote, status => VerificationReport.demoted status
  | .fail, _ => .semanticFailed

/-- The change a slice makes. -/
def Slice.change : Slice → Change
  | .aliasAnalysis slice =>
    match slice.status with
    | .passed => .keep
    | .passedUnderPreconditions => .demote
    | .incomplete | .failed => .fail
  | .regionAccess slice =>
    match slice.status with
    | .passed | .incomplete => .keep
    | .passedUnderPreconditions => .demote
    | .failed => .fail
  | .contractExpressions slice =>
    match slice.status with
    | .passed => .keep
    | .passedUnderPreconditions => .demote
    | .incomplete | .failed => .fail

/-- How strong a status is: verified, verified under preconditions, anything else. -/
def VerificationStatus.strength : VerificationStatus → Nat
  | .verified => 2
  | .verifiedUnderPreconditions => 1
  | _ => 0

theorem attach_status (report : VerificationReport) (slice : Slice) :
    (report.attach slice).status = slice.change.apply report.status := by
  cases slice with
  | aliasAnalysis slice =>
    simp only [VerificationReport.attach, VerificationReport.withAliasAnalysis, Slice.change]
    cases slice.status <;> rfl
  | regionAccess slice =>
    simp only [VerificationReport.attach, VerificationReport.withRegionAccess, Slice.change]
    cases slice.status <;> rfl
  | contractExpressions slice =>
    simp only [VerificationReport.attach, VerificationReport.withContractExpressions, Slice.change]
    cases slice.status <;> rfl

/-- Two changes have one result in either order. -/
theorem Change.apply_comm (first second : Change) (status : VerificationStatus) :
    first.apply (second.apply status) = second.apply (first.apply status) := by
  cases first <;> cases second <;> cases status <;> rfl

/-- No change makes a status stronger. -/
theorem Change.apply_strength_le (change : Change) (status : VerificationStatus) :
    (change.apply status).strength ≤ status.strength := by
  cases change <;> cases status <;> decide

/-- Only an unchanged verified status is verified. -/
theorem Change.apply_eq_verified_iff (change : Change) (status : VerificationStatus) :
    change.apply status = .verified ↔ change = .keep ∧ status = .verified := by
  cases change <;> cases status <;> simp [Change.apply, VerificationReport.demoted]

/-- The status after a list of slices is that of their changes. -/
theorem foldl_attach_status (slices : List Slice) (report : VerificationReport) :
    (slices.foldl .attach report).status =
      slices.foldl (fun status slice => slice.change.apply status) report.status := by
  induction slices generalizing report with
  | nil => rfl
  | cons slice rest inductionHypothesis =>
    rw [List.foldl_cons, List.foldl_cons, inductionHypothesis, attach_status]

/-- The order of attachment does not change the status. -/
theorem attach_perm_status (slices permuted : List Slice) (order : permuted.Perm slices)
    (report : VerificationReport) :
    (permuted.foldl .attach report).status = (slices.foldl .attach report).status := by
  rw [foldl_attach_status, foldl_attach_status]
  exact order.foldl_eq' (fun first _ second _ status =>
    Change.apply_comm second.change first.change status) report.status

/-- The attached report is verified when it was before and every slice keeps it. -/
theorem foldl_attach_verified_iff (slices : List Slice) (report : VerificationReport) :
    (slices.foldl .attach report).status = .verified ↔
      report.status = .verified ∧ ∀ slice ∈ slices, slice.change = .keep := by
  induction slices generalizing report with
  | nil => simp
  | cons slice rest inductionHypothesis =>
    rw [List.foldl_cons, inductionHypothesis, attach_status, Change.apply_eq_verified_iff]
    simp only [List.mem_cons, forall_eq_or_imp]
    constructor
    · rintro ⟨⟨kept, verified⟩, others⟩
      exact ⟨verified, kept, others⟩
    · rintro ⟨verified, kept, others⟩
      exact ⟨⟨kept, verified⟩, others⟩

/-- Every harness case was run and passed. -/
def Candidate.CasesPass (candidate : Candidate) : Prop :=
  ∃ results, candidate.cases = some results ∧ ∀ result ∈ results, result.passed = true

/-- The report is verified before slices when the gates and the cases passed. -/
theorem base_verified_iff (candidate : Candidate) :
    candidate.base.status = .verified ↔
      candidate.semantic.allPassed = true ∧ candidate.executable.status ≠ .failed ∧
        candidate.CasesPass := by
  simp only [Candidate.base, VerificationReport.fromParts, Candidate.CasesPass]
  cases gates : candidate.semantic.allPassed with
  | false => simp
  | true =>
    by_cases failed : candidate.executable.status = .failed
    · simp [failed]
    · cases cases_ : candidate.cases with
      | none => simp [failed]
      | some results => simp [failed, HarnessReport.ofCases]

/-- What a verified status promises. -/
structure VerifiedMeans (candidate : Candidate) : Prop where
  gates : candidate.semantic.allPassed = true
  cases : candidate.CasesPass
  aliases : ∀ report, candidate.aliases = some report → ∀ row ∈ report.relations,
    row.evidenceBasis ≠ .declaredPrecondition ∧
      ∀ require, row.required = RelationRequire.asStr require →
        contradicts require row.observed = false
  regions : ∀ report, candidate.regions = some report → ∀ row ∈ report.accesses,
    row.evidenceBasis ≠ .declaredPrecondition ∧ row.bounds ≠ .provenOutside ∧
      row.permission ≠ .denied
  expressions : ∀ report, candidate.expressions = some report → ∀ row ∈ report.expressions,
    row.judgement ≠ .provenFalse ∧ row.judgement ≠ .incomplete ∧
      row.judgement ≠ .trueUnderPrecondition

/-- The status does not depend on the order of attachment, a verified one keeps
its promises, and attaching never strengthens it. -/
structure StatusHonest (candidate : Candidate) : Prop where
  order : ∀ permuted : List Slice, permuted.Perm candidate.slices →
    (permuted.foldl .attach candidate.base).status = candidate.final.status
  verified : candidate.final.status = .verified → VerifiedMeans candidate
  lowers : ∀ (report : VerificationReport) (slice : Slice),
    (report.attach slice).status.strength ≤ report.status.strength

/-- An undecided access hides a caller obligation of an otherwise clean candidate:
the gates and the cases pass, every declared relation is met and every address
modelled, every condition is proven or skipped, no access is refuted, one access
rests on a declared precondition and another one is undecided. -/
structure Masked (candidate : Candidate) : Prop where
  gates : candidate.semantic.allPassed = true
  executable : candidate.executable.status ≠ .failed
  cases : candidate.CasesPass
  block : ∃ memory, candidate.contract.memory = some memory ∧
    (∀ relation ∈ memory.relations, relation.Met memory) ∧
    (∀ access ∈ candidate.accesses, access.addr ≠ .unknown) ∧
    (∀ row ∈ candidate.accesses.filterMap (judgeAccess memory), ¬ row.Refuted) ∧
    (∃ row ∈ candidate.accesses.filterMap (judgeAccess memory), row.Conditional) ∧
    ∃ row ∈ candidate.accesses.filterMap (judgeAccess memory), row.Undecided
  conditions : ∀ row ∈ expressionRows candidate.contract candidate.aliases candidate.bindings,
    row.judgement = .provenTrue ∨ row.judgement = .notEvaluated

/-- A slice keeps the status exactly in these states. -/
theorem change_contractExpressions_keep (report : ContractExprReport) :
    (Slice.contractExpressions report).change = .keep ↔ report.status = .passed := by
  simp only [Slice.change]
  cases report.status <;> simp

theorem change_aliasAnalysis_keep (report : AliasAnalysisReport) :
    (Slice.aliasAnalysis report).change = .keep ↔ report.status = .passed := by
  simp only [Slice.change]
  cases report.status <;> simp

theorem change_regionAccess_keep (report : RegionAccessReport) :
    (Slice.regionAccess report).change = .keep ↔
      report.status = .passed ∨ report.status = .incomplete := by
  simp only [Slice.change]
  cases report.status <;> simp

/-- The expression slice keeps the status when every row is proven or skipped. -/
theorem expressions_keep_iff (candidate : Candidate) :
    (∀ report, candidate.expressions = some report →
        (Slice.contractExpressions report).change = .keep) ↔
      ∀ row ∈ expressionRows candidate.contract candidate.aliases candidate.bindings,
        row.judgement = .provenTrue ∨ row.judgement = .notEvaluated := by
  simp only [change_contractExpressions_keep, Candidate.expressions, evaluateContractExpressions]
  generalize expressionRows candidate.contract candidate.aliases candidate.bindings = rows
  by_cases skipped : rows.all (fun row => decide (row.judgement = .notEvaluated)) = true
  · rw [if_pos skipped]
    refine iff_of_true nofun (fun row member => Or.inr ?_)
    exact of_decide_eq_true (List.all_eq_true.mp skipped row member)
  · rw [if_neg skipped]
    constructor
    · intro kept
      exact ((contractExprStatus_passed_iff rows).mp (kept _ rfl)).1
    · intro each report same
      cases same
      refine (contractExprStatus_passed_iff rows).mpr ⟨each, ?_⟩
      by_contra none_
      refine skipped (List.all_eq_true.mpr (fun row member => decide_eq_true ?_))
      exact (each row member).resolve_left (fun proven => none_ ⟨row, member, proven⟩)

/-- The region-access slice keeps the status when no row is refuted and no
obligation stands without an undecided row. -/
theorem regionAccess_keep_iff (memory : CheckedMemory) (accesses : List ObservedMemoryAccess) :
    (Slice.regionAccess (evaluateRegionAccess memory accesses)).change = .keep ↔
      (∀ row ∈ accesses.filterMap (judgeAccess memory), ¬ row.Refuted) ∧
        ((∃ row ∈ accesses.filterMap (judgeAccess memory), row.Conditional) →
          ∃ row ∈ accesses.filterMap (judgeAccess memory), row.Undecided) := by
  rw [change_regionAccess_keep]
  simp only [evaluateRegionAccess, regionAccessStatus_eq]
  generalize accesses.filterMap (judgeAccess memory) = rows
  by_cases refuted : ∃ row ∈ rows, row.Refuted
  · simp only [if_pos refuted]
    refine iff_of_false nofun (fun both => ?_)
    obtain ⟨row, member, fails⟩ := refuted
    exact both.1 row member fails
  · have clean : ∀ row ∈ rows, ¬ row.Refuted := fun row member fails => refuted ⟨row, member, fails⟩
    rw [if_neg refuted]
    by_cases undecided : ∃ row ∈ rows, row.Undecided
    · simpa [undecided] using clean
    · by_cases conditional : ∃ row ∈ rows, row.Conditional
      · simp [undecided, conditional]
      · simpa [undecided, conditional] using clean

/-- A report is verified with all its slices exactly in this case. -/
theorem final_verified_iff (candidate : Candidate) :
    candidate.final.status = .verified ↔
      (candidate.semantic.allPassed = true ∧ candidate.executable.status ≠ .failed ∧
        candidate.CasesPass) ∧
      (∀ memory, candidate.contract.memory = some memory →
        ((∀ relation ∈ memory.relations, relation.Met memory) ∧
          ∀ access ∈ candidate.accesses, access.addr ≠ .unknown) ∧
        (∀ row ∈ candidate.accesses.filterMap (judgeAccess memory), ¬ row.Refuted) ∧
          ((∃ row ∈ candidate.accesses.filterMap (judgeAccess memory), row.Conditional) →
            ∃ row ∈ candidate.accesses.filterMap (judgeAccess memory), row.Undecided)) ∧
      ∀ row ∈ expressionRows candidate.contract candidate.aliases candidate.bindings,
        row.judgement = .provenTrue ∨ row.judgement = .notEvaluated := by
  rw [Candidate.final, foldl_attach_verified_iff, base_verified_iff, ← expressions_keep_iff]
  have slices : (∀ slice ∈ candidate.slices, slice.change = .keep) ↔
      (∀ report, candidate.aliases = some report → (Slice.aliasAnalysis report).change = .keep) ∧
      (∀ report, candidate.regions = some report → (Slice.regionAccess report).change = .keep) ∧
      ∀ report, candidate.expressions = some report →
        (Slice.contractExpressions report).change = .keep := by
    simp only [Candidate.slices, List.mem_append, List.mem_map, Option.mem_toList]
    constructor
    · intro kept
      exact ⟨fun report some_ => kept _ (Or.inl (Or.inl ⟨report, some_, rfl⟩)),
        fun report some_ => kept _ (Or.inl (Or.inr ⟨report, some_, rfl⟩)),
        fun report some_ => kept _ (Or.inr ⟨report, some_, rfl⟩)⟩
    · rintro ⟨aliases, regions, expressions⟩ slice
        ((⟨report, some_, rfl⟩ | ⟨report, some_, rfl⟩) | ⟨report, some_, rfl⟩)
      · exact aliases report some_
      · exact regions report some_
      · exact expressions report some_
  rw [slices]
  refine and_congr_right (fun _ => ?_)
  rw [← and_assoc]
  refine and_congr_left (fun _ => ?_)
  simp only [Candidate.aliases, Candidate.regions, Option.map_eq_some_iff]
  constructor
  · rintro ⟨aliases, regions⟩ memory declared
    refine ⟨(evaluateAlias_passed_iff memory _).mp ?_, (regionAccess_keep_iff memory _).mp ?_⟩
    · exact (change_aliasAnalysis_keep _).mp (aliases _ ⟨memory, declared, rfl⟩)
    · exact regions _ ⟨memory, declared, rfl⟩
  · intro block
    constructor
    · rintro _ ⟨memory, declared, rfl⟩
      exact (change_aliasAnalysis_keep _).mpr
        ((evaluateAlias_passed_iff memory _).mpr (block memory declared).1)
    · rintro _ ⟨memory, declared, rfl⟩
      exact (regionAccess_keep_iff memory _).mpr (block memory declared).2

/-- A verified report without a masked obligation keeps its promises. -/
theorem verifiedMeans_of_not_masked (candidate : Candidate)
    (verified : candidate.final.status = .verified) (unmasked : ¬ Masked candidate) :
    VerifiedMeans candidate := by
  obtain ⟨⟨gates, executable, cases_⟩, block, conditions⟩ := (final_verified_iff candidate).mp verified
  refine ⟨gates, cases_, ?_, ?_, ?_⟩
  · intro report same row member
    obtain ⟨memory, declared, rfl⟩ := Option.map_eq_some_iff.mp same
    obtain ⟨relation, inBlock, rfl⟩ := List.mem_map.mp member
    obtain ⟨own, agrees⟩ := relationRow_of_met memory relation ((block memory declared).1.1 _ inBlock)
    refine ⟨own, fun require required => ?_⟩
    have named : relation.require = require := RelationRequire.asStr_injective required
    exact named ▸ agrees
  · intro report same row member
    obtain ⟨memory, declared, rfl⟩ := Option.map_eq_some_iff.mp same
    obtain ⟨⟨met, known⟩, clean, masking⟩ := block memory declared
    refine ⟨fun basis => ?_, fun outside => clean row member (Or.inl outside),
      fun denied => clean row member (Or.inr denied)⟩
    obtain ⟨access, _, judged⟩ := List.mem_filterMap.mp member
    have conditional := conditional_of_declared access memory row judged basis
    exact unmasked ⟨gates, executable, cases_, ⟨memory, declared, met, known, clean,
      ⟨row, member, conditional⟩, masking ⟨row, member, conditional⟩⟩, conditions⟩
  · intro report same row member
    have rows : report.expressions =
        expressionRows candidate.contract candidate.aliases candidate.bindings := by
      simp only [Candidate.expressions, evaluateContractExpressions] at same
      split_ifs at same
      cases same
      rfl
    rw [rows] at member
    rcases conditions row member with judged | judged <;> simp [judged]

/-- The status is honest exactly when no undecided access masks an obligation.

Proof: order and strength are facts about single changes. A verified status
leaves only the row that rests on a declared precondition, and such a row stands
beside an undecided one. Conversely a masked candidate is verified. -/
theorem statusHonest_iff (candidate : Candidate) :
    StatusHonest candidate ↔ ¬ Masked candidate := by
  constructor
  · intro honest masked
    obtain ⟨memory, declared, met, known, clean, ⟨row, member, conditional⟩, undecided⟩ :=
      masked.block
    have verified : candidate.final.status = .verified := by
      refine (final_verified_iff candidate).mpr
        ⟨⟨masked.gates, masked.executable, masked.cases⟩, ?_, masked.conditions⟩
      intro other same
      rw [declared] at same
      cases same
      exact ⟨⟨met, known⟩, clean, fun _ => undecided⟩
    have promised := (honest.verified verified).regions (evaluateRegionAccess memory _)
      (by simp [Candidate.regions, declared]) row member
    exact promised.1 conditional.2.2
  · intro unmasked
    refine ⟨?_, ?_, ?_⟩
    · intro permuted order
      exact attach_perm_status candidate.slices permuted order candidate.base
    · intro verified
      exact verifiedMeans_of_not_masked candidate verified unmasked
    · intro report slice
      rw [attach_status]
      exact Change.apply_strength_le slice.change report.status

/-- Four readable bytes. -/
def fourBytes : CheckedMemory where
  regions := [⟨"buffer", "p", 0, .literal 4, .read⟩]
  relations := []

/-- A candidate that passed every gate and its one case. It reads the buffer at an
unknown index, and four bytes across the end of the buffer. -/
def straddlingCandidate : Candidate where
  target := "x86_64-unknown-linux-gnu"
  routineSymbol := "f"
  semantic := ⟨.passed, 8, ⟨2, 2, 0⟩, ⟨2, 2, 0⟩, .passed, .passed, .passed, .passed⟩
  executable := ⟨.passed⟩
  cases := some [⟨"case", true, "0", "0"⟩]
  isolation := .nativeHost
  contract := ⟨"f", [⟨"p", .ptr (.uint 8) true, none⟩], [], [], [], [], some fourBytes⟩
  accesses := [⟨.load, 1, .indexed "p" 1 0 none none, "movzx", 0⟩,
    ⟨.load, 4, .affine "p" 2, "mov", 4⟩]
  bindings := ⟨fun _ => none, fun _ => none⟩

/-- The candidate is verified although its first access rests on a precondition. -/
theorem verified_despite_obligation :
    Accepted fourBytes ∧ straddlingCandidate.final.status = .verified ∧
      ¬ StatusHonest straddlingCandidate := by
  refine ⟨?_, by decide, fun honest => ?_⟩
  · exact ⟨⟨[⟨"buffer", "p", none, "4", "read"⟩], []⟩, [⟨"p", .ptr (.uint 8) true, none⟩],
      by decide⟩
  · have promised := (honest.verified (by decide)).regions _ rfl _ (List.mem_cons_self ..)
    exact promised.1 (by decide)

end Semasm.Agent
