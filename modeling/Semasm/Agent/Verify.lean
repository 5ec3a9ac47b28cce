import Semasm.Contract.ExprReport
import Semasm.Contract.RegionAccess

/-!
# The verification report

A report is composed once from the results of the static gates, the link gate
and the harness, and then takes the three evidence slices of the contract. Each
slice may lower the status by its own rule and is stored in the report.
-/

namespace Semasm.Agent

open Contract

/-- Outcome of a single gate. -/
inductive GateStatus where
  | passed | failed | skipped
deriving DecidableEq, Repr

/-- Instruction-level coverage counts. -/
structure Coverage where
  total : Nat
  modeled : Nat
  unknown : Nat
deriving DecidableEq, Repr

/-- Static gates applied to the candidate object. -/
structure SemanticGates where
  objectPolicy : GateStatus
  executableBytes : Nat
  decode : Coverage
  lowering : Coverage
  abi : GateStatus
  capability : GateStatus
  control : GateStatus
  memory : GateStatus
deriving DecidableEq, Repr

/-- `SemanticGates::all_passed`. The two leaf gates may have been skipped. -/
def SemanticGates.allPassed (gates : SemanticGates) : Bool :=
  let leafOk := fun status => status == GateStatus.passed || status == GateStatus.skipped
  gates.objectPolicy == .passed && gates.abi == .passed && gates.capability == .passed &&
    leafOk gates.control && leafOk gates.memory && gates.decode.unknown == 0 &&
    gates.lowering.unknown == 0 && gates.decode.modeled == gates.decode.total &&
    gates.lowering.modeled == gates.lowering.total

/-- Linked-image gate. -/
structure ExecutableGate where
  status : GateStatus
deriving DecidableEq, Repr

/-- Result of one behavioral vector. -/
structure VectorResult where
  name : String
  passed : Bool
  expected : String
  observed : String
deriving DecidableEq, Repr

/-- Harness evaluation report. -/
structure HarnessReport where
  cases : List VectorResult
  allPassed : Bool
deriving DecidableEq, Repr

/-- The report the harness builds for its cases. -/
def HarnessReport.ofCases (cases : List VectorResult) : HarnessReport :=
  ⟨cases, cases.all (fun result => result.passed)⟩

/-- Overall outcome. -/
inductive VerificationStatus where
  | verified | verifiedUnderPreconditions | semanticFailed | executableFailed | behaviorFailed
  | executionDenied
deriving DecidableEq, Repr

/-- How execution was isolated. -/
inductive ExecutionIsolation where
  | staticOnly | qemuUser | nativeHost
deriving DecidableEq, Repr

/-- One finding attached to a report. -/
structure ReportFinding where
  code : String
  severity : String
  message : String
  location : Option Nat
deriving DecidableEq, Repr

/-- Structured failure from a static semantic gate stage. -/
structure SemanticGateError where
  stage : String
  message : String
  decode : Option Coverage := none
  lowering : Option Coverage := none
  findings : List ReportFinding := []
deriving DecidableEq, Repr

/-- The verification report. -/
structure VerificationReport where
  schemaVersion : String
  status : VerificationStatus
  target : String
  routineSymbol : String
  isolation : ExecutionIsolation
  toolVersion : String
  contractDigest : String
  sourceDigest : String
  semantic : SemanticGates
  executable : ExecutableGate
  behavior : Option HarnessReport
  aliasAnalysis : Option AliasAnalysisReport
  regionAccess : Option RegionAccessReport
  contractExpressions : Option ContractExprReport
  findings : List ReportFinding

namespace VerificationReport

/-- `VerificationReport::from_parts`. -/
def fromParts (target routineSymbol : String) (semantic : SemanticGates)
    (executable : ExecutableGate) (behavior : Option HarnessReport)
    (isolation : ExecutionIsolation) : VerificationReport :=
  let status : VerificationStatus :=
    if !semantic.allPassed then .semanticFailed
    else if executable.status = .failed then .executableFailed
    else
      match behavior with
      | none => .executionDenied
      | some report => if report.allPassed then .verified else .behaviorFailed
  { schemaVersion := "0.6"
    status := status
    target := target
    routineSymbol := routineSymbol
    isolation := isolation
    toolVersion := "semasm 0.5.0"
    contractDigest := ""
    sourceDigest := ""
    semantic := semantic
    executable := executable
    behavior := behavior
    aliasAnalysis := none
    regionAccess := none
    contractExpressions := none
    findings := [] }

/-- A verified status lowered to one with caller obligations. -/
def demoted : VerificationStatus → VerificationStatus
  | .verified => .verifiedUnderPreconditions
  | other => other

/-- `with_alias_analysis`. -/
def withAliasAnalysis (report : VerificationReport) (aliasAnalysis : AliasAnalysisReport) :
    VerificationReport :=
  let status := match aliasAnalysis.status with
    | .passed => report.status
    | .passedUnderPreconditions => demoted report.status
    | .incomplete | .failed => .semanticFailed
  { report with status := status, aliasAnalysis := some aliasAnalysis }

/-- `with_region_access`. An incomplete slice leaves the status alone. -/
def withRegionAccess (report : VerificationReport) (regionAccess : RegionAccessReport) :
    VerificationReport :=
  let status := match regionAccess.status with
    | .passed | .incomplete => report.status
    | .passedUnderPreconditions => demoted report.status
    | .failed => .semanticFailed
  { report with status := status, regionAccess := some regionAccess }

/-- `with_contract_expressions`. -/
def withContractExpressions (report : VerificationReport)
    (contractExpressions : ContractExprReport) : VerificationReport :=
  let status := match contractExpressions.status with
    | .passed => report.status
    | .passedUnderPreconditions => demoted report.status
    | .incomplete | .failed => .semanticFailed
  { report with status := status, contractExpressions := some contractExpressions }

end VerificationReport

/-- Everything a report is composed from: the gate and harness results, the
contract, the recorded accesses and the bindings of its conditions. -/
structure Candidate where
  target : String
  routineSymbol : String
  semantic : SemanticGates
  executable : ExecutableGate
  cases : Option (List VectorResult)
  isolation : ExecutionIsolation
  contract : CheckedContract
  accesses : List ObservedMemoryAccess
  bindings : ExprBindings

/-- An evidence slice to attach. -/
inductive Slice where
  | aliasAnalysis (report : AliasAnalysisReport)
  | regionAccess (report : RegionAccessReport)
  | contractExpressions (report : ContractExprReport)

/-- Attach one slice. -/
def VerificationReport.attach (report : VerificationReport) : Slice → VerificationReport
  | .aliasAnalysis slice => report.withAliasAnalysis slice
  | .regionAccess slice => report.withRegionAccess slice
  | .contractExpressions slice => report.withContractExpressions slice

namespace Candidate

/-- The report before any slice is attached. -/
def base (candidate : Candidate) : VerificationReport :=
  .fromParts candidate.target candidate.routineSymbol candidate.semantic candidate.executable
    (candidate.cases.map .ofCases) candidate.isolation

/-- The alias report of the contract's memory block. -/
def aliases (candidate : Candidate) : Option AliasAnalysisReport :=
  candidate.contract.memory.map (fun memory => evaluateAlias memory candidate.accesses)

/-- The region-access report of the contract's memory block. -/
def regions (candidate : Candidate) : Option RegionAccessReport :=
  candidate.contract.memory.map (fun memory => evaluateRegionAccess memory candidate.accesses)

/-- The expression report of the contract. -/
def expressions (candidate : Candidate) : Option ContractExprReport :=
  evaluateContractExpressions candidate.contract candidate.aliases candidate.bindings

/-- The slices of the candidate, in the order they are attached. -/
def slices (candidate : Candidate) : List Slice :=
  candidate.aliases.toList.map .aliasAnalysis ++ candidate.regions.toList.map .regionAccess ++
    candidate.expressions.toList.map .contractExpressions

/-- The report with all slices attached. -/
def final (candidate : Candidate) : VerificationReport :=
  candidate.slices.foldl .attach candidate.base

end Candidate

end Semasm.Agent
