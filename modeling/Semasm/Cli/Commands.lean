import Semasm.Cli.VerifyRuns

/-!
# The verify and the compare command

Both commands print at most one document and exit. The verify command prints the report or the
envelope of its run; the compare command runs two candidates against one contract and prints what
differs between their reports.
-/

namespace Semasm.Cli.Commands

open Agent Agent.Harness

/-! ## Comparison -/

/-- `GateStatus::as_str`. -/
def gateText : GateStatus → String
  | .passed => "passed" | .failed => "failed" | .skipped => "skipped"

/-- `VerificationStatus::as_str`. -/
def statusText : VerificationStatus → String
  | .verified => "verified"
  | .verifiedUnderPreconditions => "verified_under_preconditions"
  | .semanticFailed => "semantic_failed"
  | .executableFailed => "executable_failed"
  | .behaviorFailed => "behavior_failed"
  | .executionDenied => "execution_denied"

/-- Diff of two verification reports. -/
structure CandidateCompareReport where
  target : String
  routineSymbol : String
  statusA : String
  statusB : String
  gateDiffs : List String
  vectorDiffs : List String
  preferred : Option String

/-- `push_gate_diff`. -/
def gateDiff (name : String) (a b : GateStatus) : List String :=
  if a ≠ b then [name ++ ": " ++ gateText a ++ " vs " ++ gateText b] else []

/-- A line for counts that differ. -/
def coverageDiff (name : String) (a b : Coverage) : List String :=
  if a ≠ b then [name ++ ": " ++ toString a.modeled ++ "/" ++ toString a.total ++ " vs " ++
    toString b.modeled ++ "/" ++ toString b.total] else []

/-- A verdict in a line. -/
def verdictText (passed : Bool) : String := if passed then "PASS" else "FAIL"

/-- The line for a case whose first namesake has the other verdict. -/
def caseDiff (others : List Agent.VectorResult) (case : Agent.VectorResult) : Option String :=
  match others.find? (fun other => other.name == case.name) with
  | some other =>
    if case.passed ≠ other.passed then
      some (case.name ++ ": " ++ verdictText case.passed ++ " vs " ++ verdictText other.passed)
    else none
  | none => none

/-- The lines for two behaviours. -/
def behaviorDiffs (a b : Option Agent.HarnessReport) : List String :=
  match a, b with
  | some a, some b => a.cases.filterMap (caseDiff b.cases)
  | none, none => []
  | _, _ => ["behavior present on only one candidate"]

/-- `verification_rank`. -/
def verificationRank : VerificationStatus → Nat
  | .verified => 3
  | .verifiedUnderPreconditions => 2
  | _ => 0

/-- `compare_reports`. -/
def compareReports (a b : AgentReport) (labelA labelB : String) : CandidateCompareReport where
  target := a.target
  routineSymbol := a.routineSymbol
  statusA := statusText a.status
  statusB := statusText b.status
  gateDiffs := gateDiff "object_policy" a.semantic.objectPolicy b.semantic.objectPolicy ++
    gateDiff "abi" a.semantic.abi b.semantic.abi ++
    gateDiff "capability" a.semantic.capability b.semantic.capability ++
    gateDiff "control" a.semantic.control b.semantic.control ++
    gateDiff "memory" a.semantic.memory b.semantic.memory ++
    coverageDiff "decode" a.semantic.decode b.semantic.decode ++
    coverageDiff "lowering" a.semantic.lowering b.semantic.lowering
  vectorDiffs := behaviorDiffs a.behavior b.behavior
  preferred :=
    if verificationRank b.status < verificationRank a.status then some labelA
    else if verificationRank a.status < verificationRank b.status then some labelB
    else none

/-! ## Commands -/

/-- What a command prints on its output. -/
inductive Document where
  | failure (envelope : AgentFailureEnvelope)
  | report (report : AgentReport)
  | comparison (report : CandidateCompareReport)

/-- What a command printed and the code it exits with. -/
structure Outcome where
  documents : List Document
  exit : UInt8

/-- `do_agent_verify`. The evidence card is written after the report is printed. -/
def doAgentVerify (host : Host) (request : Request) (cardWritten : Bool) : Outcome :=
  match (runAgentVerifyCore host request).core with
  | .early printed code => ⟨printed.toList.map .failure, code⟩
  | .done report _ _ exit => ⟨[.report report], if cardWritten then exit else 1⟩

/-- A status of a candidate that verified. -/
def isVerified (status : VerificationStatus) : Bool :=
  status == .verified || status == .verifiedUnderPreconditions

/-- The request for a side of a comparison. -/
def compareRequest (source contract : NamedPath) (target : String) (allowExecution : Bool) :
    Request := ⟨source, contract, target, allowExecution, none⟩

/-- `do_agent_compare`, over what the machine answers in the two runs. -/
def doAgentCompare (hostA hostB : Host) (sourceA sourceB contract : NamedPath) (target : String)
    (allowExecution : Bool) : Outcome :=
  match (runAgentVerifyCore hostA (compareRequest sourceA contract target allowExecution)).core with
  | .early printed code => ⟨printed.toList.map .failure, code⟩
  | .done a _ _ _ =>
    match
      (runAgentVerifyCore hostB (compareRequest sourceB contract target allowExecution)).core with
    | .early printed code => ⟨printed.toList.map .failure, code⟩
    | .done b _ _ _ =>
      ⟨[.comparison (compareReports a b (sourceA.fileName.getD "a") (sourceB.fileName.getD "b"))],
        if isVerified a.status || isVerified b.status then 0 else 1⟩

/-! ## What the verify command tells -/

/-- The outcome of a run, by what was printed. Nothing is printed only when a cleared candidate
could not be run; an envelope says what was known; and the code is zero exactly for a report with
a verified status whose card was written. -/
structure VerifyTold (host : Host) (request : Request) (cardWritten : Bool) (outcome : Outcome) :
    Prop where
  documents : outcome.documents = [] ∧ outcome.exit = 1 ∧ (∃ admitted semantics reason,
      Cleared host request admitted semantics ∧ host.run = .error reason) ∨
    (∃ envelope, outcome.documents = [.failure envelope] ∧
      EnvelopeTold host request envelope outcome.exit) ∨
    ∃ report exit admitted, outcome.documents = [.report report] ∧
      outcome.exit = (if cardWritten then exit else 1) ∧
      ReportTold host request report admitted.inputs.contractBytes exit admitted
  exit : outcome.exit = 0 ↔ cardWritten = true ∧ ∃ report, outcome.documents = [.report report] ∧
    0 < report.status.strength

/-- The verify command prints one document, unless a cleared candidate could not be run, and exits
with zero exactly when it prints a report with a verified status.

Proof: the core of every run ends as `coreTold` says, and the command prints what the core ends
with. -/
theorem verify_told (host : Host) (request : Request) (cardWritten : Bool) :
    VerifyTold host request cardWritten (doAgentVerify host request cardWritten) := by
  have one : (1 : UInt8) ≠ 0 := by decide
  have told := coreTold host request
  unfold doAgentVerify
  generalize (runAgentVerifyCore host request).core = core at told
  cases core with
  | early printed code =>
    cases printed with
    | none =>
      obtain ⟨rfl, unrun⟩ := told
      exact ⟨Or.inl ⟨rfl, rfl, unrun⟩, iff_of_false one (by simp)⟩
    | some envelope =>
      have failed : code ≠ 0 := by
        rw [told.exit]
        split_ifs <;> decide
      exact ⟨Or.inr (Or.inl ⟨envelope, rfl, told⟩), iff_of_false failed (by simp)⟩
  | done report objectBytes contractBytes exit =>
    obtain ⟨admitted, told⟩ := told
    obtain rfl := told.bytes
    refine ⟨Or.inr (Or.inr ⟨report, exit, admitted, rfl, rfl, told⟩), ?_⟩
    cases cardWritten with
    | false => exact iff_of_false one (by simp)
    | true => simpa using told.exit

/-! ## What the compare command tells -/

theorem gateDiff_eq_nil_iff (name : String) (a b : GateStatus) :
    gateDiff name a b = [] ↔ a = b := by
  unfold gateDiff
  split_ifs with differ <;> simp_all

theorem coverageDiff_eq_nil_iff (name : String) (a b : Coverage) :
    coverageDiff name a b = [] ↔ a = b := by
  unfold coverageDiff
  split_ifs with differ <;> simp_all

/-- No line is written for a case when its first namesake, if it has one, has its verdict. -/
theorem caseDiff_eq_none_iff (others : List Agent.VectorResult) (case : Agent.VectorResult) :
    caseDiff others case = none ↔ ∀ other,
      others.find? (fun other => other.name == case.name) = some other →
        case.passed = other.passed := by
  unfold caseDiff
  cases found : others.find? (fun other => other.name == case.name) with
  | none => simp
  | some other => by_cases same : case.passed = other.passed <;> simp [same]

/-- The rank orders statuses as their strength does. -/
theorem verificationRank_lt_iff (a b : VerificationStatus) :
    verificationRank a < verificationRank b ↔ a.strength < b.strength := by
  cases a <;> cases b <;> decide

theorem isVerified_iff (status : VerificationStatus) :
    isVerified status = true ↔ 0 < status.strength := by
  cases status <;> decide

/-- The comparison says what differs between two reports. -/
structure Compares (comparison : CandidateCompareReport) (a b : AgentReport)
    (labelA labelB : String) : Prop where
  gates : comparison.gateDiffs = [] ↔
    { a.semantic with executableBytes := 0 } = { b.semantic with executableBytes := 0 }
  vectors : comparison.vectorDiffs = [] ↔ a.behavior.isSome = b.behavior.isSome ∧
    ∀ behaviorA behaviorB, a.behavior = some behaviorA → b.behavior = some behaviorB →
      ∀ case ∈ behaviorA.cases, ∀ other,
        behaviorB.cases.find? (fun other => other.name == case.name) = some other →
          case.passed = other.passed
  first : b.status.strength < a.status.strength → comparison.preferred = some labelA
  second : a.status.strength < b.status.strength → comparison.preferred = some labelB
  neither : a.status.strength = b.status.strength → comparison.preferred = none

theorem compareReports_compares (a b : AgentReport) (labelA labelB : String) :
    Compares (compareReports a b labelA labelB) a b labelA labelB := by
  refine ⟨?_, ?_, ?_, ?_, ?_⟩
  · simp only [compareReports, List.append_eq_nil_iff, gateDiff_eq_nil_iff,
      coverageDiff_eq_nil_iff, SemanticGates.mk.injEq]
    tauto
  · simp only [compareReports]
    cases a.behavior with
    | none => cases b.behavior <;> simp [behaviorDiffs]
    | some behaviorA =>
      cases b.behavior with
      | none => simp [behaviorDiffs]
      | some behaviorB =>
        simp only [behaviorDiffs, List.filterMap_eq_nil_iff, caseDiff_eq_none_iff]
        simp
  · intro stronger
    exact if_pos ((verificationRank_lt_iff _ _).mpr stronger)
  · intro weaker
    have notFirst : ¬ verificationRank b.status < verificationRank a.status := by
      rw [verificationRank_lt_iff]
      omega
    exact (if_neg notFirst).trans (if_pos ((verificationRank_lt_iff _ _).mpr weaker))
  · intro same
    have notFirst : ¬ verificationRank b.status < verificationRank a.status := by
      rw [verificationRank_lt_iff]
      omega
    have notSecond : ¬ verificationRank a.status < verificationRank b.status := by
      rw [verificationRank_lt_iff]
      omega
    exact (if_neg notFirst).trans (if_neg notSecond)

/-- The report a core ends with. -/
def VerifyCore.report : VerifyCore → Option AgentReport
  | .early _ _ => none
  | .done report _ _ _ => some report

/-- A core of a run that exits with zero has a report with a verified status. -/
theorem exit_zero_iff_report (host : Host) (request : Request) :
    (runAgentVerifyCore host request).core.exit = 0 ↔
      ∃ report, (runAgentVerifyCore host request).core.report = some report ∧
        0 < report.status.strength := by
  have told := coreTold host request
  generalize (runAgentVerifyCore host request).core = core at told
  cases core with
  | early printed code =>
    refine iff_of_false ?_ (by simp [VerifyCore.report])
    cases printed with
    | none =>
      obtain ⟨rfl, _⟩ := told
      decide
    | some envelope =>
      change code ≠ 0
      rw [told.exit]
      split_ifs <;> decide
  | done report objectBytes contractBytes exit =>
    obtain ⟨admitted, told⟩ := told
    simpa [VerifyCore.report, VerifyCore.exit] using told.exit

/-- The outcome of a comparison, by the cores of the two runs. The code is zero exactly when both
have a report and one of the two exits with zero; with two reports the only document compares
them, and with one at most, an envelope is all that is printed. -/
structure CompareTold (coreA coreB : VerifyCore) (labelA labelB : String) (outcome : Outcome) :
    Prop where
  exit : outcome.exit = 0 ↔ (coreA.report.isSome ∧ coreB.report.isSome) ∧
    (coreA.exit = 0 ∨ coreB.exit = 0)
  compared : ∀ a b, coreA.report = some a → coreB.report = some b →
    ∃ comparison, outcome.documents = [.comparison comparison] ∧
      Compares comparison a b labelA labelB
  failed : coreA.report = none ∨ coreB.report = none →
    outcome.documents = [] ∨ ∃ envelope, outcome.documents = [.failure envelope]

/-- The compare command exits with zero exactly when both runs have a report and one of the two
would exit with zero, and what it then prints compares the two reports.

Proof: a run exits with zero exactly when the status of its report is a verified one, which is
what the command looks at. -/
theorem compare_told (hostA hostB : Host) (sourceA sourceB contract : NamedPath)
    (target : String) (allowExecution : Bool) :
    CompareTold
      (runAgentVerifyCore hostA (compareRequest sourceA contract target allowExecution)).core
      (runAgentVerifyCore hostB (compareRequest sourceB contract target allowExecution)).core
      (sourceA.fileName.getD "a") (sourceB.fileName.getD "b")
      (doAgentCompare hostA hostB sourceA sourceB contract target allowExecution) := by
  have one : (1 : UInt8) ≠ 0 := by decide
  have zeroA := exit_zero_iff_report hostA (compareRequest sourceA contract target allowExecution)
  have zeroB := exit_zero_iff_report hostB (compareRequest sourceB contract target allowExecution)
  unfold doAgentCompare
  generalize (runAgentVerifyCore hostA (compareRequest sourceA contract target
    allowExecution)).core = coreA at zeroA ⊢
  generalize (runAgentVerifyCore hostB (compareRequest sourceB contract target
    allowExecution)).core = coreB at zeroB ⊢
  have printed (envelope : Option AgentFailureEnvelope) :
      envelope.toList.map Document.failure = [] ∨
        ∃ told, envelope.toList.map Document.failure = [.failure told] := by
    cases envelope with
    | none => exact Or.inl rfl
    | some told => exact Or.inr ⟨told, rfl⟩
  cases coreA with
  | early envelope code =>
    have failed : code ≠ 0 := by simpa [VerifyCore.report, VerifyCore.exit] using zeroA
    exact ⟨iff_of_false failed (by simp [VerifyCore.report]), by simp [VerifyCore.report],
      fun _ => printed envelope⟩
  | done a bytesA contractA exitA =>
    cases coreB with
    | early envelope code =>
      have failed : code ≠ 0 := by simpa [VerifyCore.report, VerifyCore.exit] using zeroB
      exact ⟨iff_of_false failed (by simp [VerifyCore.report]), by simp [VerifyCore.report],
        fun _ => printed envelope⟩
    | done b bytesB contractB exitB =>
      have verified : (isVerified a.status || isVerified b.status) = true ↔
          exitA = 0 ∨ exitB = 0 := by
        rw [Bool.or_eq_true, isVerified_iff, isVerified_iff]
        refine or_congr ?_ ?_
        · simpa [VerifyCore.report, VerifyCore.exit] using zeroA.symm
        · simpa [VerifyCore.report, VerifyCore.exit] using zeroB.symm
      refine ⟨?_, ?_, by simp [VerifyCore.report]⟩
      · dsimp only [VerifyCore.exit]
        rw [← verified]
        cases isVerified a.status || isVerified b.status with
        | false => exact iff_of_false one (by simp)
        | true => exact iff_of_true rfl ⟨⟨rfl, rfl⟩, rfl⟩
      · intro first second sameA sameB
        obtain rfl := Option.some.inj sameA
        obtain rfl := Option.some.inj sameB
        exact ⟨_, rfl, compareReports_compares ..⟩

end Semasm.Cli.Commands
