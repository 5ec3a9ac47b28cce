import Semasm.Agent.StatusHonesty
import Semasm.Cli.FailureEnvelopes
import Semasm.Cli.GateSnapshots

/-!
# What a run of the verify command does

A run does at most one thing of each kind, in one order. The candidate is run only behind all
gates and the opt-in, the scratch directory is removed on every way out but one, and the command
exits with zero exactly when the candidate was run and its report is a verified one.
-/

namespace Semasm.Cli.Commands

open Agent Agent.Harness Contract Library.Checks Obj

/-! ## Conditions on the way -/

/-- The object of the candidate is in the scratch directory. -/
def Staged (host : Host) (request : Request) : Prop :=
  if prebuiltObject request = true then host.copySource = .ok ()
  else host.assembleRoutine = .succeeded

/-- The static gates accept the candidate of an admitted request. -/
def Gated (host : Host) (admitted : Admitted) (semantics : CandidateSemantics) : Prop :=
  verifyCandidateSemantics host.disasmAll host.candidate admitted.inputs.identity
    admitted.checked.name admitted.checked = .ok semantics

/-- A request whose candidate passed the static gates. -/
structure Reached (host : Host) (request : Request) (admitted : Admitted)
    (semantics : CandidateSemantics) : Prop where
  accepted : prepareRun host request = .ok admitted
  scratch : host.createScratch = .ok ()
  staged : Staged host request
  gated : Gated host admitted semantics

/-- The generators have no harness for the shape under the convention. -/
def NoGenerator (admitted : Admitted) : Prop :=
  admitted.inputs.identity.abi ∈ [Harness.Abi.aapcs64, Harness.Abi.riscv] ∧
    admitted.shape ∈ [HarnessShape.cellLoad, HarnessShape.cellStore]

/-- The harness around the candidate is written, assembled and linked. -/
structure Built (host : Host) : Prop where
  written : host.writeHarness = .ok ()
  assembled : host.assembleHarness = .succeeded
  linked : host.link = .succeeded

/-- A request whose candidate may be run. -/
structure Cleared (host : Host) (request : Request) (admitted : Admitted)
    (semantics : CandidateSemantics) : Prop
    extends Reached host request admitted semantics, Built host where
  generated : ¬ NoGenerator admitted
  executable : (checkExecutableObject host admitted.inputs.identity).status = .passed
  allowed : request.allowExecution = true

/-! ## Small facts -/

@[simp] theorem Run.after_events (event : Event) (run : Run) :
    (Run.after event run).events = event :: run.events := rfl

@[simp] theorem Run.after_core (event : Event) (run : Run) :
    (Run.after event run).core = run.core := rfl

@[simp] theorem Run.ends_events (core : VerifyCore) : (Run.ends core).events = [] := rfl

@[simp] theorem Run.ends_core (core : VerifyCore) : (Run.ends core).core = core := rfl

@[simp] theorem Run.cleans_events (core : VerifyCore) :
    (Run.cleans core).events = [.removeScratch] := rfl

@[simp] theorem Run.cleans_core (core : VerifyCore) : (Run.cleans core).core = core := rfl

/-- A step keeps the order of events of what follows it. -/
theorem Run.step_sublist {event : Event} {outcome : Except VerifyCore Unit} {next : Run}
    {rest : List Event} (follows : next.events.Sublist rest)
    (cleaned : [Event.removeScratch].Sublist rest) :
    (Run.step event outcome next).events.Sublist (event :: rest) := by
  cases outcome with
  | error core => exact cleaned.cons_cons event
  | ok value => exact follows.cons_cons event

/-- What follows a step happens when the step did not fail. -/
theorem Run.mem_step_iff {event other : Event} (outcome : Except VerifyCore Unit) (next : Run)
    (apart : other ≠ event) (kept : other ≠ .removeScratch) :
    other ∈ (Run.step event outcome next).events ↔ outcome = .ok () ∧ other ∈ next.events := by
  cases outcome with
  | error core => simp [Run.step, apart, kept]
  | ok value => simp [Run.step, apart]

/-- A run with a failed step removes its directory. -/
theorem Run.cleaned_step_iff {event : Event} (outcome : Except VerifyCore Unit) (next : Run)
    (apart : event ≠ .removeScratch) :
    .removeScratch ∈ (Run.step event outcome next).events ↔
      (outcome = .ok () → .removeScratch ∈ next.events) := by
  cases outcome with
  | error core => simp [Run.step]
  | ok value => simp [Run.step, apart.symm]

/-- A run with a step whose failures do not have a property ends with it when the step did not
fail and what follows ends with it. -/
theorem Run.step_core_iff (property : VerifyCore → Prop) {event : Event}
    {outcome : Except VerifyCore Unit} {next : Run}
    (failures : ∀ core, outcome = .error core → ¬ property core) :
    property (Run.step event outcome next).core ↔ outcome = .ok () ∧ property next.core := by
  cases outcome with
  | error core => simpa [Run.step] using failures core rfl
  | ok value => simp [Run.step]

theorem ToolOutcome.check_ok_iff (outcome : ToolOutcome) (failure : String → FailureStage →
    String → Retryability → AgentFailureEnvelope) (code : String) (stage : FailureStage)
    (what : String) : outcome.check failure code stage what = .ok () ↔ outcome = .succeeded := by
  cases outcome <;> simp [ToolOutcome.check]

/-- The executable gate passes or fails. -/
theorem executable_passed_iff (host : Host) (identity : TargetIdentity) :
    (checkExecutableObject host identity).status = .passed ↔
      (checkExecutableObject host identity).status ≠ .failed := by
  unfold checkExecutableObject
  cases host.executable with
  | error reason => simp
  | ok file =>
    cases read : readForTarget file identity.isa with
    | error reason => simp [read]
    | ok info =>
      simp only [read]
      split_ifs <;> simp

/-- The generators refuse the cell shapes of two conventions and nothing else. -/
theorem generateHarness_ok_iff (admitted : Admitted) :
    (∃ program, Programs.generateHarness admitted.checked.name admitted.vectors
      admitted.inputs.identity.abi admitted.shape = .ok program) ↔ ¬ NoGenerator admitted := by
  unfold NoGenerator
  cases admitted.inputs.identity.abi <;> cases admitted.shape <;>
    first
    | exact iff_of_true ⟨_, rfl⟩ (by decide)
    | exact iff_of_false (by simp [Programs.generateHarness]) (by decide)

/-! ## The order of events -/

section

variable (host : Host) (request : Request) (admitted : Admitted)

theorem runLinked_sublist (semantics : CandidateSemantics) :
    (runLinked host request admitted semantics).events.Sublist
      [.runCandidate, .removeScratch] := by
  unfold runLinked
  dsimp only
  split_ifs with refused
  · exact List.sublist_cons_self _ _
  · cases ran : host.run with
    | error error => exact List.Sublist.refl _
    | ok stdout => exact List.Sublist.refl _

theorem buildHarness_sublist (semantics : CandidateSemantics) :
    (buildHarness host request admitted semantics).events.Sublist
      [.writeHarness, .assembleHarness, .link, .runCandidate, .removeScratch] :=
  Run.step_sublist (Run.step_sublist (Run.step_sublist
    (runLinked_sublist host request admitted semantics) (by decide)) (by decide)) (by decide)

/-- A candidate is refused by a gate, has no generator for its harness, or goes on. -/
theorem gateCandidate_cases :
    (∃ error, verifyCandidateSemantics host.disasmAll host.candidate admitted.inputs.identity
        admitted.checked.name admitted.checked = .error error ∧
      gateCandidate host request admitted = .cleans (endedEarly host request admitted
        (fromError error 0) ⟨.skipped⟩ error.findings none none)) ∨
    ∃ semantics, Gated host admitted semantics ∧
      ((NoGenerator admitted ∧ gateCandidate host request admitted =
          .ends (endedEarly host request admitted semantics.gates ⟨.skipped⟩ semantics.findings
            semantics.aliasAnalysis semantics.regionAccess)) ∨
        (¬ NoGenerator admitted ∧
          gateCandidate host request admitted = buildHarness host request admitted semantics)) := by
  unfold gateCandidate
  cases gated : verifyCandidateSemantics host.disasmAll host.candidate admitted.inputs.identity
      admitted.checked.name admitted.checked with
  | error error => exact Or.inl ⟨error, rfl, rfl⟩
  | ok semantics =>
    refine Or.inr ⟨semantics, gated, ?_⟩
    cases generated : Programs.generateHarness admitted.checked.name admitted.vectors
        admitted.inputs.identity.abi admitted.shape with
    | error reason =>
      refine Or.inl ⟨?_, rfl⟩
      by_contra present
      obtain ⟨program, made⟩ := (generateHarness_ok_iff admitted).mpr present
      rw [made] at generated
      cases generated
    | ok program =>
      exact Or.inr ⟨(generateHarness_ok_iff admitted).mp ⟨program, generated⟩, rfl⟩

/-- The candidate's object is staged in one of two ways, and then gated. -/
theorem stageCandidate_eq : ∃ event outcome,
    (event = Event.copySource ∨ event = Event.assembleRoutine) ∧
      (outcome = .ok () ↔ Staged host request) ∧
      (prepareRun host request = .ok admitted →
        ∀ core, outcome = .error core → FailureTold host request core) ∧
      stageCandidate host request admitted =
        .step event outcome (gateCandidate host request admitted) := by
  have io : Listed "SOURCE_IO" .io .tooling := ⟨by decide, by decide⟩
  have failed : Listed ("ASSEMBLE" ++ "_FAILED") .assemble .never := ⟨by decide, by decide⟩
  have errored : Listed ("ASSEMBLE" ++ "_ERROR") .assemble .tooling := ⟨by decide, by decide⟩
  unfold stageCandidate Staged
  by_cases prebuilt : prebuiltObject request = true
  · rw [if_pos prebuilt, if_pos prebuilt]
    exact ⟨_, _, Or.inl rfl, mapError_ok_iff _ _ _,
      fun accepted _ refused => fileCheck_told accepted io refused, rfl⟩
  · rw [if_neg prebuilt, if_neg prebuilt]
    exact ⟨_, _, Or.inr rfl, ToolOutcome.check_ok_iff _ _ _ _ _,
      fun accepted _ refused => toolCheck_told accepted failed errored refused, rfl⟩

theorem gateCandidate_sublist :
    (gateCandidate host request admitted).events.Sublist
      [.writeHarness, .assembleHarness, .link, .runCandidate, .removeScratch] := by
  obtain ⟨error, _, same⟩ | ⟨semantics, _, ⟨_, same⟩ | ⟨_, same⟩⟩ :=
    gateCandidate_cases host request admitted
  · rw [same, Run.cleans_events]
    decide
  · rw [same]
    exact List.nil_sublist _
  · rw [same]
    exact buildHarness_sublist host request admitted semantics

theorem stageCandidate_sublist :
    (stageCandidate host request admitted).events.Sublist [.copySource, .assembleRoutine,
      .writeHarness, .assembleHarness, .link, .runCandidate, .removeScratch] := by
  obtain ⟨event, outcome, rfl | rfl, _, _, same⟩ := stageCandidate_eq host request admitted
  · rw [same]
    exact Run.step_sublist ((gateCandidate_sublist host request admitted).cons _) (by decide)
  · rw [same]
    exact (Run.step_sublist (gateCandidate_sublist host request admitted) (by decide)).cons _

/-! ## The run of the candidate -/

theorem mem_runLinked_iff (semantics : CandidateSemantics) :
    .runCandidate ∈ (runLinked host request admitted semantics).events ↔
      (checkExecutableObject host admitted.inputs.identity).status = .passed ∧
        request.allowExecution = true := by
  unfold runLinked
  dsimp only
  rw [executable_passed_iff]
  split_ifs with refused
  · refine iff_of_false (by simp) (fun both => ?_)
    obtain failed | denied := refused
    · exact both.1 failed
    · simp [denied] at both
  · rw [not_or, Bool.not_eq_false] at refused
    exact iff_of_true (List.mem_cons_self ..) refused

theorem mem_buildHarness_iff (semantics : CandidateSemantics) :
    .runCandidate ∈ (buildHarness host request admitted semantics).events ↔
      Built host ∧ (checkExecutableObject host admitted.inputs.identity).status = .passed ∧
        request.allowExecution = true := by
  rw [buildHarness, Run.mem_step_iff _ _ (by decide) (by decide),
    Run.mem_step_iff _ _ (by decide) (by decide), Run.mem_step_iff _ _ (by decide) (by decide),
    mapError_ok_iff, ToolOutcome.check_ok_iff, ToolOutcome.check_ok_iff, mem_runLinked_iff]
  constructor
  · rintro ⟨written, assembled, linked, cleared⟩
    exact ⟨⟨written, assembled, linked⟩, cleared⟩
  · rintro ⟨built, cleared⟩
    exact ⟨built.written, built.assembled, built.linked, cleared⟩

theorem mem_gateCandidate_iff :
    .runCandidate ∈ (gateCandidate host request admitted).events ↔
      ∃ semantics, Gated host admitted semantics ∧ ¬ NoGenerator admitted ∧ Built host ∧
        (checkExecutableObject host admitted.inputs.identity).status = .passed ∧
        request.allowExecution = true := by
  obtain ⟨error, refused, same⟩ | ⟨semantics, gated, rest⟩ :=
    gateCandidate_cases host request admitted
  · rw [same]
    simp [Gated, refused]
  · have only (other : CandidateSemantics) : Gated host admitted other ↔ other = semantics := by
      rw [Gated, show verifyCandidateSemantics _ _ _ _ _ = _ from gated, Except.ok.injEq, eq_comm]
    simp only [only, exists_eq_left]
    obtain ⟨missing, same⟩ | ⟨present, same⟩ := rest
    · rw [same]
      simp [missing]
    · rw [same, mem_buildHarness_iff]
      simp [present]

end

/-- A run is that of an admitted request, or it did nothing and printed an envelope. -/
theorem runAgentVerifyCore_cases (host : Host) (request : Request) :
    (∃ admitted, prepareRun host request = .ok admitted ∧ host.createScratch = .ok () ∧
      runAgentVerifyCore host request =
        .after .createScratch (stageCandidate host request admitted)) ∨
    ((runAgentVerifyCore host request).events = [] ∧
      FailureTold host request (runAgentVerifyCore host request).core ∧
      ¬ ∃ admitted, prepareRun host request = .ok admitted ∧ host.createScratch = .ok ()) := by
  have io : Listed "SCRATCH_IO" .pipeline .tooling := ⟨by decide, by decide⟩
  unfold runAgentVerifyCore
  cases accepted : prepareRun host request with
  | error core => exact Or.inr ⟨rfl, prepareRun_told accepted, by simp⟩
  | ok admitted =>
    cases scratch : host.createScratch with
    | error error => exact Or.inr ⟨rfl, ⟨_, _, rfl, told_of_admitted accepted io _⟩, by simp⟩
    | ok value => exact Or.inl ⟨admitted, rfl, rfl, rfl⟩

/-- Every run does at most one thing of each kind, in one order.

Proof: a step puts its event in front of what follows it, and a failed step leaves nothing but the
removal of the directory to follow. -/
theorem events_in_order (host : Host) (request : Request) :
    (runAgentVerifyCore host request).events.Sublist
      [.createScratch, .copySource, .assembleRoutine, .writeHarness, .assembleHarness, .link,
        .runCandidate, .removeScratch] := by
  obtain ⟨admitted, _, _, same⟩ | ⟨nothing, _, _⟩ := runAgentVerifyCore_cases host request
  · rw [same, Run.after_events]
    exact (stageCandidate_sublist host request admitted).cons_cons _
  · rw [nothing]
    exact List.nil_sublist _

/-- The candidate is run exactly when the request is cleared. -/
theorem candidate_run_iff (host : Host) (request : Request) :
    .runCandidate ∈ (runAgentVerifyCore host request).events ↔
      ∃ admitted semantics, Cleared host request admitted semantics := by
  obtain ⟨admitted, accepted, scratch, same⟩ | ⟨nothing, _, refused⟩ :=
    runAgentVerifyCore_cases host request
  · have only (other : Admitted) : prepareRun host request = .ok other ↔ other = admitted := by
      rw [accepted, Except.ok.injEq, eq_comm]
    obtain ⟨event, outcome, kind, staged, _, staging⟩ := stageCandidate_eq host request admitted
    have apart : Event.runCandidate ≠ event := by
      obtain rfl | rfl := kind <;> decide
    rw [same, Run.after_events, List.mem_cons, staging,
      Run.mem_step_iff _ _ apart (by decide), staged, mem_gateCandidate_iff]
    constructor
    · rintro (first | ⟨there, semantics, gated, generated, built, executable, allowed⟩)
      · cases first
      · exact ⟨admitted, semantics, ⟨⟨accepted, scratch, there, gated⟩, built, generated,
          executable, allowed⟩⟩
    · rintro ⟨other, semantics, cleared⟩
      obtain rfl := (only other).mp cleared.accepted
      exact Or.inr ⟨cleared.staged, semantics, cleared.gated, cleared.generated, cleared.toBuilt,
        cleared.executable, cleared.allowed⟩
  · rw [nothing]
    refine iff_of_false (by simp) ?_
    rintro ⟨admitted, semantics, cleared⟩
    exact refused ⟨admitted, cleared.accepted, cleared.scratch⟩

/-! ## The scratch directory -/

theorem cleaned_runLinked (host : Host) (request : Request) (admitted : Admitted)
    (semantics : CandidateSemantics) :
    .removeScratch ∈ (runLinked host request admitted semantics).events := by
  unfold runLinked
  dsimp only
  split_ifs with refused
  · simp
  · cases host.run <;> simp

theorem cleaned_buildHarness (host : Host) (request : Request) (admitted : Admitted)
    (semantics : CandidateSemantics) :
    .removeScratch ∈ (buildHarness host request admitted semantics).events := by
  rw [buildHarness, Run.cleaned_step_iff _ _ (by decide)]
  intro _
  rw [Run.cleaned_step_iff _ _ (by decide)]
  intro _
  rw [Run.cleaned_step_iff _ _ (by decide)]
  exact fun _ => cleaned_runLinked host request admitted semantics

theorem cleaned_gateCandidate_iff (host : Host) (request : Request) (admitted : Admitted) :
    .removeScratch ∈ (gateCandidate host request admitted).events ↔
      ¬ ∃ semantics, Gated host admitted semantics ∧ NoGenerator admitted := by
  obtain ⟨error, refused, same⟩ | ⟨semantics, gated, ⟨missing, same⟩ | ⟨present, same⟩⟩ :=
    gateCandidate_cases host request admitted
  · rw [same]
    simp [Gated, refused]
  · rw [same]
    exact iff_of_false (by simp) (fun kept => kept ⟨semantics, gated, missing⟩)
  · rw [same]
    refine iff_of_true (cleaned_buildHarness host request admitted semantics) ?_
    rintro ⟨_, _, missing⟩
    exact present missing

/-- The scratch directory is left behind exactly when the candidate passed its gates and there is
no harness for its shape under its convention: a cell shape on AArch64 or RISC-V. -/
theorem scratch_left_iff (host : Host) (request : Request) :
    (.createScratch ∈ (runAgentVerifyCore host request).events ∧
        .removeScratch ∉ (runAgentVerifyCore host request).events) ↔
      ∃ admitted semantics, Reached host request admitted semantics ∧ NoGenerator admitted := by
  obtain ⟨admitted, accepted, scratch, same⟩ | ⟨nothing, _, refused⟩ :=
    runAgentVerifyCore_cases host request
  · have only (other : Admitted) : prepareRun host request = .ok other ↔ other = admitted := by
      rw [accepted, Except.ok.injEq, eq_comm]
    obtain ⟨event, outcome, kind, staged, _, staging⟩ := stageCandidate_eq host request admitted
    have apart : event ≠ .removeScratch := by
      obtain rfl | rfl := kind <;> decide
    have made : Event.createScratch ∈ Event.createScratch ::
        (stageCandidate host request admitted).events := List.mem_cons_self ..
    have left : Event.removeScratch ∉ Event.createScratch ::
          (stageCandidate host request admitted).events ↔
        Staged host request ∧ ∃ semantics, Gated host admitted semantics ∧ NoGenerator admitted := by
      rw [List.mem_cons, staging, Run.cleaned_step_iff _ _ apart, cleaned_gateCandidate_iff, staged]
      simp
    rw [same, Run.after_events, left]
    constructor
    · rintro ⟨_, there, semantics, gated, missing⟩
      exact ⟨admitted, semantics, ⟨accepted, scratch, there, gated⟩, missing⟩
    · rintro ⟨other, semantics, reached, missing⟩
      obtain rfl := (only other).mp reached.accepted
      exact ⟨made, reached.staged, semantics, reached.gated, missing⟩
  · rw [nothing]
    refine iff_of_false (by simp) ?_
    rintro ⟨admitted, semantics, reached, _⟩
    exact refused ⟨admitted, reached.accepted, reached.scratch⟩

/-! ## The code to exit with -/

/-- The code a core exits with. -/
def VerifyCore.exit : VerifyCore → UInt8
  | .early _ exit => exit
  | .done _ _ _ exit => exit

/-- The slices of a candidate that was run, in the order they are attached. -/
def runSlices (admitted : Admitted) (semantics : CandidateSemantics) : List Slice :=
  semantics.aliasAnalysis.toList.map .aliasAnalysis ++
    (evaluateContractExpressions admitted.checked semantics.aliasAnalysis noBindings).toList.map
      .contractExpressions ++
    semantics.regionAccess.toList.map .regionAccess

/-- No slice fails a candidate that was run. Only an incomplete region slice is let pass. -/
structure SlicesStand (admitted : Admitted) (semantics : CandidateSemantics) : Prop where
  aliases : ∀ report, semantics.aliasAnalysis = some report →
    report.status ≠ .failed ∧ report.status ≠ .incomplete
  regions : ∀ report, semantics.regionAccess = some report → report.status ≠ .failed
  expressions : ∀ report, evaluateContractExpressions admitted.checked semantics.aliasAnalysis
    noBindings = some report → report.status ≠ .failed ∧ report.status ≠ .incomplete

/-- A status is a verified one after a change when it was before and the change is no failure. -/
theorem Change.apply_strength_pos_iff (change : Change) (status : VerificationStatus) :
    0 < (change.apply status).strength ↔ 0 < status.strength ∧ change ≠ .fail := by
  cases change <;> cases status <;> decide

/-- A status is a verified one after slices when it was before and no slice fails it. -/
theorem foldl_attach_strength_pos_iff (slices : List Slice) (report : VerificationReport) :
    0 < (slices.foldl .attach report).status.strength ↔
      0 < report.status.strength ∧ ∀ slice ∈ slices, slice.change ≠ .fail := by
  induction slices generalizing report with
  | nil => simp
  | cons slice rest inductionHypothesis =>
    rw [List.foldl_cons, inductionHypothesis, attach_status, Change.apply_strength_pos_iff,
      List.forall_mem_cons, and_assoc]

theorem foldl_aliasAnalysis (found : Option AliasAnalysisReport) (report : VerificationReport) :
    (found.toList.map Slice.aliasAnalysis).foldl .attach report =
      found.elim report report.withAliasAnalysis := by
  cases found <;> rfl

theorem foldl_regionAccess (found : Option RegionAccessReport) (report : VerificationReport) :
    (found.toList.map Slice.regionAccess).foldl .attach report =
      found.elim report report.withRegionAccess := by
  cases found <;> rfl

theorem foldl_contractExpressions (found : Option ContractExprReport)
    (report : VerificationReport) :
    (found.toList.map Slice.contractExpressions).foldl .attach report =
      found.elim report report.withContractExpressions := by
  cases found <;> rfl

/-- The slices fail no candidate when each of them does not. -/
theorem slicesStand_iff (admitted : Admitted) (semantics : CandidateSemantics) :
    (∀ slice ∈ runSlices admitted semantics, slice.change ≠ .fail) ↔
      SlicesStand admitted semantics := by
  have aliases (report : AliasAnalysisReport) : (Slice.aliasAnalysis report).change ≠ .fail ↔
      report.status ≠ .failed ∧ report.status ≠ .incomplete := by
    simp only [Slice.change]
    cases report.status <;> decide
  have regions (report : RegionAccessReport) : (Slice.regionAccess report).change ≠ .fail ↔
      report.status ≠ .failed := by
    simp only [Slice.change]
    cases report.status <;> decide
  have expressions (report : ContractExprReport) :
      (Slice.contractExpressions report).change ≠ .fail ↔
        report.status ≠ .failed ∧ report.status ≠ .incomplete := by
    simp only [Slice.change]
    cases report.status <;> decide
  simp only [runSlices, List.forall_mem_append, List.forall_mem_map, Option.mem_toList, aliases,
    regions, expressions]
  constructor
  · rintro ⟨⟨first, second⟩, third⟩
    exact ⟨first, third, second⟩
  · intro stand
    exact ⟨⟨stand.aliases, stand.expressions⟩, stand.regions⟩

/-- The status of a candidate that was run is a verified one in these cases. -/
theorem runReport_strength_pos_iff (host : Host) (request : Request) (admitted : Admitted)
    (semantics : CandidateSemantics) (executable : ExecutableGate)
    (behavior : Harness.HarnessReport) :
    0 < (runReport host request admitted semantics executable behavior).status.strength ↔
      (semantics.gates.allPassed = true ∧ executable.status ≠ .failed ∧
        behavior.allPassed = true) ∧ SlicesStand admitted semantics := by
  have attached : (runReport host request admitted semantics executable behavior).status =
      ((runSlices admitted semantics).foldl .attach (VerificationReport.fromParts
        admitted.inputs.identity.name admitted.checked.name semantics.gates executable
        (some (behaviorReport behavior)) admitted.inputs.isolation)).status := by
    simp only [runSlices, List.foldl_append, foldl_aliasAnalysis, foldl_regionAccess,
      foldl_contractExpressions]
    rfl
  rw [attached, foldl_attach_strength_pos_iff, slicesStand_iff]
  refine and_congr_left (fun _ => ?_)
  simp only [VerificationReport.fromParts, behaviorReport]
  cases semantics.gates.allPassed with
  | false => simp [VerificationStatus.strength]
  | true =>
    by_cases failed : executable.status = .failed
    · simp [failed, VerificationStatus.strength]
    · by_cases all : behavior.allPassed = true <;> simp [failed, all, VerificationStatus.strength]

/-- A report of a candidate that was not run is never a verified one. -/
theorem staticReport_strength (host : Host) (request : Request) (admitted : Admitted)
    (gates : SemanticGates) (executable : ExecutableGate) (findings : List ReportFinding)
    (aliasAnalysis : Option AliasAnalysisReport) (regionAccess : Option RegionAccessReport) :
    (staticReport host request admitted gates executable findings aliasAnalysis
      regionAccess).status.strength = 0 := by
  have attached : (staticReport host request admitted gates executable findings aliasAnalysis
      regionAccess).status =
      ((aliasAnalysis.toList.map Slice.aliasAnalysis ++
        regionAccess.toList.map Slice.regionAccess ++
        (evaluateContractExpressions admitted.checked aliasAnalysis noBindings).toList.map
          Slice.contractExpressions).foldl VerificationReport.attach
            { VerificationReport.fromParts admitted.inputs.identity.name admitted.checked.name
                gates executable none .staticOnly with findings := findings }).status := by
    simp only [List.foldl_append, foldl_aliasAnalysis, foldl_regionAccess,
      foldl_contractExpressions]
    rfl
  refine Nat.eq_zero_of_not_pos (fun positive => ?_)
  rw [attached, foldl_attach_strength_pos_iff] at positive
  have based := positive.1
  simp only [VerificationReport.fromParts] at based
  split_ifs at based <;> exact absurd based (by decide)

theorem exitOf_eq_zero_iff (status : VerificationStatus) :
    exitOf status = 0 ↔ 0 < status.strength := by
  cases status <;> decide

/-- A core that ends with an envelope does not exit with zero. -/
theorem FailureTold.exit {host : Host} {request : Request} {core : VerifyCore}
    (told : FailureTold host request core) : core.exit ≠ 0 := by
  obtain ⟨envelope, exit, rfl, told⟩ := told
  change exit ≠ 0
  rw [told.exit]
  split_ifs <;> decide

/-- The condition for zero once the candidate is linked. -/
theorem runLinked_exit_iff (host : Host) (request : Request) (admitted : Admitted)
    (semantics : CandidateSemantics) (gated : Gated host admitted semantics) :
    (runLinked host request admitted semantics).core.exit = 0 ↔
      ((checkExecutableObject host admitted.inputs.identity).status = .passed ∧
        request.allowExecution = true) ∧
      ∃ stdout, host.run = .ok stdout ∧
        (evaluate host.jsonText stdout admitted.vectors admitted.shape).allPassed = true ∧
        SlicesStand admitted semantics := by
  have one : (1 : UInt8) ≠ 0 := by decide
  unfold runLinked
  dsimp only
  rw [executable_passed_iff]
  split_ifs with refused
  · refine iff_of_false one (fun both => ?_)
    obtain failed | denied := refused
    · exact both.1.1 failed
    · simp [denied] at both
  · rw [not_or, Bool.not_eq_false] at refused
    cases ran : host.run with
    | error error => exact iff_of_false one (by simp)
    | ok stdout =>
      have all := (told_of_accepted gated).1
      change exitOf (runReport ..).status = 0 ↔ _
      rw [exitOf_eq_zero_iff, runReport_strength_pos_iff]
      simp [refused, all]

/-- The condition for zero of a linked candidate, over the steps before it. -/
theorem buildHarness_exit_iff {host : Host} {request : Request} {admitted : Admitted}
    (accepted : prepareRun host request = .ok admitted) (semantics : CandidateSemantics) :
    (buildHarness host request admitted semantics).core.exit = 0 ↔
      Built host ∧ (runLinked host request admitted semantics).core.exit = 0 := by
  have io : Listed "HARNESS_IO" .io .tooling := ⟨by decide, by decide⟩
  have assembleFailed : Listed ("ASSEMBLE_HARNESS" ++ "_FAILED") .assemble .never :=
    ⟨by decide, by decide⟩
  have assembleErrored : Listed ("ASSEMBLE_HARNESS" ++ "_ERROR") .assemble .tooling :=
    ⟨by decide, by decide⟩
  have linkFailed : Listed ("LINK" ++ "_FAILED") .link .never := ⟨by decide, by decide⟩
  have linkErrored : Listed ("LINK" ++ "_ERROR") .link .tooling := ⟨by decide, by decide⟩
  rw [buildHarness,
    Run.step_core_iff (fun core => core.exit = 0)
      (fun _ refused => (fileCheck_told accepted io refused).exit),
    Run.step_core_iff (fun core => core.exit = 0)
      (fun _ refused => (toolCheck_told accepted assembleFailed assembleErrored refused).exit),
    Run.step_core_iff (fun core => core.exit = 0)
      (fun _ refused => (toolCheck_told accepted linkFailed linkErrored refused).exit),
    mapError_ok_iff, ToolOutcome.check_ok_iff, ToolOutcome.check_ok_iff]
  constructor
  · rintro ⟨written, assembled, linked, zero⟩
    exact ⟨⟨written, assembled, linked⟩, zero⟩
  · rintro ⟨built, zero⟩
    exact ⟨built.written, built.assembled, built.linked, zero⟩

/-- The condition for zero of a staged candidate. -/
theorem gateCandidate_exit_iff {host : Host} {request : Request} {admitted : Admitted}
    (accepted : prepareRun host request = .ok admitted) :
    (gateCandidate host request admitted).core.exit = 0 ↔
      ∃ semantics, Gated host admitted semantics ∧ ¬ NoGenerator admitted ∧ Built host ∧
        ((checkExecutableObject host admitted.inputs.identity).status = .passed ∧
          request.allowExecution = true) ∧
        ∃ stdout, host.run = .ok stdout ∧
          (evaluate host.jsonText stdout admitted.vectors admitted.shape).allPassed = true ∧
          SlicesStand admitted semantics := by
  have one : (1 : UInt8) ≠ 0 := by decide
  obtain ⟨error, refused, same⟩ | ⟨semantics, gated, rest⟩ :=
    gateCandidate_cases host request admitted
  · rw [same]
    exact iff_of_false one (by simp [Gated, refused])
  · have only (other : CandidateSemantics) : Gated host admitted other ↔ other = semantics := by
      rw [Gated, show verifyCandidateSemantics _ _ _ _ _ = _ from gated, Except.ok.injEq, eq_comm]
    simp only [only, exists_eq_left]
    obtain ⟨missing, same⟩ | ⟨present, same⟩ := rest
    · rw [same]
      exact iff_of_false one (by simp [missing])
    · rw [same, buildHarness_exit_iff accepted, runLinked_exit_iff host request admitted _ gated]
      simp only [present, not_false_eq_true, true_and]

/-- The command exits with zero exactly when the candidate was cleared and run, every verdict on
its output is good, and no evidence slice fails it. -/
theorem exit_zero_iff (host : Host) (request : Request) :
    (runAgentVerifyCore host request).core.exit = 0 ↔
      ∃ admitted semantics stdout, Cleared host request admitted semantics ∧
        host.run = .ok stdout ∧
        (evaluate host.jsonText stdout admitted.vectors admitted.shape).allPassed = true ∧
        SlicesStand admitted semantics := by
  obtain ⟨admitted, accepted, scratch, same⟩ | ⟨_, told, refused⟩ :=
    runAgentVerifyCore_cases host request
  · have only (other : Admitted) : prepareRun host request = .ok other ↔ other = admitted := by
      rw [accepted, Except.ok.injEq, eq_comm]
    obtain ⟨event, outcome, kind, staged, failures, staging⟩ :=
      stageCandidate_eq host request admitted
    rw [same, Run.after_core, staging, Run.step_core_iff (fun core => core.exit = 0)
      (fun core refused => (failures accepted core refused).exit), staged,
      gateCandidate_exit_iff accepted]
    constructor
    · rintro ⟨there, semantics, gated, generated, built, ⟨executable, allowed⟩, stdout, ran, all,
        stand⟩
      exact ⟨admitted, semantics, stdout, ⟨⟨accepted, scratch, there, gated⟩, built, generated,
        executable, allowed⟩, ran, all, stand⟩
    · rintro ⟨other, semantics, stdout, cleared, ran, all, stand⟩
      obtain rfl := (only other).mp cleared.accepted
      exact ⟨cleared.staged, semantics, cleared.gated, cleared.generated, cleared.toBuilt,
        ⟨cleared.executable, cleared.allowed⟩, stdout, ran, all, stand⟩
  · refine iff_of_false told.exit ?_
    rintro ⟨admitted, semantics, stdout, cleared, _⟩
    exact refused ⟨admitted, cleared.accepted, cleared.scratch⟩

/-! ## What a run ends with -/

/-- A report is of an admitted request and bound to its files and vectors. The code is zero
exactly when the status is a verified one. The report has a behaviour exactly when the candidate
was run, and its isolation is then that of the runner. -/
structure ReportTold (host : Host) (request : Request) (report : AgentReport)
    (contractBytes : ByteArray) (exit : UInt8) (admitted : Admitted) : Prop where
  accepted : prepareRun host request = .ok admitted
  bytes : contractBytes = admitted.inputs.contractBytes
  contractDigest : report.contractDigest = admitted.inputs.contractDigest
  sourceDigest : report.sourceDigest = admitted.inputs.sourceDigest
  vectors : report.vectorSet = some admitted.vectorSet
  codes : exit = 0 ∨ exit = 1
  exit : exit = 0 ↔ 0 < report.status.strength
  behavior : report.behavior.isSome ↔ ∃ semantics stdout,
    Cleared host request admitted semantics ∧ host.run = .ok stdout
  isolation : report.isolation =
    if report.behavior.isSome then admitted.inputs.isolation else .staticOnly

/-- What a run ends with is consistent with what it did: an envelope says what was known, nothing
is printed only when a cleared candidate could not be run, and a report is told by `ReportTold`. -/
def CoreTold (host : Host) (request : Request) : VerifyCore → Prop
  | .early (some envelope) exit => EnvelopeTold host request envelope exit
  | .early none exit => exit = 1 ∧ ∃ admitted semantics reason,
      Cleared host request admitted semantics ∧ host.run = .error reason
  | .done report _ contractBytes exit =>
      ∃ admitted, ReportTold host request report contractBytes exit admitted

theorem FailureTold.core {host : Host} {request : Request} {core : VerifyCore}
    (told : FailureTold host request core) : CoreTold host request core := by
  obtain ⟨envelope, exit, rfl, told⟩ := told
  exact told

/-- A run ends with a property that its failures have and what follows them ends with. -/
theorem Run.step_core {property : VerifyCore → Prop} {event : Event}
    {outcome : Except VerifyCore Unit} {next : Run}
    (failures : ∀ core, outcome = .error core → property core)
    (follows : outcome = .ok () → property next.core) :
    property (Run.step event outcome next).core := by
  cases outcome with
  | error core => exact failures core rfl
  | ok value => exact follows rfl

section

variable {host : Host} {request : Request} {admitted : Admitted}

/-- A report of a candidate that was not run is told. -/
theorem endedEarly_told (accepted : prepareRun host request = .ok admitted)
    (unrun : ¬ ∃ semantics, Cleared host request admitted semantics) (gates : SemanticGates)
    (executable : ExecutableGate) (findings : List ReportFinding)
    (aliasAnalysis : Option AliasAnalysisReport) (regionAccess : Option RegionAccessReport) :
    CoreTold host request (endedEarly host request admitted gates executable findings aliasAnalysis
      regionAccess) := by
  have strength := staticReport_strength host request admitted gates executable findings
    aliasAnalysis regionAccess
  have behavior : (staticReport host request admitted gates executable findings aliasAnalysis
      regionAccess).behavior = none ∧ (staticReport host request admitted gates executable findings
      aliasAnalysis regionAccess).isolation = .staticOnly := by
    unfold staticReport finalizeReport
    cases aliasAnalysis <;> cases regionAccess <;>
      cases evaluateContractExpressions admitted.checked _ noBindings <;> exact ⟨rfl, rfl⟩
  refine ⟨admitted, accepted, rfl, rfl, rfl, rfl, Or.inr rfl, ?_, ?_, ?_⟩
  · rw [strength]
    decide
  · rw [behavior.1]
    refine iff_of_false (by simp) ?_
    rintro ⟨semantics, _, cleared, _⟩
    exact unrun ⟨semantics, cleared⟩
  · rw [behavior.1, behavior.2]
    rfl

/-- A linked candidate ends with what is told. -/
theorem runLinked_told {semantics : CandidateSemantics}
    (reached : Reached host request admitted semantics) (built : Built host)
    (generated : ¬ NoGenerator admitted) :
    CoreTold host request (runLinked host request admitted semantics).core := by
  unfold runLinked
  dsimp only
  split_ifs with refused
  · refine endedEarly_told reached.accepted ?_ _ _ _ _ _
    rintro ⟨others, cleared⟩
    obtain failed | denied := refused
    · rw [cleared.executable] at failed
      cases failed
    · rw [cleared.allowed] at denied
      cases denied
  · rw [not_or, Bool.not_eq_false] at refused
    have cleared : Cleared host request admitted semantics :=
      ⟨reached, built, generated, (executable_passed_iff _ _).mpr refused.1, refused.2⟩
    cases ran : host.run with
    | error reason => exact ⟨rfl, admitted, semantics, reason, cleared, ran⟩
    | ok stdout =>
      have report (executable : ExecutableGate) (behavior : Harness.HarnessReport) :
          (runReport host request admitted semantics executable behavior).behavior =
              some (behaviorReport behavior) ∧
            (runReport host request admitted semantics executable behavior).isolation =
              admitted.inputs.isolation := by
        unfold runReport
        cases semantics.aliasAnalysis <;> cases semantics.regionAccess <;>
          cases evaluateContractExpressions admitted.checked _ noBindings <;> exact ⟨rfl, rfl⟩
      refine ⟨admitted, reached.accepted, rfl, rfl, rfl, rfl, ?_, exitOf_eq_zero_iff _, ?_, ?_⟩
      · unfold exitOf
        split
        · exact Or.inl rfl
        · exact Or.inl rfl
        · exact Or.inr rfl
      · rw [(report _ _).1]
        exact iff_of_true rfl ⟨semantics, stdout, cleared, ran⟩
      · rw [(report _ _).1, (report _ _).2]
        rfl

/-- A candidate that passed its gates and has a harness ends with what is told. -/
theorem buildHarness_told {semantics : CandidateSemantics}
    (reached : Reached host request admitted semantics) (generated : ¬ NoGenerator admitted) :
    CoreTold host request (buildHarness host request admitted semantics).core := by
  have accepted := reached.accepted
  have io : Listed "HARNESS_IO" .io .tooling := ⟨by decide, by decide⟩
  have assembleFailed : Listed ("ASSEMBLE_HARNESS" ++ "_FAILED") .assemble .never :=
    ⟨by decide, by decide⟩
  have assembleErrored : Listed ("ASSEMBLE_HARNESS" ++ "_ERROR") .assemble .tooling :=
    ⟨by decide, by decide⟩
  have linkFailed : Listed ("LINK" ++ "_FAILED") .link .never := ⟨by decide, by decide⟩
  have linkErrored : Listed ("LINK" ++ "_ERROR") .link .tooling := ⟨by decide, by decide⟩
  refine Run.step_core (fun core refused => (fileCheck_told accepted io refused).core)
    (fun written => Run.step_core
      (fun core refused => (toolCheck_told accepted assembleFailed assembleErrored refused).core)
      (fun assembled => Run.step_core
        (fun core refused => (toolCheck_told accepted linkFailed linkErrored refused).core)
        (fun linked => ?_)))
  refine runLinked_told reached ⟨?_, ?_, ?_⟩ generated
  · exact (mapError_ok_iff _ _ _).mp written
  · exact (ToolOutcome.check_ok_iff _ _ _ _ _).mp assembled
  · exact (ToolOutcome.check_ok_iff _ _ _ _ _).mp linked

/-- A staged candidate ends with what is told. -/
theorem gateCandidate_told (accepted : prepareRun host request = .ok admitted)
    (scratch : host.createScratch = .ok ()) (staged : Staged host request) :
    CoreTold host request (gateCandidate host request admitted).core := by
  obtain ⟨error, refused, same⟩ | ⟨semantics, gated, ⟨missing, same⟩ | ⟨present, same⟩⟩ :=
    gateCandidate_cases host request admitted
  · rw [same]
    refine endedEarly_told accepted ?_ _ _ _ _ _
    rintro ⟨semantics, cleared⟩
    rw [show verifyCandidateSemantics _ _ _ _ _ = _ from cleared.gated] at refused
    cases refused
  · rw [same]
    refine endedEarly_told accepted ?_ _ _ _ _ _
    rintro ⟨_, cleared⟩
    exact cleared.generated missing
  · rw [same]
    exact buildHarness_told ⟨accepted, scratch, staged, gated⟩ present

end

/-- Whatever a run ends with is consistent with what it did.

Proof: every step either fails with an envelope, which says what was known, or is followed by the
next. The reports that end a run before the candidate is run have no behaviour, and the slices
attached to them make no status stronger. -/
theorem coreTold (host : Host) (request : Request) :
    CoreTold host request (runAgentVerifyCore host request).core := by
  obtain ⟨admitted, accepted, scratch, same⟩ | ⟨_, told, _⟩ :=
    runAgentVerifyCore_cases host request
  · obtain ⟨event, outcome, _, staged, failures, staging⟩ :=
      stageCandidate_eq host request admitted
    rw [same, Run.after_core, staging]
    exact Run.step_core (fun core refused => (failures accepted core refused).core)
      (fun done => gateCandidate_told accepted scratch (staged.mp done))
  · exact told.core

end Semasm.Cli.Commands
