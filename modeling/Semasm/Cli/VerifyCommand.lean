import Semasm.Agent.Harness.ExternalCases
import Semasm.Agent.Harness.Generators
import Semasm.Agent.Harness.OracleEvidence
import Semasm.Agent.Harness.Synthesis
import Semasm.Cli.SemanticGates
import Semasm.Contract.Document

/-!
# The verify command

The command reads a contract and a candidate, synthesizes vectors, gates the candidate, builds a
harness around it, and runs it if that is allowed. It ends with a report, or with an envelope that
says why there is none. What the machine answers is a parameter: the tools that are there, the
contents of files, what the assembler, the linker and the candidate do.
-/

namespace Semasm.Cli.Commands

open Agent Agent.Harness Contract Decode Library.Checks Obj

/-! ## Failure envelopes -/

/-- Machine-readable stage that failed before a full verification report. -/
inductive FailureStage where
  | usage | toolchain | contract | io | unsupportedShape | assemble | link | execute | pipeline
deriving DecidableEq, Repr

/-- Whether a controller may safely retry the same inputs. -/
inductive Retryability where
  | never | tooling | transient
deriving DecidableEq, Repr

/-- The envelope that stands for a report there is none of. -/
structure AgentFailureEnvelope where
  schemaVersion : String
  kind : String
  code : String
  stage : FailureStage
  message : String
  retryability : Retryability
  toolVersion : Option String
  target : Option String
  routineSymbol : Option String
  contractDigest : Option String
  sourceDigest : Option String
  detail : Option String
deriving DecidableEq

namespace AgentFailureEnvelope

/-- `AgentFailureEnvelope::new`. -/
def new (code : String) (stage : FailureStage) (message : String) (retryability : Retryability) :
    AgentFailureEnvelope where
  schemaVersion := "0.1"
  kind := "agent_failure"
  code := code
  stage := stage
  message := message
  retryability := retryability
  toolVersion := some "semasm 0.5.0"
  target := none
  routineSymbol := none
  contractDigest := none
  sourceDigest := none
  detail := none

/-- `with_target`. -/
def withTarget (envelope : AgentFailureEnvelope) (target : String) : AgentFailureEnvelope :=
  { envelope with target := some target }

/-- `with_routine`. -/
def withRoutine (envelope : AgentFailureEnvelope) (symbol : String) : AgentFailureEnvelope :=
  { envelope with routineSymbol := some symbol }

/-- `with_digests`. -/
def withDigests (envelope : AgentFailureEnvelope) (contractDigest sourceDigest : Option String) :
    AgentFailureEnvelope :=
  { envelope with contractDigest := contractDigest, sourceDigest := sourceDigest }

/-- The longest front of a text whose encoding has at most so many bytes. -/
def fittingFront : Nat → List Char → List Char
  | _, [] => []
  | room, char :: rest =>
    if char.utf8Size ≤ room then char :: fittingFront (room - char.utf8Size) rest else []

/-- `with_detail`. The cut is on the last character boundary that fits. -/
def withDetail (envelope : AgentFailureEnvelope) (detail : String) : AgentFailureEnvelope :=
  let text :=
    if 4096 < detail.utf8ByteSize then String.ofList (fittingFront 4096 detail.toList) ++ "…"
    else detail
  { envelope with detail := some text }

end AgentFailureEnvelope

/-! ## The report -/

/-- Origin of a case in the merged vector set. -/
inductive VectorOrigin where
  | builtin | external
deriving DecidableEq, Repr

/-- Per-case binding recorded in a report. -/
structure VectorCaseBinding where
  name : String
  origin : VectorOrigin
  externalCaseId : Option String
deriving DecidableEq, Repr

/-- Integrity binding for the vector set used by a verification. -/
structure VectorSetEvidence where
  externalDocumentDigest : Option String
  builtinCaseCount : Nat
  externalCaseCount : Nat
  cases : List VectorCaseBinding
deriving DecidableEq, Repr

/-- The report with the parts no status depends on. -/
structure AgentReport extends VerificationReport where
  behaviorOracle : Option BehaviorOracle
  vectorSet : Option VectorSetEvidence

/-- What a run of the core ends with: an envelope was printed, or nothing, and the code to exit
with is known; or there is a report. -/
inductive VerifyCore where
  | early (printed : Option AgentFailureEnvelope) (exit : UInt8)
  | done (report : AgentReport) (objectBytes : Nat) (contractBytes : ByteArray) (exit : UInt8)

/-- `early_failure`. -/
def earlyFailure (envelope : AgentFailureEnvelope) (code : UInt8) : VerifyCore :=
  .early (some envelope) code

/-! ## The machine and the request -/

/-- What became of a tool: it succeeded, it failed and wrote to its error stream, or it could not
be run. -/
inductive ToolOutcome where
  | succeeded
  | failed (stderr : String)
  | error (message : String)

/-- A path with what the command looks at. -/
structure NamedPath where
  display : String
  fileName : Option String
  extension : Option String
  text : Option String

/-- A fail-closed external vector document. -/
structure ExternalVectorDocument where
  schemaVersion : String
  contractDigest : String
  target : String
  routineSymbol : String
  cases : List ExternalVectorCase

/-- What the machine answers to the questions of one run. -/
structure Host where
  allToolsFound : TargetIdentity → Bool
  runner : TargetIdentity → Option String
  readFile : NamedPath → Except String ByteArray
  utf8 : ByteArray → Except String String
  sha256 : ByteArray → List UInt8
  jsonText : Json → String
  fromToml : String → Except String ContractDocument
  diagnosticsText : String → List Diagnostic → String
  readVectors : ByteArray → Except String ExternalVectorDocument
  canonicalDocumentDigest : ExternalVectorDocument → String
  disasmAll : Disassembler
  createScratch : Except String Unit
  copySource : Except String Unit
  assembleRoutine : ToolOutcome
  objectBytes : Nat
  candidate : Except String ObjectFile
  writeHarness : Except String Unit
  assembleHarness : ToolOutcome
  link : ToolOutcome
  executable : Except String ObjectFile
  run : Except String (List UInt8)

/-- What the command is asked. -/
structure Request where
  source : NamedPath
  contract : NamedPath
  target : String
  allowExecution : Bool
  vectorsFile : Option NamedPath

/-- `sha256_digest_prefixed`. -/
def sha256DigestPrefixed (host : Host) (bytes : ByteArray) : String :=
  "sha256:" ++ hexPrefix (host.sha256 bytes) (host.sha256 bytes).length

/-- `ExecutionIsolation::from_runner`. -/
def isolationFromRunner : Option String → ExecutionIsolation
  | none => .staticOnly
  | some runner =>
    if runner = "__native__" then .nativeHost
    else if Text.startsWith runner "qemu" then .qemuUser
    else .nativeHost

/-- `CheckResult::ok`. -/
def checkOk (check : CheckResult) : Bool := check.diagnostics.isEmpty && check.contract.isSome

/-- The derived rendering of a type. -/
def debugType : SemType → String
  | .bool => "Bool"
  | .status => "Status"
  | .uint bits => "UInt \x7b bits: " ++ toString bits ++ " \x7d"
  | .int bits => "Int \x7b bits: " ++ toString bits ++ " \x7d"
  | .usize => "Usize"
  | .isize => "Isize"
  | .ptr inner isConst => "Ptr \x7b inner: " ++ debugType inner ++ ", is_const: " ++
      toString isConst ++ " \x7d"
  | .slice inner => "Slice \x7b inner: " ++ debugType inner ++ " \x7d"
  | .array inner len => "Array \x7b inner: " ++ debugType inner ++ ", len: " ++ toString len ++
      " \x7d"
  | .named name => "Opaque \x7b name: \"" ++ name ++ "\" \x7d"

/-- `unsupported_shape_hint`. -/
def unsupportedShapeHint (contract : CheckedContract) : String :=
  "Observed parameters=[" ++ ", ".intercalate (contract.parameters.map fun p => debugType p.ty) ++
  "] returns=[" ++ ", ".intercalate (contract.returns.map fun r => debugType r.ty) ++
  "]. Recognized pure-int unary i64 names include " ++
  "abs_*, inc_*/increment*, return_*/identity_*, scale_*/double_*, sum_range_*, countdown_*, " ++
  "add_base_*; binary i64 names include add_*/sub_*/min_*/max_*. Buffer scans need " ++
  "ptr+length (+ optional needle). Rename the routine to a recognized token or use an " ++
  "admitted leaf shape — see SemASM fixtures/contracts/."

/-! ## Admission -/

/-- What is read before the contract is looked at. -/
structure Inputs where
  identity : TargetIdentity
  isolation : ExecutionIsolation
  contractBytes : ByteArray
  contractDigest : String
  sourceDigest : String

/-- The target, the tools and the two files. -/
def readInputs (host : Host) (request : Request) : Except VerifyCore Inputs := do
  let identity ← (TargetIdentity.parseKnown request.target).mapError fun error =>
    earlyFailure (.new "INVALID_TARGET" .usage ("error: " ++ error) .never) 2
  require (host.allToolsFound identity) (earlyFailure ((AgentFailureEnvelope.new
    "TOOLCHAIN_INCOMPLETE" .toolchain ("error: toolchain incomplete for target `" ++
      request.target ++ "`; run `semasm target doctor " ++ request.target ++ "`")
    .tooling).withTarget request.target) 1)
  let contractBytes ← (host.readFile request.contract).mapError fun error =>
    earlyFailure ((AgentFailureEnvelope.new "CONTRACT_IO" .io
      (request.contract.display ++ ": error: " ++ error) .tooling).withTarget request.target) 1
  let sourceBytes ← (host.readFile request.source).mapError fun error =>
    earlyFailure ((AgentFailureEnvelope.new "SOURCE_IO" .io
      (request.source.display ++ ": error: " ++ error) .tooling).withTarget request.target) 1
  return ⟨identity, isolationFromRunner (host.runner identity), contractBytes,
    sha256DigestPrefixed host contractBytes, sha256DigestPrefixed host sourceBytes⟩

/-- A failure after both files were read. -/
def Inputs.failure (inputs : Inputs) (request : Request) (code : String) (stage : FailureStage)
    (message : String) (retryability : Retryability) : AgentFailureEnvelope :=
  ((AgentFailureEnvelope.new code stage message retryability).withTarget
    request.target).withDigests (some inputs.contractDigest) (some inputs.sourceDigest)

/-- The checked contract. -/
def checkContract (host : Host) (request : Request) (inputs : Inputs) :
    Except VerifyCore CheckedContract := do
  let contractText ← (host.utf8 inputs.contractBytes).mapError fun error =>
    earlyFailure (inputs.failure request "CONTRACT_ENCODING" .contract
      (request.contract.display ++ ": error: " ++ error) .never) 1
  let check := checkStr host.fromToml contractText
  let refused := earlyFailure ((inputs.failure request "CONTRACT_INVALID" .contract
    (request.contract.display ++ ": contract check failed") .never).withDetail
      (host.diagnosticsText request.contract.display check.diagnostics)) 1
  require (checkOk check) refused
  match check.contract with
  | some contract => .ok contract
  | none => .error refused

/-- A failure after the contract was checked. -/
def Inputs.routineFailure (inputs : Inputs) (request : Request) (checked : CheckedContract)
    (code : String) (stage : FailureStage) (message : String) (retryability : Retryability) :
    AgentFailureEnvelope :=
  (inputs.failure request code stage message retryability).withRoutine checked.name

/-- What is wrong with the binding of an external document. -/
def bindingError (document : ExternalVectorDocument) (contractDigest target routine : String) :
    Option String :=
  if document.schemaVersion ≠ "0.1" then
    some ("unsupported external vector schema '" ++ document.schemaVersion ++ "'; expected '0.1'")
  else if document.contractDigest ≠ contractDigest then
    some "external vector contract_digest does not match the verified contract"
  else if document.target ≠ target then some "external vector target does not match --target"
  else if document.routineSymbol ≠ routine then
    some "external vector routine_symbol does not match the contract"
  else if document.cases.isEmpty then
    some "external vector document must contain at least one case"
  else none

/-- The external vectors of a request and the digest of their document, if it names one. -/
def readExternal (host : Host) (request : Request) (inputs : Inputs) (checked : CheckedContract) :
    Except VerifyCore (Option (ExternalVectorDocument × List TestVector)) :=
  match request.vectorsFile with
  | none => .ok none
  | some path => do
    let bytes ← (host.readFile path).mapError fun error =>
      earlyFailure (inputs.routineFailure request checked "VECTORS_IO" .io
        (path.display ++ ": error: " ++ error) .tooling) 1
    let document ← (host.readVectors bytes).mapError fun error =>
      earlyFailure (inputs.routineFailure request checked "VECTORS_INVALID" .contract
        (path.display ++ ": invalid external vector document: " ++ error) .never) 1
    match bindingError document inputs.contractDigest request.target checked.name with
    | some message =>
      .error (earlyFailure (inputs.routineFailure request checked "VECTORS_BINDING_MISMATCH"
        .contract ("error: " ++ message) .never) 1)
    | none =>
      let vectors ← (externalVectors checked [] document.cases).mapError fun message =>
        earlyFailure (inputs.routineFailure request checked "VECTORS_INVALID" .contract message
          .never) 1
      return some (document, vectors)

/-- What a candidate is verified against. -/
structure Admitted where
  inputs : Inputs
  checked : CheckedContract
  vectors : List TestVector
  vectorSet : VectorSetEvidence
  shape : HarnessShape

/-- The bindings of the vectors of a run. -/
def caseBindings (builtin : List TestVector)
    (external : Option (ExternalVectorDocument × List TestVector)) : List VectorCaseBinding :=
  builtin.map (fun vector => ⟨vector.name, .builtin, none⟩) ++
    external.elim [] (fun found => (found.1.cases.zip found.2).map
      (fun pair => ⟨pair.2.name, .external, some pair.1.id⟩))

/-- Everything before the scratch directory. -/
def prepareRun (host : Host) (request : Request) : Except VerifyCore Admitted := do
  let inputs ← readInputs host request
  let checked ← checkContract host request inputs
  let builtin := synthesizeVectors checked
  require (!builtin.isEmpty) (earlyFailure ((inputs.routineFailure request checked
    "UNSUPPORTED_SHAPE" .unsupportedShape ("error: no test vectors synthesised for `" ++
      checked.name ++ "`; the routine shape is not yet supported by the harness. " ++
      unsupportedShapeHint checked) .never).withDetail (unsupportedShapeHint checked)) 1)
  let external ← readExternal host request inputs checked
  let vectors := builtin ++ external.elim [] Prod.snd
  let vectorSet : VectorSetEvidence :=
    { externalDocumentDigest := external.map (fun found => host.canonicalDocumentDigest found.1)
      builtinCaseCount := builtin.length
      externalCaseCount := vectors.length - builtin.length
      cases := caseBindings builtin external }
  let shape ← (resolveHarnessShape checked vectors).mapError fun message =>
    earlyFailure (inputs.routineFailure request checked "HARNESS_MISMATCH" .unsupportedShape
      ("error: contract/harness mismatch: " ++ message) .never) 1
  return ⟨inputs, checked, vectors, vectorSet, shape⟩

/-- A failure of an admitted request. -/
def Admitted.failure (admitted : Admitted) (request : Request) (code : String)
    (stage : FailureStage) (message : String) (retryability : Retryability) :
    AgentFailureEnvelope :=
  admitted.inputs.routineFailure request admitted.checked code stage message retryability

/-! ## The report of a run -/

/-- The report of the harness as it stands in a verification report. -/
def behaviorReport (report : Harness.HarnessReport) : Agent.HarnessReport :=
  ⟨report.cases.map (fun case => ⟨case.name, case.passed, case.expected, case.observed⟩),
    report.allPassed⟩

/-- The label of the contract in the evidence of the oracle. -/
def contractLabel (contract : NamedPath) : String :=
  contract.fileName.getD (contract.text.getD "contract")

/-- The evidence of the recognized oracle. -/
def oracleEvidence (host : Host) (request : Request) (admitted : Admitted)
    (behavior : Option Harness.HarnessReport) : Option BehaviorOracle :=
  (recognizeBehaviorOracle admitted.checked).map fun recognized =>
    buildBehaviorOracle host.sha256 host.jsonText recognized admitted.checked
      (contractLabel request.contract) admitted.inputs.contractBytes admitted.vectors behavior

/-- `ExprBindings::default`. -/
def noBindings : ExprBindings := ⟨fun _ => none, fun _ => none⟩

/-- A report with the parts no status depends on. -/
def sealReport (host : Host) (request : Request) (admitted : Admitted)
    (behavior : Option Harness.HarnessReport) (report : VerificationReport) : AgentReport where
  toVerificationReport :=
    { report with
      contractDigest := admitted.inputs.contractDigest
      sourceDigest := admitted.inputs.sourceDigest }
  behaviorOracle := oracleEvidence host request admitted behavior
  vectorSet := some admitted.vectorSet

/-- `finalize_report`: the report of a run that did not reach the candidate. -/
def finalizeReport (host : Host) (request : Request) (admitted : Admitted)
    (report : VerificationReport) (aliasAnalysis : Option AliasAnalysisReport)
    (regionAccess : Option RegionAccessReport) : AgentReport :=
  let exprs := evaluateContractExpressions admitted.checked aliasAnalysis noBindings
  let report := aliasAnalysis.elim report report.withAliasAnalysis
  let report := regionAccess.elim report report.withRegionAccess
  let report := exprs.elim report report.withContractExpressions
  sealReport host request admitted none report

/-- The report of a candidate that was run. The expressions are attached before the regions. -/
def runReport (host : Host) (request : Request) (admitted : Admitted)
    (semantics : CandidateSemantics) (executable : ExecutableGate)
    (behavior : Harness.HarnessReport) : AgentReport :=
  let report := VerificationReport.fromParts admitted.inputs.identity.name admitted.checked.name
    semantics.gates executable (some (behaviorReport behavior)) admitted.inputs.isolation
  let exprs := evaluateContractExpressions admitted.checked semantics.aliasAnalysis noBindings
  let report := semantics.aliasAnalysis.elim report report.withAliasAnalysis
  let report := exprs.elim report report.withContractExpressions
  let report := semantics.regionAccess.elim report report.withRegionAccess
  sealReport host request admitted (some behavior) { report with findings := semantics.findings }

/-- The report of a run that did not reach the candidate, with the findings of its gates. -/
def staticReport (host : Host) (request : Request) (admitted : Admitted) (gates : SemanticGates)
    (executable : ExecutableGate) (findings : List ReportFinding)
    (aliasAnalysis : Option AliasAnalysisReport) (regionAccess : Option RegionAccessReport) :
    AgentReport :=
  finalizeReport host request admitted
    { VerificationReport.fromParts admitted.inputs.identity.name admitted.checked.name gates
        executable none .staticOnly with findings := findings } aliasAnalysis regionAccess

/-- The code to exit with after a run of the candidate. -/
def exitOf (status : VerificationStatus) : UInt8 :=
  match status with
  | .verified | .verifiedUnderPreconditions => 0
  | _ => 1

/-! ## The run -/

/-- What a run does to the machine. -/
inductive Event where
  | createScratch | copySource | assembleRoutine | writeHarness | assembleHarness | link
  | runCandidate | removeScratch
deriving DecidableEq, Repr

/-- What a run did, in order, and how it ended. -/
structure Run where
  events : List Event
  core : VerifyCore

/-- A run that ends here. -/
def Run.ends (core : VerifyCore) : Run := ⟨[], core⟩

/-- A run that removes its directory and ends. -/
def Run.cleans (core : VerifyCore) : Run := ⟨[.removeScratch], core⟩

/-- A run that does something first. -/
def Run.after (event : Event) (run : Run) : Run := { run with events := event :: run.events }

/-- A run that does something that may fail, and goes on if it did not. -/
def Run.step (event : Event) (outcome : Except VerifyCore Unit) (next : Run) : Run :=
  match outcome with
  | .error core => .after event (.cleans core)
  | .ok _ => .after event next

/-- What a tool that did not succeed is reported as. -/
def ToolOutcome.check (outcome : ToolOutcome) (failure : String → FailureStage → String →
    Retryability → AgentFailureEnvelope) (code : String) (stage : FailureStage) (what : String) :
    Except VerifyCore Unit :=
  match outcome with
  | .succeeded => .ok ()
  | .failed stderr =>
    .error (earlyFailure ((failure (code ++ "_FAILED") stage (what ++ " failed: " ++ stderr)
      .never).withDetail stderr) 1)
  | .error message =>
    .error (earlyFailure ((failure (code ++ "_ERROR") stage (what ++ " error: " ++ message)
      .tooling).withDetail message) 1)

/-- `check_executable_object`. -/
def checkExecutableObject (host : Host) (identity : TargetIdentity) : ExecutableGate :=
  match host.executable with
  | .error _ => ⟨.failed⟩
  | .ok file =>
    match readForTarget file identity.isa with
    | .ok info => if info.kind = .executable then ⟨.passed⟩ else ⟨.failed⟩
    | .error _ => ⟨.failed⟩

section

variable (host : Host) (request : Request) (admitted : Admitted)

/-- A report that ends a run before the candidate is run. -/
def endedEarly (gates : SemanticGates) (executable : ExecutableGate)
    (findings : List ReportFinding) (aliasAnalysis : Option AliasAnalysisReport)
    (regionAccess : Option RegionAccessReport) : VerifyCore :=
  .done (staticReport host request admitted gates executable findings aliasAnalysis regionAccess)
    host.objectBytes admitted.inputs.contractBytes 1

/-- A candidate that is linked: the executable gate, the opt-in and the run. -/
def runLinked (semantics : CandidateSemantics) : Run :=
  let executable := checkExecutableObject host admitted.inputs.identity
  if executable.status = .failed ∨ request.allowExecution = false then
    .cleans (endedEarly host request admitted semantics.gates executable semantics.findings
      semantics.aliasAnalysis semantics.regionAccess)
  else
    .after .runCandidate <|
      match host.run with
      | .error _ => .cleans (.early none 1)
      | .ok stdout =>
        let report := runReport host request admitted semantics executable
          (evaluate host.jsonText stdout admitted.vectors admitted.shape)
        .cleans (.done report host.objectBytes admitted.inputs.contractBytes
          (exitOf report.status))

/-- The harness around a candidate that passed its gates: written, assembled and linked. -/
def buildHarness (semantics : CandidateSemantics) : Run :=
  .step .writeHarness (host.writeHarness.mapError fun error =>
      earlyFailure (admitted.failure request "HARNESS_IO" .io
        ("error: cannot write harness source: " ++ error) .tooling) 1) <|
    .step .assembleHarness (host.assembleHarness.check (admitted.failure request)
        "ASSEMBLE_HARNESS" .assemble "assemble harness") <|
      .step .link (host.link.check (admitted.failure request) "LINK" .link "link") <|
        runLinked host request admitted semantics

/-- The object of the candidate: its gates, and then the generator of the harness. A generator
that refuses leaves the scratch directory where it is. -/
def gateCandidate : Run :=
  match verifyCandidateSemantics host.disasmAll host.candidate admitted.inputs.identity
      admitted.checked.name admitted.checked with
  | .error error =>
    .cleans (endedEarly host request admitted (fromError error 0) ⟨.skipped⟩ error.findings none
      none)
  | .ok semantics =>
    match Programs.generateHarness admitted.checked.name admitted.vectors
        admitted.inputs.identity.abi admitted.shape with
    | .error _ =>
      .ends (endedEarly host request admitted semantics.gates ⟨.skipped⟩ semantics.findings
        semantics.aliasAnalysis semantics.regionAccess)
    | .ok _ => buildHarness host request admitted semantics

/-- A source with an object's extension is taken as it is. -/
def prebuiltObject : Bool :=
  let extension := Text.asciiLower (request.source.extension.getD "")
  extension == "o" || extension == "obj"

/-- The candidate's object in the scratch directory. -/
def stageCandidate : Run :=
  if prebuiltObject request then
    .step .copySource (host.copySource.mapError fun error =>
        earlyFailure (admitted.failure request "SOURCE_IO" .io
          (request.source.display ++ ": error: cannot stage prebuilt object: " ++ error)
          .tooling) 1) <|
      gateCandidate host request admitted
  else
    .step .assembleRoutine (host.assembleRoutine.check (admitted.failure request) "ASSEMBLE"
        .assemble "assemble routine") <|
      gateCandidate host request admitted

end

/-- `run_agent_verify_core`. -/
def runAgentVerifyCore (host : Host) (request : Request) : Run :=
  match prepareRun host request with
  | .error core => .ends core
  | .ok admitted =>
    match host.createScratch with
    | .error error =>
      .ends (earlyFailure (admitted.failure request "SCRATCH_IO" .pipeline
        ("error: cannot create scratch dir: " ++ error) .tooling) 1)
    | .ok _ => .after .createScratch (stageCandidate host request admitted)

end Semasm.Cli.Commands
