import Mathlib.Data.List.Forall2
import Semasm.AArch64.Abi
import Semasm.Agent.Harness.ScalarSources
import Semasm.Cli.CfgLeaf
import Semasm.Cli.MemoryEffects
import Semasm.Cli.MemoryEffectsAArch64
import Semasm.Cli.MemoryEffectsRiscv
import Semasm.Cli.ReadOnlyLeaf
import Semasm.Library.Checks
import Semasm.Riscv.Abi
import Semasm.X86.Abi.SysV
import Semasm.X86.Abi.Win64

/-!
# The static gates of a candidate

A candidate goes through its gates in order: the target, the object, decoding, lowering, the
calling convention, the capability, control flow and the memory leaf. The first gate that
refuses it ends the walk with an error that names its stage. The snapshot that is reported for
an error says of every gate whether it passed, failed or was not reached.
-/

namespace Semasm.Cli.Commands

open Agent Agent.Harness Contract Decode Obj

/-! ## Targets -/

/-- Object file format. -/
inductive ObjectFormat where
  | elf | peCoff
deriving DecidableEq, Repr

/-- Assembly source dialect. -/
inductive Dialect where
  | nasmIntel | gasAtt | gasUnified
deriving DecidableEq, Repr

/-- Complete target identity. -/
structure TargetIdentity where
  name : String
  isa : Isa
  abi : Abi
  objectFormat : ObjectFormat
  dialect : Dialect
deriving DecidableEq, Repr

namespace TargetIdentity

/-- `x86_64_linux_gnu`. -/
def x86_64LinuxGnu : TargetIdentity :=
  ⟨"x86_64-unknown-linux-gnu", .x86_64, .sysVAmd64, .elf, .nasmIntel⟩

/-- `x86_64_windows_msvc`. -/
def x86_64WindowsMsvc : TargetIdentity :=
  ⟨"x86_64-pc-windows-msvc", .x86_64, .windowsX64, .peCoff, .nasmIntel⟩

/-- `aarch64_linux_gnu`. -/
def aarch64LinuxGnu : TargetIdentity :=
  ⟨"aarch64-unknown-linux-gnu", .aarch64, .aapcs64, .elf, .gasUnified⟩

/-- `riscv64_linux_gnu`. -/
def riscv64LinuxGnu : TargetIdentity :=
  ⟨"riscv64gc-unknown-linux-gnu", .riscv64, .riscv, .elf, .gasUnified⟩

/-- `parse_known`. -/
def parseKnown (name : String) : Except String TargetIdentity :=
  match name with
  | "x86_64-unknown-linux-gnu" | "x86_64-linux-gnu" => .ok x86_64LinuxGnu
  | "x86_64-pc-windows-msvc" | "x86_64-windows-msvc" => .ok x86_64WindowsMsvc
  | "aarch64-unknown-linux-gnu" | "aarch64-linux-gnu" => .ok aarch64LinuxGnu
  | "riscv64gc-unknown-linux-gnu" | "riscv64-linux-gnu" => .ok riscv64LinuxGnu
  | other => .error ("not found: unknown or unsupported target `" ++ other ++
      "` (planned targets are not yet registered)")

end TargetIdentity

/-! ## Snapshots -/

/-- `Coverage::complete`. -/
def completeCoverage (total : Nat) : Coverage := ⟨total, total, 0⟩

/-- `Coverage::unknown_incomplete`. -/
def unknownIncomplete : Coverage := ⟨0, 0, 1⟩

/-- `Coverage::not_started`. -/
def notStarted : Coverage := ⟨0, 0, 0⟩

/-- `SemanticGates::from_error`. -/
def fromError (error : SemanticGateError) (executableBytes : Nat) : SemanticGates :=
  let decode := error.decode.getD notStarted
  let lowering := error.lowering.getD notStarted
  match error.stage with
  | "target" | "object" =>
    ⟨.failed, executableBytes, notStarted, notStarted, .skipped, .skipped, .skipped, .skipped⟩
  | "decode" =>
    ⟨.passed, executableBytes, error.decode.getD unknownIncomplete, notStarted, .skipped, .skipped,
      .skipped, .skipped⟩
  | "lowering" =>
    ⟨.passed, executableBytes, if error.decode.isSome then decode else notStarted,
      error.lowering.getD unknownIncomplete, .skipped, .skipped, .skipped, .skipped⟩
  | "abi" => ⟨.passed, executableBytes, decode, lowering, .failed, .skipped, .skipped, .skipped⟩
  | "capability" =>
    ⟨.passed, executableBytes, decode, lowering, .passed, .failed, .skipped, .skipped⟩
  | "cfg" | "control" =>
    ⟨.passed, executableBytes, decode, lowering, .passed, .passed, .failed, .skipped⟩
  | "memory" => ⟨.passed, executableBytes, decode, lowering, .passed, .passed, .passed, .failed⟩
  | _ =>
    ⟨.failed, executableBytes, error.decode.getD unknownIncomplete, error.lowering.getD notStarted,
      .skipped, .skipped, .skipped, .skipped⟩

/-- `semantic_gates_passed`. -/
def semanticGatesPassed (codeBytes : Nat) (decode lowering : Coverage) : SemanticGates :=
  ⟨.passed, codeBytes, decode, lowering, .passed, .passed, .passed, .passed⟩

/-! ## The gates of each instruction set -/

/-- The error at an instruction that is not modelled, after so many that are. -/
def loweringError (physical : List PhysicalInstruction) (decodeCoverage : Coverage)
    (instruction : PhysicalInstruction) (mnemonic : String) (modeled : Nat) :
    SemanticGateError where
  stage := "lowering"
  message := "lowering coverage incomplete at " ++ hexText instruction.address ++
    ": unsupported `" ++ mnemonic ++ "`"
  decode := some decodeCoverage
  lowering := some ⟨physical.length, modeled, physical.length - modeled⟩

/-- The lowering loop: what is lowered so far. -/
def lowerLoop {Instr : Type} (lower : PhysicalInstruction → Except String Instr)
    (physical : List PhysicalInstruction) (decodeCoverage : Coverage) (lowered : List Instr) :
    List PhysicalInstruction → Except SemanticGateError (List Instr)
  | [] => .ok lowered
  | instruction :: rest =>
    match lower instruction with
    | .ok one => lowerLoop lower physical decodeCoverage (lowered ++ [one]) rest
    | .error mnemonic =>
      .error (loweringError physical decodeCoverage instruction mnemonic lowered.length)

/-- The lowering of a body, over what becomes of one instruction. -/
def lowerInstructions {Instr : Type} (lower : PhysicalInstruction → Except String Instr)
    (physical : List PhysicalInstruction) (decodeCoverage : Coverage) :
    Except SemanticGateError (List Instr) :=
  lowerLoop lower physical decodeCoverage [] physical

/-- The lowering of one x86-64 instruction, or its mnemonic. -/
def lowerX86 (instruction : PhysicalInstruction) : Except String X86.LoweredInstr :=
  match X86.lower instruction with
  | .lowered lowered => .ok lowered
  | .unsupported mnemonic => .error mnemonic

/-- The lowering of one AArch64 instruction, or its mnemonic. -/
def lowerAArch64 (instruction : PhysicalInstruction) : Except String AArch64.LoweredInstr :=
  match AArch64.lower instruction with
  | .lowered lowered => .ok lowered
  | .unsupported mnemonic => .error mnemonic

/-- The lowering of one RISC-V instruction, or its mnemonic. -/
def lowerRiscv (instruction : PhysicalInstruction) : Except String Riscv.LoweredInstr :=
  match Riscv.lower instruction with
  | .lowered lowered => .ok lowered
  | .unsupported mnemonic => .error mnemonic

/-- `severity_str`. -/
def severityText : X86.Abi.Severity → String
  | .error => "error" | .warning => "warning" | .info => "info"

/-- A finding of the report. -/
def reportFinding (finding : X86.Abi.AbiFinding) : ReportFinding :=
  ⟨finding.code, severityText finding.severity, finding.message, finding.index⟩

/-- The codes and messages of findings. -/
def joinedFindings (findings : List X86.Abi.AbiFinding) : String :=
  "; ".intercalate (findings.map (fun finding => finding.code ++ ": " ++ finding.message))

/-- The convention and the capability gate: findings that are not clean are refused, then a
body that asks for a forbidden capability. -/
def checkAbiCapability (findings : List X86.Abi.AbiFinding) (clean : Bool) (abiMessage : String)
    (forbidden : Bool) (capabilityMessage : String) (reported : List ReportFinding)
    (decode lowering : Coverage) : Except SemanticGateError (List ReportFinding) :=
  if !clean then
    .error ⟨"abi", abiMessage ++ joinedFindings findings, some decode, some lowering, reported⟩
  else if forbidden then
    .error ⟨"capability", capabilityMessage, some decode, some lowering, reported⟩
  else .ok reported

/-- The refusal names one of the stages and carries the coverage of both passes. -/
def RefusedAt (stages : List String) (decode lowering : Coverage) (error : SemanticGateError) :
    Prop :=
  error.stage ∈ stages ∧ error.decode = some decode ∧ error.lowering = some lowering

/-- The convention and capability gate refuses at one of its own stages. -/
theorem checkAbiCapability_refuses {findings : List X86.Abi.AbiFinding} {clean forbidden : Bool}
    {abiMessage capabilityMessage : String} {reported : List ReportFinding}
    {decode lowering : Coverage} {error : SemanticGateError}
    (refused : checkAbiCapability findings clean abiMessage forbidden capabilityMessage reported
      decode lowering = .error error) :
    RefusedAt ["abi", "capability"] decode lowering error := by
  unfold checkAbiCapability at refused
  cases clean with
  | false =>
    cases refused
    exact ⟨List.mem_cons_self .., rfl, rfl⟩
  | true =>
    cases forbidden with
    | false => cases refused
    | true =>
      cases refused
      exact ⟨List.mem_cons_of_mem _ (List.mem_cons_self ..), rfl, rfl⟩

/-- The memory gate refuses at its own stage. -/
theorem checkReadOnlyBufferLeaf_refuses {Instr : Type} {writes : Instr → Bool}
    {mnemonic : Instr → String} {lowered : List Instr} {contract : CheckedContract}
    {decode lowering : Coverage} {error : SemanticGateError}
    (refused : checkReadOnlyBufferLeaf writes mnemonic lowered contract decode lowering =
      .error error) : RefusedAt ["memory"] decode lowering error := by
  unfold checkReadOnlyBufferLeaf at refused
  cases readOnly : isReadOnlyBufferScan contract with
  | false => simp [readOnly] at refused
  | true =>
    cases found : lowered.find? writes with
    | none => simp [readOnly, found] at refused
    | some instruction =>
      simp only [readOnly, found, if_pos] at refused
      cases refused
      exact ⟨List.mem_cons_self .., rfl, rfl⟩

/-- The control-flow gate refuses at its own stage. -/
theorem checkCfgLeaf_refuses {physical : List PhysicalInstruction} {decode lowering : Coverage}
    {error : SemanticGateError} (refused : checkCfgLeaf physical decode lowering = .error error) :
    RefusedAt ["cfg"] decode lowering error := by
  have anyMessage (message : String) : RefusedAt ["cfg"] decode lowering
      (cfgError decode lowering message) := ⟨List.mem_cons_self .., rfl, rfl⟩
  unfold checkCfgLeaf at refused
  cases first : physical.findSome? instructionRejection with
  | some message =>
    rw [first] at refused
    cases refused
    exact anyMessage message
  | none =>
    rw [first] at refused
    cases built : Cfg.build physical with
    | error reason =>
      rw [built] at refused
      cases refused
      exact anyMessage _
    | ok graph =>
      rw [built] at refused
      cases second : graph.blocks.findSome? blockRejection with
      | none => simp [second] at refused
      | some message =>
        simp only [second] at refused
        cases refused
        exact anyMessage message

/-- `check_x86_abi_capability`. -/
def checkX86AbiCapability (lowered : List X86.LoweredInstr) (abi : Abi)
    (decode lowering : Coverage) : Except SemanticGateError (List ReportFinding) :=
  let errors := List.filter (fun (finding : X86.Abi.AbiFinding) => finding.severity == .error)
  match abi with
  | .sysVAmd64 =>
    let report := X86.Abi.SysV.analyze lowered
    checkAbiCapability (errors report.findings) (X86.Abi.isClean report.findings)
      "System V ABI verification failed: " report.hasSyscall
      "candidate requests the forbidden syscall capability" (report.findings.map reportFinding)
      decode lowering
  | .windowsX64 =>
    let report := X86.Abi.Win64.analyze lowered
    checkAbiCapability (errors report.findings) (X86.Abi.isClean report.findings)
      "Microsoft x64 ABI verification failed: "
      (lowered.any (fun instruction => instruction.mnemonic == "syscall"))
      "candidate requests the forbidden syscall capability" (report.findings.map reportFinding)
      decode lowering
  | .aapcs64 => .error (gateError "abi" "unexpected x86 ABI `aapcs64`")
  | .riscv => .error (gateError "abi" "unexpected x86 ABI `riscv`")

/-- `check_aarch64_abi_capability`. -/
def checkAArch64AbiCapability (lowered : List AArch64.LoweredInstr) (decode lowering : Coverage) :
    Except SemanticGateError (List ReportFinding) :=
  let report := AArch64.Abi.analyze lowered
  checkAbiCapability report.findings report.isClean "AAPCS64 ABI verification failed: "
    (lowered.any (fun instruction => instruction.mnemonic ∈ ["svc", "hvc", "smc"]))
    "candidate requests a forbidden AArch64 privilege/syscall capability" [] decode lowering

/-- `check_riscv_abi_capability`. -/
def checkRiscvAbiCapability (lowered : List Riscv.LoweredInstr) (decode lowering : Coverage) :
    Except SemanticGateError (List ReportFinding) :=
  let report := Riscv.Abi.analyze lowered
  checkAbiCapability report.findings report.isClean "RISC-V LP64 ABI verification failed: "
    (lowered.any (fun instruction => instruction.mnemonic == "ecall" ||
      instruction.mnemonic == "ebreak" || Text.startsWith instruction.mnemonic "csr"))
    "candidate requests a forbidden RISC-V privilege/CSR capability" [] decode lowering

/-- The reports about the memory block, over the recorded accesses. -/
def memoryEvidence (contract : CheckedContract) (accesses : List ObservedMemoryAccess) :
    Option AliasAnalysisReport × Option RegionAccessReport :=
  (contract.memory.map (fun memory => evaluateAlias memory accesses),
    contract.memory.map (fun memory => evaluateRegionAccess memory accesses))

/-- `evaluate_x86_memory_evidence`. -/
def evaluateX86MemoryEvidence (contract : CheckedContract) (physical : List PhysicalInstruction)
    (lowered : List X86.LoweredInstr) (abi : Abi) :
    Option AliasAnalysisReport × Option RegionAccessReport :=
  match abi with
  | .sysVAmd64 =>
    memoryEvidence contract (collectMemoryEffectsWithCfg lowered physical contract .sysV)
  | .windowsX64 =>
    memoryEvidence contract (collectMemoryEffectsWithCfg lowered physical contract .win64)
  | .aapcs64 | .riscv => (none, none)

/-- What differs between the targets. The two gates refuse at their own stages. -/
structure Backend where
  Instr : Type
  isa : DecodeIsa
  lower : PhysicalInstruction → Except String Instr
  abiCapability : List Instr → Coverage → Coverage → Except SemanticGateError (List ReportFinding)
  readOnlyLeaf : List Instr → CheckedContract → Coverage → Coverage → Except SemanticGateError Unit
  accesses : CheckedContract → List PhysicalInstruction → List Instr →
    Option AliasAnalysisReport × Option RegionAccessReport
  abiCapability_refuses : ∀ (lowered : List Instr) (decode lowering : Coverage)
    (error : SemanticGateError), abiCapability lowered decode lowering = .error error →
      RefusedAt ["abi", "capability"] decode lowering error
  readOnlyLeaf_refuses : ∀ (lowered : List Instr) (contract : CheckedContract)
    (decode lowering : Coverage) (error : SemanticGateError),
      readOnlyLeaf lowered contract decode lowering = .error error →
        RefusedAt ["memory"] decode lowering error

/-- The gates of x86-64 under System V. -/
def sysvBackend : Backend where
  Instr := X86.LoweredInstr
  isa := .x86_64
  lower := lowerX86
  abiCapability := fun lowered => checkX86AbiCapability lowered .sysVAmd64
  readOnlyLeaf := checkX86ReadOnlyBufferLeaf
  accesses := fun contract physical lowered =>
    evaluateX86MemoryEvidence contract physical lowered .sysVAmd64
  abiCapability_refuses := fun _ _ _ _ refused => checkAbiCapability_refuses refused
  readOnlyLeaf_refuses := fun _ _ _ _ _ refused => checkReadOnlyBufferLeaf_refuses refused

/-- The gates of x86-64 on Windows. -/
def win64Backend : Backend where
  Instr := X86.LoweredInstr
  isa := .x86_64
  lower := lowerX86
  abiCapability := fun lowered => checkX86AbiCapability lowered .windowsX64
  readOnlyLeaf := checkX86ReadOnlyBufferLeaf
  accesses := fun contract physical lowered =>
    evaluateX86MemoryEvidence contract physical lowered .windowsX64
  abiCapability_refuses := fun _ _ _ _ refused => checkAbiCapability_refuses refused
  readOnlyLeaf_refuses := fun _ _ _ _ _ refused => checkReadOnlyBufferLeaf_refuses refused

/-- The gates of AArch64. -/
def aarch64Backend : Backend where
  Instr := AArch64.LoweredInstr
  isa := .aarch64
  lower := lowerAArch64
  abiCapability := checkAArch64AbiCapability
  readOnlyLeaf := checkAArch64ReadOnlyBufferLeaf
  accesses := fun contract _ lowered =>
    memoryEvidence contract (EffectsAArch64.collectMemoryEffects lowered contract)
  abiCapability_refuses := fun _ _ _ _ refused => checkAbiCapability_refuses refused
  readOnlyLeaf_refuses := fun _ _ _ _ _ refused => checkReadOnlyBufferLeaf_refuses refused

/-- The gates of RISC-V. -/
def riscvBackend : Backend where
  Instr := Riscv.LoweredInstr
  isa := .riscv64
  lower := lowerRiscv
  abiCapability := checkRiscvAbiCapability
  readOnlyLeaf := checkRiscvReadOnlyBufferLeaf
  accesses := fun contract _ lowered =>
    memoryEvidence contract (EffectsRiscv.collectMemoryEffects lowered contract)
  abiCapability_refuses := fun _ _ _ _ refused => checkAbiCapability_refuses refused
  readOnlyLeaf_refuses := fun _ _ _ _ _ refused => checkReadOnlyBufferLeaf_refuses refused

/-- What is known of a candidate that passed all gates. -/
structure CandidateSemantics where
  gates : SemanticGates
  aliasAnalysis : Option AliasAnalysisReport
  regionAccess : Option RegionAccessReport
  findings : List ReportFinding

/-- A gate on an object file that the container reader may refuse. -/
def onObject {α : Type} (object : Except String ObjectFile)
    (gate : ObjectFile → Except SemanticGateError α) : Except SemanticGateError α :=
  match object with
  | .error reason => .error (gateError "object" reason)
  | .ok file => gate file

/-- The gates behind the object policy, which are alike for every instruction set. -/
def Backend.check (backend : Backend) (disasmAll : Disassembler)
    (object : Except String ObjectFile) (isa : Isa) (contract : CheckedContract) :
    Except SemanticGateError CandidateSemantics := do
  let code ← onObject object (fun file => decodeCandidateCode disasmAll file isa backend.isa)
  let decodeCoverage := completeCoverage code.1.length
  let lowered ← lowerInstructions backend.lower code.1 decodeCoverage
  let loweringCoverage := completeCoverage lowered.length
  let findings ← backend.abiCapability lowered decodeCoverage loweringCoverage
  checkCfgLeaf code.1 decodeCoverage loweringCoverage
  backend.readOnlyLeaf lowered contract decodeCoverage loweringCoverage
  let evidence := backend.accesses contract code.1 lowered
  return ⟨semanticGatesPassed code.2 decodeCoverage loweringCoverage, evidence.1, evidence.2,
    findings⟩

/-- The gates of a target, if it has any. -/
def TargetIdentity.backend (identity : TargetIdentity) : Option Backend :=
  match identity.isa, identity.abi, identity.objectFormat with
  | .x86_64, .sysVAmd64, .elf => some sysvBackend
  | .x86_64, .windowsX64, .peCoff => some win64Backend
  | .aarch64, .aapcs64, .elf => some aarch64Backend
  | .riscv64, .riscv, .elf => some riscvBackend
  | _, _, _ => none

/-- `require_semantic_target`. -/
def requireSemanticTarget (identity : TargetIdentity) : Except SemanticGateError Unit :=
  if identity.backend.isSome then .ok ()
  else .error (gateError "target" ("agent verification currently has complete semantic " ++
    "gates for x86_64 SysV ELF, x86_64 Win64 PE, AArch64 Linux ELF, and RV64 Linux ELF, not `" ++
    identity.name ++ "`"))

/-- `verify_candidate_semantics`. -/
def verifyCandidateSemantics (disasmAll : Disassembler) (object : Except String ObjectFile)
    (identity : TargetIdentity) (routineSymbol : String) (contract : CheckedContract) :
    Except SemanticGateError CandidateSemantics := do
  requireSemanticTarget identity
  onObject object (fun file => checkCandidateObjectPolicy file identity.isa routineSymbol)
  match identity.backend with
  | some backend => backend.check disasmAll object identity.isa contract
  | none =>
    .error (gateError "target" ("agent verification has no semantic-gate dispatch for `" ++
      identity.name ++ "`"))

end Semasm.Cli.Commands
