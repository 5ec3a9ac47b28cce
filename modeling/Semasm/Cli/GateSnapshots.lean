import Semasm.Cli.SemanticGates

/-!
# What a snapshot of the gates says

A snapshot that is reported for a candidate is true of it. A gate reported as passed accepted the
candidate, a gate reported as failed refused it, and the counts of instructions are those of the
code. A candidate that some gate refused is never reported as having passed them all, whatever the
gate was.
-/

namespace Semasm.Cli.Commands

open Agent Agent.Harness Contract Decode Obj Library.Checks

/-! ## Refusals of the first gates -/

theorem requireSemanticTarget_ok_iff (identity : TargetIdentity) :
    requireSemanticTarget identity = .ok () ↔ ∃ backend, identity.backend = some backend := by
  rw [requireSemanticTarget, ← Option.isSome_iff_exists]
  cases identity.backend.isSome <;> simp

theorem requireSemanticTarget_refuses {identity : TargetIdentity} {error : SemanticGateError}
    (refused : requireSemanticTarget identity = .error error) : error.stage = "target" := by
  unfold requireSemanticTarget at refused
  split_ifs at refused
  cases refused
  rfl

theorem onObject_ok_iff {Value : Type} (object : Except String ObjectFile)
    (gate : ObjectFile → Except SemanticGateError Value) (value : Value) :
    onObject object gate = .ok value ↔ ∃ file, object = .ok file ∧ gate file = .ok value := by
  cases object with
  | error reason => simp [onObject]
  | ok file => simp [onObject]

/-- A gate on an object refuses because the object cannot be read, or by itself. -/
theorem onObject_error {Value : Type} {object : Except String ObjectFile}
    {gate : ObjectFile → Except SemanticGateError Value} {error : SemanticGateError}
    (refused : onObject object gate = .error error) :
    error.stage = "object" ∨ ∃ file, object = .ok file ∧ gate file = .error error := by
  cases object with
  | error reason =>
    simp only [onObject, Except.error.injEq] at refused
    exact Or.inl (refused ▸ rfl)
  | ok file => exact Or.inr ⟨file, rfl, refused⟩

theorem objectPolicy_refuses {file : ObjectFile} {isa : Isa} {routineSymbol : String}
    {error : SemanticGateError}
    (refused : checkCandidateObjectPolicy file isa routineSymbol = .error error) :
    error.stage = "object" := by
  have said {message : String}
      (same : Except.error (ε := SemanticGateError) (α := Unit) (gateError "object" message) =
        .error error) : error.stage = "object" := by
    cases same
    rfl
  unfold checkCandidateObjectPolicy at refused
  cases read : readForTarget file isa with
  | error reason =>
    rw [read] at refused
    exact said refused
  | ok info =>
    simp only [read] at refused
    split_ifs at refused
    · exact said refused
    · exact said refused
    · exact said refused
    · exact said refused

/-- A section that is not decoded is refused without counts. -/
theorem decodeSections_refuses {disasmAll : Disassembler} {isa : DecodeIsa}
    {sections : List CodeSection} {physical : List PhysicalInstruction} {codeBytes : Nat}
    {error : SemanticGateError}
    (refused : decodeSections disasmAll isa sections physical codeBytes = .error error) :
    ∃ message, error = gateError "decode" message := by
  induction sections generalizing physical codeBytes with
  | nil => cases refused
  | cons code rest inductionHypothesis =>
    rw [decodeSections] at refused
    cases decoded : decode disasmAll isa code.bytes code.address with
    | error reason =>
      rw [decoded] at refused
      exact ⟨_, (Except.error.inj refused).symm⟩
    | ok instructions =>
      rw [decoded] at refused
      exact inductionHypothesis refused

/-- Code that is not decoded is refused without counts. -/
theorem decodeCandidateCode_refuses {disasmAll : Disassembler} {file : ObjectFile} {target : Isa}
    {isa : DecodeIsa} {error : SemanticGateError}
    (refused : decodeCandidateCode disasmAll file target isa = .error error) :
    ∃ stage message, stage ∈ ["object", "decode"] ∧ error = gateError stage message := by
  unfold decodeCandidateCode at refused
  cases read : readCodeSections file target with
  | error reason =>
    rw [read] at refused
    exact ⟨"object", reason, List.mem_cons_self .., (Except.error.inj refused).symm⟩
  | ok sections =>
    simp only [read] at refused
    by_cases none : sections.isEmpty = true
    · rw [if_pos none] at refused
      exact ⟨"object", _, List.mem_cons_self .., (Except.error.inj refused).symm⟩
    · rw [if_neg none] at refused
      cases decoded : decodeSections disasmAll isa sections [] 0 with
      | error other =>
        rw [decoded] at refused
        obtain ⟨message, same⟩ := decodeSections_refuses decoded
        refine ⟨"decode", message, List.mem_cons_of_mem _ (List.mem_cons_self ..), ?_⟩
        rw [← Except.error.inj refused, same]
      | ok code =>
        simp only [decoded] at refused
        split_ifs at refused
        exact ⟨"decode", _, List.mem_cons_of_mem _ (List.mem_cons_self ..),
          (Except.error.inj refused).symm⟩

/-! ## Lowering -/

section

variable {Instr : Type} {lower : PhysicalInstruction → Except String Instr}
  {physical : List PhysicalInstruction} {decodeCoverage : Coverage}

/-- The loop accepts when every instruction that is left lowers, and keeps their order. -/
theorem lowerLoop_ok_iff (rest : List PhysicalInstruction) (lowered all : List Instr) :
    lowerLoop lower physical decodeCoverage lowered rest = .ok all ↔
      ∃ more, List.Forall₂ (fun instruction one => lower instruction = .ok one) rest more ∧
        all = lowered ++ more := by
  induction rest generalizing lowered with
  | nil =>
    simp only [lowerLoop, Except.ok.injEq, List.forall₂_nil_left_iff, exists_eq_left,
      List.append_nil]
    exact eq_comm
  | cons instruction rest inductionHypothesis =>
    simp only [lowerLoop, List.forall₂_cons_left_iff]
    cases one : lower instruction with
    | error mnemonic => simp
    | ok first =>
      simp only [inductionHypothesis, Except.ok.injEq, List.append_assoc, List.singleton_append]
      constructor
      · rintro ⟨more, each, same⟩
        exact ⟨first :: more, ⟨first, more, rfl, each, rfl⟩, same⟩
      · rintro ⟨_, ⟨_, more, rfl, each, rfl⟩, same⟩
        exact ⟨more, each, same⟩

/-- The loop refuses at the first instruction that does not lower. -/
theorem lowerLoop_refuses (rest : List PhysicalInstruction) (lowered : List Instr)
    (error : SemanticGateError)
    (refused : lowerLoop lower physical decodeCoverage lowered rest = .error error) :
    ∃ before instruction after mnemonic, rest = before ++ instruction :: after ∧
      (∀ earlier ∈ before, ∃ one, lower earlier = .ok one) ∧
      lower instruction = .error mnemonic ∧
      error = loweringError physical decodeCoverage instruction mnemonic
        (lowered.length + before.length) := by
  induction rest generalizing lowered with
  | nil => cases refused
  | cons instruction rest inductionHypothesis =>
    rw [lowerLoop] at refused
    cases one : lower instruction with
    | error mnemonic =>
      rw [one] at refused
      exact ⟨[], instruction, rest, mnemonic, rfl, by simp, one, (Except.error.inj refused).symm⟩
    | ok first =>
      rw [one] at refused
      obtain ⟨before, stuck, after, mnemonic, split, lowers, stops, said⟩ :=
        inductionHypothesis _ refused
      refine ⟨instruction :: before, stuck, after, mnemonic, by rw [split]; rfl, ?_, stops, ?_⟩
      · exact List.forall_mem_cons.mpr ⟨⟨first, one⟩, lowers⟩
      · rw [said, List.length_append, List.length_singleton, List.length_cons, Nat.add_assoc,
          Nat.add_comm 1]

/-- Lowering accepts a body whose instructions all lower. -/
theorem lowerInstructions_ok_iff (lowered : List Instr) :
    lowerInstructions lower physical decodeCoverage = .ok lowered ↔
      List.Forall₂ (fun instruction one => lower instruction = .ok one) physical lowered := by
  rw [lowerInstructions, lowerLoop_ok_iff]
  simp

end

/-! ## What a snapshot tells -/

/-- The object is one the policy lets pass. -/
def ObjectKept (file : ObjectFile) (isa : Isa) (routineSymbol : String) : Prop :=
  ∃ info, readForTarget file isa = .ok info ∧ info.kind = .relocatable ∧
    routineSymbol ∈ info.exports ∧ info.imports = [] ∧
    ∀ item ∈ file.sections, sectionPermissions item ≠ (true, true)

/-- The candidate is an object the policy lets pass, for a target that has gates. -/
structure Opened (object : Except String ObjectFile) (identity : TargetIdentity)
    (routineSymbol : String) (backend : Backend) (file : ObjectFile) : Prop where
  target : identity.backend = some backend
  readable : object = .ok file
  kept : ObjectKept file identity.isa routineSymbol

/-- The code of the candidate is decoded. -/
structure Decoded (disasmAll : Disassembler) (object : Except String ObjectFile)
    (identity : TargetIdentity) (routineSymbol : String) (backend : Backend) (file : ObjectFile)
    (physical : List PhysicalInstruction) (codeBytes : Nat) : Prop
    extends Opened object identity routineSymbol backend file where
  decoded : decodeCandidateCode disasmAll file identity.isa backend.isa = .ok (physical, codeBytes)

/-- What the counts of the lowering say of the decoded code. -/
structure LoweringTold (backend : Backend) (physical : List PhysicalInstruction)
    (lowering : Coverage) : Prop where
  total : lowering.total = physical.length
  unknown : lowering.unknown = lowering.total - lowering.modeled
  modeled : ∀ instruction ∈ physical.take lowering.modeled, ∃ one,
    backend.lower instruction = .ok one
  stops : ∀ instruction, physical[lowering.modeled]? = some instruction → ∃ mnemonic,
    backend.lower instruction = .error mnemonic

/-- What the states of the last four gates say of the lowered code. -/
structure LeafTold (backend : Backend) (contract : CheckedContract)
    (physical : List PhysicalInstruction) (lowered : List backend.Instr) (gates : SemanticGates) :
    Prop where
  abi : gates.abi = .passed ↔ ∀ error, backend.abiCapability lowered
    (completeCoverage physical.length) (completeCoverage lowered.length) = .error error →
      error.stage ≠ "abi"
  capability : gates.capability = .passed ↔ ∃ findings, backend.abiCapability lowered
    (completeCoverage physical.length) (completeCoverage lowered.length) = .ok findings
  control : gates.control = .passed ↔ gates.capability = .passed ∧ checkCfgLeaf physical
    (completeCoverage physical.length) (completeCoverage lowered.length) = .ok ()
  memory : gates.memory = .passed ↔ gates.control = .passed ∧ backend.readOnlyLeaf lowered
    contract (completeCoverage physical.length) (completeCoverage lowered.length) = .ok ()

/-- What a snapshot says of the candidate is true of it. -/
structure Told (disasmAll : Disassembler) (object : Except String ObjectFile)
    (identity : TargetIdentity) (routineSymbol : String) (contract : CheckedContract)
    (gates : SemanticGates) : Prop where
  objectPolicy : gates.objectPolicy = .passed →
    ∃ backend file, Opened object identity routineSymbol backend file
  decode : 0 < gates.decode.total → ∃ backend file physical codeBytes,
    Decoded disasmAll object identity routineSymbol backend file physical codeBytes ∧
      gates.decode = completeCoverage physical.length
  lowering : 0 < gates.lowering.total → ∃ backend file physical codeBytes,
    Decoded disasmAll object identity routineSymbol backend file physical codeBytes ∧
      LoweringTold backend physical gates.lowering
  leaf : gates.abi ≠ .skipped → ∃ backend file physical codeBytes,
    Decoded disasmAll object identity routineSymbol backend file physical codeBytes ∧
      ∃ lowered, List.Forall₂ (fun instruction one => backend.lower instruction = .ok one)
        physical lowered ∧ LeafTold backend contract physical lowered gates

/-! ## Snapshots of refusals -/

/-- The snapshot of a refusal by the target or the object gate. -/
theorem fromError_object {error : SemanticGateError} (stage : error.stage ∈ ["target", "object"])
    (executableBytes : Nat) :
    fromError error executableBytes =
      ⟨.failed, executableBytes, notStarted, notStarted, .skipped, .skipped, .skipped,
        .skipped⟩ := by
  obtain target | object : error.stage = "target" ∨ error.stage = "object" := by simpa using stage
  · simp [fromError, target]
  · simp [fromError, object]

/-- No snapshot of an error says that all gates passed, whatever stage the error names. -/
theorem fromError_allPassed (error : SemanticGateError) (executableBytes : Nat) :
    (fromError error executableBytes).allPassed = false := by
  unfold fromError
  split <;> rfl

/-- The snapshot of a refusal by one of the last four gates, by the stage it names. -/
theorem fromError_refusedAt {stage : String} {decode lowering : Coverage}
    {error : SemanticGateError} (refused : RefusedAt [stage] decode lowering error)
    (executableBytes : Nat) :
    fromError error executableBytes =
      fromError ⟨stage, error.message, some decode, some lowering, error.findings⟩
        executableBytes := by
  obtain ⟨member, decoded, lowered⟩ := refused
  have same : error.stage = stage := by simpa using member
  cases error
  subst same decoded lowered
  rfl

section

variable {disasmAll : Disassembler} {object : Except String ObjectFile}
  {identity : TargetIdentity} {routineSymbol : String} {contract : CheckedContract}

/-- A snapshot that counts nothing and skips the last gates tells nothing but the policy. -/
theorem told_of_nothing {gates : SemanticGates}
    (policy : gates.objectPolicy = .passed →
      ∃ backend file, Opened object identity routineSymbol backend file)
    (decode : gates.decode.total = 0) (lowering : gates.lowering.total = 0)
    (abi : gates.abi = .skipped) :
    Told disasmAll object identity routineSymbol contract gates where
  objectPolicy := policy
  decode := fun counted => absurd counted (by omega)
  lowering := fun counted => absurd counted (by omega)
  leaf := fun reached => absurd abi reached

/-- The counts of a body that lowers are true of it. -/
theorem loweringTold_of_lowered {backend : Backend} {physical : List PhysicalInstruction}
    {lowered : List backend.Instr}
    (each : List.Forall₂ (fun instruction one => backend.lower instruction = .ok one)
      physical lowered) : LoweringTold backend physical (completeCoverage lowered.length) where
  total := each.length_eq.symm
  unknown := (Nat.sub_self _).symm
  modeled := by
    intro instruction member
    obtain ⟨index, bound, same⟩ := List.mem_iff_getElem.mp (List.mem_of_mem_take member)
    have lowers := each.get bound (each.length_eq ▸ bound)
    rw [List.get_eq_getElem, same] at lowers
    exact ⟨_, lowers⟩
  stops := by
    intro instruction there
    have bound := (List.getElem?_eq_some_iff.mp there).1
    exact absurd bound (by simp [completeCoverage, each.length_eq])

/-- A snapshot of lowered code is true when what it says of the last gates is. -/
theorem told_of_lowered {backend : Backend} {file : ObjectFile}
    {physical : List PhysicalInstruction} {codeBytes : Nat} {lowered : List backend.Instr}
    {gates : SemanticGates}
    (code : Decoded disasmAll object identity routineSymbol backend file physical codeBytes)
    (each : List.Forall₂ (fun instruction one => backend.lower instruction = .ok one)
      physical lowered)
    (decode : gates.decode = completeCoverage physical.length)
    (lowering : gates.lowering = completeCoverage lowered.length)
    (leaf : LeafTold backend contract physical lowered gates) :
    Told disasmAll object identity routineSymbol contract gates where
  objectPolicy := fun _ => ⟨backend, file, code.toOpened⟩
  decode := fun _ => ⟨backend, file, physical, codeBytes, code, decode⟩
  lowering := fun _ =>
    ⟨backend, file, physical, codeBytes, code, lowering ▸ loweringTold_of_lowered each⟩
  leaf := fun _ => ⟨backend, file, physical, codeBytes, code, lowered, each, leaf⟩

/-- The snapshot of code that is not all lowered is true of it. -/
theorem told_of_stuck {backend : Backend} {file : ObjectFile}
    {physical : List PhysicalInstruction} {codeBytes : Nat} {error : SemanticGateError}
    (code : Decoded disasmAll object identity routineSymbol backend file physical codeBytes)
    (refused : lowerInstructions backend.lower physical (completeCoverage physical.length) =
      .error error) (executableBytes : Nat) :
    Told disasmAll object identity routineSymbol contract (fromError error executableBytes) := by
  obtain ⟨before, stuck, after, mnemonic, split, lowers, stops, rfl⟩ :=
    lowerLoop_refuses physical [] error refused
  refine ⟨fun _ => ⟨backend, file, code.toOpened⟩, fun _ =>
    ⟨backend, file, physical, codeBytes, code, rfl⟩, fun _ =>
    ⟨backend, file, physical, codeBytes, code, ?_⟩, fun reached => absurd rfl reached⟩
  have counted : ([] : List backend.Instr).length + before.length = before.length := by simp
  rw [counted]
  refine ⟨rfl, rfl, ?_, ?_⟩
  · intro instruction member
    refine lowers instruction ?_
    change instruction ∈ physical.take before.length at member
    rw [split, List.take_left] at member
    exact member
  · intro instruction there
    change physical[before.length]? = some instruction at there
    rw [split, List.getElem?_append_right (Nat.le_refl _), Nat.sub_self] at there
    exact ⟨mnemonic, Option.some.inj there ▸ stops⟩

/-- The snapshot of a refusal by the convention or the capability gate is true. -/
theorem told_of_abiCapability {backend : Backend} {file : ObjectFile}
    {physical : List PhysicalInstruction} {codeBytes : Nat} {lowered : List backend.Instr}
    {error : SemanticGateError}
    (code : Decoded disasmAll object identity routineSymbol backend file physical codeBytes)
    (each : List.Forall₂ (fun instruction one => backend.lower instruction = .ok one)
      physical lowered)
    (refused : backend.abiCapability lowered (completeCoverage physical.length)
      (completeCoverage lowered.length) = .error error) (executableBytes : Nat) :
    Told disasmAll object identity routineSymbol contract (fromError error executableBytes) := by
  obtain ⟨member, decode, lowering⟩ := backend.abiCapability_refuses _ _ _ _ refused
  obtain stage | stage : error.stage = "abi" ∨ error.stage = "capability" := by simpa using member
  · rw [fromError_refusedAt ⟨List.mem_singleton.mpr stage, decode, lowering⟩]
    refine told_of_lowered code each rfl rfl ⟨?_, ?_, ?_, ?_⟩
    · exact iff_of_false (by simp [fromError]) (fun other => other error refused stage)
    · exact iff_of_false (by simp [fromError]) (by simp [refused])
    · exact iff_of_false (by simp [fromError]) (by simp [fromError])
    · exact iff_of_false (by simp [fromError]) (by simp [fromError])
  · rw [fromError_refusedAt ⟨List.mem_singleton.mpr stage, decode, lowering⟩]
    refine told_of_lowered code each rfl rfl ⟨?_, ?_, ?_, ?_⟩
    · refine iff_of_true rfl (fun other same => ?_)
      rw [refused] at same
      cases same
      simp [stage]
    · exact iff_of_false (by simp [fromError]) (by simp [refused])
    · exact iff_of_false (by simp [fromError]) (by simp [fromError])
    · exact iff_of_false (by simp [fromError]) (by simp [fromError])

/-- The snapshot of a refusal by the control-flow gate is true. -/
theorem told_of_control {backend : Backend} {file : ObjectFile}
    {physical : List PhysicalInstruction} {codeBytes : Nat} {lowered : List backend.Instr}
    {findings : List ReportFinding} {error : SemanticGateError}
    (code : Decoded disasmAll object identity routineSymbol backend file physical codeBytes)
    (each : List.Forall₂ (fun instruction one => backend.lower instruction = .ok one)
      physical lowered)
    (convention : backend.abiCapability lowered (completeCoverage physical.length)
      (completeCoverage lowered.length) = .ok findings)
    (refused : checkCfgLeaf physical (completeCoverage physical.length)
      (completeCoverage lowered.length) = .error error) (executableBytes : Nat) :
    Told disasmAll object identity routineSymbol contract (fromError error executableBytes) := by
  rw [fromError_refusedAt (checkCfgLeaf_refuses refused)]
  refine told_of_lowered code each rfl rfl ⟨?_, ?_, ?_, ?_⟩
  · exact iff_of_true rfl (by simp [convention])
  · exact iff_of_true rfl ⟨findings, convention⟩
  · exact iff_of_false (by simp [fromError]) (by simp [refused])
  · exact iff_of_false (by simp [fromError]) (by simp [fromError])

/-- The snapshot of a refusal by the memory gate is true. -/
theorem told_of_memory {backend : Backend} {file : ObjectFile}
    {physical : List PhysicalInstruction} {codeBytes : Nat} {lowered : List backend.Instr}
    {findings : List ReportFinding} {error : SemanticGateError}
    (code : Decoded disasmAll object identity routineSymbol backend file physical codeBytes)
    (each : List.Forall₂ (fun instruction one => backend.lower instruction = .ok one)
      physical lowered)
    (convention : backend.abiCapability lowered (completeCoverage physical.length)
      (completeCoverage lowered.length) = .ok findings)
    (control : checkCfgLeaf physical (completeCoverage physical.length)
      (completeCoverage lowered.length) = .ok ())
    (refused : backend.readOnlyLeaf lowered contract (completeCoverage physical.length)
      (completeCoverage lowered.length) = .error error) (executableBytes : Nat) :
    Told disasmAll object identity routineSymbol contract (fromError error executableBytes) := by
  rw [fromError_refusedAt (backend.readOnlyLeaf_refuses _ _ _ _ _ refused)]
  refine told_of_lowered code each rfl rfl ⟨?_, ?_, ?_, ?_⟩
  · exact iff_of_true rfl (by simp [convention])
  · exact iff_of_true rfl ⟨findings, convention⟩
  · exact iff_of_true rfl ⟨rfl, control⟩
  · exact iff_of_false (by simp [fromError]) (by simp [refused])

/-- The snapshot of a refusal behind the object policy is true. -/
theorem told_of_check {backend : Backend} {file : ObjectFile} {error : SemanticGateError}
    (opened : Opened object identity routineSymbol backend file)
    (refused : backend.check disasmAll object identity.isa contract = .error error)
    (executableBytes : Nat) :
    Told disasmAll object identity routineSymbol contract (fromError error executableBytes) := by
  simp only [Backend.check, bind_error_iff, onObject, opened.readable, Prod.exists] at refused
  obtain undecoded | ⟨physical, codeBytes, decoded, refused⟩ := refused
  · obtain ⟨stage, message, member, rfl⟩ := decodeCandidateCode_refuses undecoded
    obtain rfl | rfl : stage = "object" ∨ stage = "decode" := by simpa using member
    · rw [fromError_object (by simp [gateError])]
      exact told_of_nothing (by simp) rfl rfl rfl
    · exact told_of_nothing (fun _ => ⟨backend, file, opened⟩) rfl rfl rfl
  have code : Decoded disasmAll object identity routineSymbol backend file physical codeBytes :=
    ⟨opened, decoded⟩
  obtain stuck | ⟨lowered, loweredAll, refused⟩ := refused
  · exact told_of_stuck code stuck executableBytes
  have each := (lowerInstructions_ok_iff lowered).mp loweredAll
  obtain abi | ⟨findings, convention, refused⟩ := refused
  · exact told_of_abiCapability code each abi executableBytes
  obtain cfg | ⟨_, control, refused⟩ := refused
  · exact told_of_control code each convention cfg executableBytes
  obtain memory | ⟨_, memory, refused⟩ := refused
  · exact told_of_memory code each convention control memory executableBytes
  · cases refused

/-- The snapshot of a candidate that passed is true. -/
theorem told_of_passed {backend : Backend} {file : ObjectFile} {semantics : CandidateSemantics}
    (opened : Opened object identity routineSymbol backend file)
    (passed : backend.check disasmAll object identity.isa contract = .ok semantics) :
    semantics.gates.allPassed = true ∧ semantics.gates.memory = .passed ∧
      Told disasmAll object identity routineSymbol contract semantics.gates := by
  simp only [Backend.check, bind_ok_iff, onObject, opened.readable, Prod.exists] at passed
  obtain ⟨physical, codeBytes, decoded, lowered, loweredAll, findings, convention, _, control, _,
    memory, made⟩ := passed
  cases made
  have each := (lowerInstructions_ok_iff lowered).mp loweredAll
  refine ⟨by simp [SemanticGates.allPassed, semanticGatesPassed, completeCoverage], rfl,
    told_of_lowered ⟨opened, decoded⟩ each rfl rfl ⟨?_, ?_, ?_, ?_⟩⟩
  · exact iff_of_true rfl (by simp [convention])
  · exact iff_of_true rfl ⟨findings, convention⟩
  · exact iff_of_true rfl ⟨rfl, control⟩
  · exact iff_of_true rfl ⟨rfl, memory⟩

/-- The snapshot of an accepted candidate is true and complete. -/
theorem told_of_accepted {semantics : CandidateSemantics}
    (accepted : verifyCandidateSemantics disasmAll object identity routineSymbol contract =
      .ok semantics) :
    semantics.gates.allPassed = true ∧ semantics.gates.memory = .passed ∧
      Told disasmAll object identity routineSymbol contract semantics.gates := by
  simp only [verifyCandidateSemantics, bind_ok_iff] at accepted
  obtain ⟨_, target, _, policy, passed⟩ := accepted
  obtain ⟨backend, found⟩ := (requireSemanticTarget_ok_iff identity).mp target
  rw [found] at passed
  obtain ⟨file, readable, kept⟩ := (onObject_ok_iff _ _ _).mp policy
  exact told_of_passed ⟨found, readable, (objectPolicy_ok_iff _ _ _).mp kept⟩ passed

end

end Semasm.Cli.Commands
