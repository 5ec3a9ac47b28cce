import Semasm.Agent.Harness.EndToEnd
import Semasm.Cli.DecodeCoverage
import Semasm.Cli.VerifyRuns

/-!
# What a verified candidate has done

A request is admitted for a contract with a recognized shape, and the harness that is built for it
is run on the machine. When its output is what the machine wrote, the command exits with zero
exactly for candidates that every static gate accepted, that no evidence slice fails, and whose
routine answered every vector; on the synthesized vectors it computed what the oracle computes.
-/

namespace Semasm.Cli.Commands

open Agent Agent.Harness Agent.Harness.Programs Contract Library.Checks Obj

/-! ## The vectors of an admitted request -/

/-- The first vector decides the layout. -/
theorem resolveHarnessShape_append (contract : CheckedContract) (first rest : List TestVector)
    (some_ : first ≠ []) :
    resolveHarnessShape contract (first ++ rest) = resolveHarnessShape contract first := by
  obtain ⟨vector, others, rfl⟩ := List.exists_cons_of_ne_nil some_
  rfl

/-- External vectors are derived for scalar contracts. -/
theorem externalVectors_scalar {contract : CheckedContract} {ids : List String}
    {cases : List ExternalVectorCase} {vectors : List TestVector}
    (derived : externalVectors contract ids cases = .ok vectors) (some_ : vectors ≠ []) :
    (pureIntShape contract).isSome ∨ (pureIntI64Shape contract).isSome ∨
      (pureIntUnaryI64Shape contract).isSome := by
  have each := externalVectors_ok contract ids cases vectors derived
  obtain ⟨vector, others, rfl⟩ := List.exists_cons_of_ne_nil some_
  obtain ⟨case, rest, made, _, _⟩ := List.forall₂_cons_right_iff.mp each
  have expected := (deriveExternalVector_ok contract case vector made).2.2.2
  exact externalExpected_scalar contract case.id vector.inputs vector.expected expected

/-- What the vectors of an admitted request are: the synthesized ones and, for scalar shapes only,
those of the document. The shape is that of the recognized contract. -/
structure VectorsAdmitted (admitted : Admitted) (shape : RecognizedShape)
    (external : List TestVector) : Prop where
  recognized : recognizedShape admitted.checked = some shape
  harness : admitted.shape = shape.harness
  vectors : admitted.vectors = synthesizeVectors admitted.checked ++ external
  scalar : external ≠ [] → admitted.shape = .pureInt ∨ admitted.shape = .pureIntUnary

/-- The documents of a request give vectors of scalar contracts only. -/
theorem readExternal_scalar {host : Host} {request : Request} {inputs : Inputs}
    {checked : CheckedContract} {external : Option (ExternalVectorDocument × List TestVector)}
    (read : readExternal host request inputs checked = .ok external)
    (some_ : external.elim [] Prod.snd ≠ []) :
    (pureIntShape checked).isSome ∨ (pureIntI64Shape checked).isSome ∨
      (pureIntUnaryI64Shape checked).isSome := by
  unfold readExternal at read
  cases named : request.vectorsFile with
  | none =>
    rw [named] at read
    cases read
    exact absurd rfl some_
  | some path =>
    simp only [named, bind_ok_iff, mapError_ok_iff] at read
    obtain ⟨bytes, _, document, _, rest⟩ := read
    cases bound : bindingError document inputs.contractDigest request.target checked.name with
    | some message => simp [bound] at rest
    | none =>
      simp only [bound, bind_ok_iff, mapError_ok_iff] at rest
      obtain ⟨vectors, derived, made⟩ := rest
      cases made
      exact externalVectors_scalar derived some_

/-- The vectors of an admitted request. -/
theorem admitted_vectors {host : Host} {request : Request} {admitted : Admitted}
    (accepted : prepareRun host request = .ok admitted) :
    ∃ shape external, VectorsAdmitted admitted shape external := by
  simp only [prepareRun, bind_ok_iff, mapError_ok_iff, require_ok_iff] at accepted
  obtain ⟨inputs, _, checked, _, _, some_, external, read, harness, resolved, made⟩ := accepted
  cases made
  have nonempty : synthesizeVectors checked ≠ [] := by simpa using some_
  have recognized : ∃ shape, recognizedShape checked = some shape := by
    cases found : recognizedShape checked with
    | some shape => exact ⟨shape, rfl⟩
    | none => exact absurd (by rw [synthesizeVectors, found]) nonempty
  obtain ⟨shape, recognized⟩ := recognized
  refine ⟨shape, external.elim [] Prod.snd, recognized, ?_, rfl, fun present => ?_⟩
  · rw [resolveHarnessShape_append _ _ _ nonempty,
      resolveHarnessShape_recognized checked shape recognized] at resolved
    exact (Except.ok.inj resolved).symm
  · exact resolveHarnessShape_scalar checked _ harness (readExternal_scalar read present) resolved

/-- The vectors of an admitted request have the lengths of their buffers. -/
theorem VectorsAdmitted.sized {admitted : Admitted} {shape : RecognizedShape}
    {external : List TestVector} (vectors : VectorsAdmitted admitted shape external) :
    ∀ vector ∈ admitted.vectors, Sized admitted.shape vector.inputs := by
  rw [vectors.vectors, List.forall_mem_append]
  constructor
  · rw [vectors.harness]
    exact sized_synthesized admitted.checked shape vectors.recognized
  · intro vector member
    obtain pair | unary := vectors.scalar (List.ne_nil_of_mem member)
    · rw [pair]
      trivial
    · rw [unary]
      trivial

/-! ## The candidate on the machine -/

/-- The call answered what its vector expects, which for a synthesized vector is what the oracle
computes. -/
def Right {Register : Type} (image : Image) (shape : RecognizedShape) (builtin index : Nat)
    (vector : TestVector) (call : Call Register) : Prop :=
  Answered image shape.harness index vector call ∧
    (index < builtin → Computed image shape index vector call)

/-- The verdict on all vectors of an admitted request whose contract fits the templates says
whether the routine was right on every vector. -/
theorem allPassed_iff_right {lineEnds : LineEnds} {admitted : Admitted} {shape : RecognizedShape}
    {external : List TestVector} (vectors : VectorsAdmitted admitted shape external)
    (fits : FitsTemplates admitted.checked) (jsonText : Json → String) {abi : Harness.Abi}
    {program : Program abi.target.Instruction} {image : Image}
    {outside : Outside abi.target.Register} {registers : abi.target.Register → Machine.Word}
    (generated : Programs.generateHarness admitted.checked.name admitted.vectors abi
      admitted.shape = .ok program)
    (placed : Placed lineEnds abi program image (registers abi.target.stack))
    (conventional : Conventional image abi.target.stack outside) :
    (evaluate jsonText (run program image outside registers).output admitted.vectors
        admitted.shape).allPassed = true ↔
      EveryCall (Right image shape (synthesizeVectors admitted.checked).length) admitted.vectors
        (run program image outside registers).calls := by
  have setup : Setup lineEnds admitted.checked.name abi admitted.shape admitted.vectors program
      image outside registers := ⟨generated, placed, conventional, vectors.sized⟩
  rw [(setup.tellsAnswers jsonText).2, vectors.harness]
  refine forall_congr' fun index => forall_congr' fun call => forall_congr' fun vector =>
    forall_congr' fun _ => forall_congr' fun there => ?_
  refine ⟨fun answered => ⟨answered, fun builtin => ?_⟩, And.left⟩
  have member : vector ∈ synthesizeVectors admitted.checked := by
    rw [vectors.vectors, List.getElem?_append_left builtin] at there
    exact List.mem_of_getElem? there
  exact (answered_iff_computed image shape index vector call
    (expects_synthesized admitted.checked shape vectors.recognized fits vector member)).mp answered

/-- For an admitted request whose contract fits the templates, when the output of the candidate is
what the harness wrote on the machine, the command exits with zero exactly if the candidate was
cleared, no evidence slice fails it, and its routine was right on every vector.

Proof: the exit code is zero when the verdict on all vectors is good, and the verdicts are read
off the output where the harness wrote what the calls returned and left. -/
theorem verified_iff_right (host : Host) (request : Request) (admitted : Admitted)
    (accepted : prepareRun host request = .ok admitted) (fits : FitsTemplates admitted.checked)
    (lineEnds : LineEnds) (program : Program admitted.inputs.identity.abi.target.Instruction)
    (generated : Programs.generateHarness admitted.checked.name admitted.vectors
      admitted.inputs.identity.abi admitted.shape = .ok program)
    (image : Image) (outside : Outside admitted.inputs.identity.abi.target.Register)
    (registers : admitted.inputs.identity.abi.target.Register → Machine.Word)
    (placed : Placed lineEnds admitted.inputs.identity.abi program image
      (registers admitted.inputs.identity.abi.target.stack))
    (conventional : Conventional image admitted.inputs.identity.abi.target.stack outside)
    (ran : host.run = .ok (run program image outside registers).output) :
    ∃ shape, recognizedShape admitted.checked = some shape ∧
      ((runAgentVerifyCore host request).core.exit = 0 ↔
        ∃ semantics, Cleared host request admitted semantics ∧ SlicesStand admitted semantics ∧
          EveryCall (Right image shape (synthesizeVectors admitted.checked).length)
            admitted.vectors (run program image outside registers).calls) := by
  obtain ⟨shape, external, vectors⟩ := admitted_vectors accepted
  refine ⟨shape, vectors.recognized, ?_⟩
  rw [exit_zero_iff]
  have right := allPassed_iff_right vectors fits host.jsonText generated placed conventional
  constructor
  · rintro ⟨other, semantics, stdout, cleared, wrote, all, stand⟩
    obtain rfl := Except.ok.inj (accepted.symm.trans cleared.accepted)
    obtain rfl := Except.ok.inj (ran.symm.trans wrote)
    exact ⟨semantics, cleared, stand, right.mp all⟩
  · rintro ⟨semantics, cleared, stand, every⟩
    exact ⟨admitted, semantics, _, cleared, ran, right.mpr every, stand⟩

/-! ## A sum over a range -/

/-- A document of a sum over a range. -/
def rangeDocument : ContractDocument :=
  ⟨"0.1", ⟨"sum_range", [⟨"n", "i64", none⟩], [⟨"result", "i64"⟩], [], [], [], none, []⟩⟩

/-- An object whose only code is `ret`, as it is assembled and as it is linked. -/
def rangeObject (kind : ContainerKind) : ObjectFile :=
  { plainObject with
    kind := kind
    symbols := [⟨some "sum_range", true, false, false⟩] }

/-- A machine with all tools, on which the candidate is the routine that sums up a range. -/
def rangeHost : Host where
  allToolsFound := fun _ => true
  runner := fun _ => some "qemu-x86_64"
  readFile := fun _ => .ok .empty
  utf8 := fun _ => .ok ""
  sha256 := fun _ => []
  jsonText := fun _ => ""
  fromToml := fun _ => .ok rangeDocument
  diagnosticsText := fun _ _ => ""
  readVectors := fun _ => .error ""
  canonicalDocumentDigest := fun _ => ""
  disasmAll := retDisassembler
  createScratch := .ok ()
  copySource := .ok ()
  assembleRoutine := .succeeded
  objectBytes := 0
  candidate := .ok (rangeObject .relocatable)
  writeHarness := .ok ()
  assembleHarness := .succeeded
  link := .succeeded
  executable := .ok (rangeObject .executable)
  run := .ok (@Programs.run .sysVAmd64 rangeProgram rangeImage rangeOutside (fun _ => 2048)).output

/-- A request that allows the candidate to be run. -/
def rangeRequest : Request where
  source := ⟨"sum_range.asm", some "sum_range.asm", some "asm", some "sum_range.asm"⟩
  contract := ⟨"sum_range.sem.toml", some "sum_range.sem.toml", some "toml",
    some "sum_range.sem.toml"⟩
  target := "x86_64-unknown-linux-gnu"
  allowExecution := true
  vectorsFile := none

/-- What that request is admitted as. -/
def rangeAdmitted : Admitted where
  inputs := ⟨.x86_64LinuxGnu, .qemuUser, .empty, "sha256:", "sha256:"⟩
  checked := sumRange
  vectors := synthesizeVectors sumRange
  vectorSet := ⟨none, (synthesizeVectors sumRange).length, 0,
    caseBindings (synthesizeVectors sumRange) none⟩
  shape := .pureIntUnary
theorem rangeInputs_read : readInputs rangeHost rangeRequest = .ok rangeAdmitted.inputs := rfl

theorem rangeRequest_admitted : prepareRun rangeHost rangeRequest = .ok rangeAdmitted := by
  rw [prepareRun, rangeInputs_read]
  rfl

theorem rangeAdmitted_fits : FitsTemplates rangeAdmitted.checked := by
  rw [FitsTemplates, show rangeAdmitted.checked = sumRange from rfl, sumRange_recognized]
  trivial

/-- The command exits with zero for a routine that sums up a range if it is right. -/
theorem verified_iff_right_range :
    ∃ shape, recognizedShape sumRange = some shape ∧
      ((runAgentVerifyCore rangeHost rangeRequest).core.exit = 0 ↔
        ∃ semantics, Cleared rangeHost rangeRequest rangeAdmitted semantics ∧
          SlicesStand rangeAdmitted semantics ∧
          EveryCall (Right rangeImage shape (synthesizeVectors sumRange).length)
            (synthesizeVectors sumRange)
            (@Programs.run .sysVAmd64 rangeProgram rangeImage rangeOutside
              (fun _ => 2048)).calls) :=
  verified_iff_right rangeHost rangeRequest rangeAdmitted rangeRequest_admitted rangeAdmitted_fits
    .feedOnly rangeProgram rangeProgram_generated rangeImage rangeOutside (fun _ => 2048)
    placed_range conventional_range rfl

/-- The routine is right, so the command exits with zero. -/
example : (runAgentVerifyCore rangeHost rangeRequest).core.exit = 0 := by decide +kernel

end Semasm.Cli.Commands
