import Semasm.Agent.Verify
import Semasm.Decode.Instruction
import Semasm.Obj.File

/-!
# The candidate object and its code

The first two gates of a candidate. The object policy looks at the container,
the symbols and the section permissions; the decode gate decodes every code
section and compares the number of decoded bytes with the number of bytes of the
sections it was handed.
-/

namespace Semasm.Cli

open Agent Decode Obj

/-- `SemanticGateError::new`. -/
def gateError (stage message : String) : SemanticGateError := { stage := stage, message := message }

/-- `check_candidate_object_policy`. -/
def checkCandidateObjectPolicy (file : ObjectFile) (isa : Isa) (routineSymbol : String) :
    Except SemanticGateError Unit :=
  match readForTarget file isa with
  | .error reason => .error (gateError "object" reason)
  | .ok info =>
    if info.kind ≠ .relocatable then
      .error (gateError "object" ("candidate must be relocatable, found " ++ info.kind.text))
    else if routineSymbol ∉ info.exports then
      .error (gateError "object"
        ("required routine symbol `" ++ routineSymbol ++ "` is not exported"))
    else if info.imports ≠ [] then
      .error (gateError "object" ("candidate has forbidden external capabilities/imports: " ++
        String.intercalate ", " info.imports))
    else
      let wx := info.sections.filter (fun item => item.writable && item.executable)
      if wx ≠ [] then
        .error (gateError "object"
          ("candidate has forbidden writable+executable section(s): " ++
            String.intercalate ", " (wx.map (fun item => item.name))))
      else .ok ()

/-- The decoding loop: the instructions and the code bytes so far. -/
def decodeSections (disasmAll : Disassembler) (isa : DecodeIsa) :
    List CodeSection → List PhysicalInstruction → Nat →
      Except SemanticGateError (List PhysicalInstruction × Nat)
  | [], physical, codeBytes => .ok (physical, codeBytes)
  | code :: rest, physical, codeBytes =>
    match decode disasmAll isa code.bytes code.address with
    | .error reason =>
      .error (gateError "decode" ("decode failed for " ++ code.name ++ ": " ++ reason.text))
    | .ok decoded =>
      decodeSections disasmAll isa rest (physical ++ decoded) (codeBytes + code.bytes.length)

/-- Bytes of a list of instructions. -/
def decodedBytes (physical : List PhysicalInstruction) : Nat :=
  (physical.map (fun instruction => instruction.bytes.length)).sum

/-- `decode_candidate_code`. -/
def decodeCandidateCode (disasmAll : Disassembler) (file : ObjectFile) (target : Isa)
    (isa : DecodeIsa) : Except SemanticGateError (List PhysicalInstruction × Nat) :=
  match readCodeSections file target with
  | .error reason => .error (gateError "object" reason)
  | .ok sections =>
    if sections.isEmpty then
      .error (gateError "object" "candidate contains no executable code section")
    else
      match decodeSections disasmAll isa sections [] 0 with
      | .error error => .error error
      | .ok (physical, codeBytes) =>
        if decodedBytes physical ≠ codeBytes then
          .error (gateError "decode" (s!"decode coverage incomplete: decoded {decodedBytes physical} of " ++
            s!"{codeBytes} executable bytes"))
        else .ok (physical, codeBytes)

/-- A file passes the object policy exactly when it is a relocatable object for
the target that exports the routine, imports nothing and has no section that is
both writable and executable. -/
theorem objectPolicy_ok_iff (file : ObjectFile) (isa : Isa) (routineSymbol : String) :
    checkCandidateObjectPolicy file isa routineSymbol = .ok () ↔
      ∃ info, readForTarget file isa = .ok info ∧ info.kind = .relocatable ∧
        routineSymbol ∈ info.exports ∧ info.imports = [] ∧
        ∀ item ∈ file.sections, sectionPermissions item ≠ (true, true) := by
  unfold checkCandidateObjectPolicy
  cases read : readForTarget file isa with
  | error reason => simp
  | ok info =>
    have noneWritable : info.sections.filter (fun item => item.writable && item.executable) = [] ↔
        ∀ item ∈ file.sections, sectionPermissions item ≠ (true, true) := by
      rw [sections_of_read file isa info read, List.filter_eq_nil_iff]
      simp only [sectionInfos, List.mem_insertionSort, List.forall_mem_map, sectionInfo,
        Bool.and_eq_true, not_and, ne_eq, Prod.ext_iff]
    by_cases kind : info.kind = .relocatable
    · by_cases exported : routineSymbol ∈ info.exports
      · by_cases imports : info.imports = []
        · simp [kind, exported, imports, ← noneWritable]
        · simp [kind, exported, imports]
      · simp [kind, exported]
    · simp [kind]

end Semasm.Cli
