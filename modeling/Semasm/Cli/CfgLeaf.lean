import Semasm.Cli.CandidateCode
import Semasm.Cfg.Build

/-!
# The control-flow leaf gate

The gate first classifies every instruction and rejects indirect transfers and
unknown terminators, then walks over the blocks of the control-flow graph and
rejects branches whose nonzero target is not in the stream.
-/

namespace Semasm.Cli

open Agent Decode Cfg

/-- The `{:#x}` rendering of an address. -/
def hexText (address : UInt64) : String := "0x" ++ String.ofList (Nat.toDigits 16 address.toNat)

/-- A rejection of the gate. -/
def cfgError (decodeCoverage loweringCoverage : Coverage) (message : String) : SemanticGateError :=
  { stage := "cfg"
    message := message
    decode := some decodeCoverage
    lowering := some loweringCoverage }

/-- What the gate says against an instruction. -/
def instructionRejection (instruction : PhysicalInstruction) : Option String :=
  match classify instruction with
  | .indirect => some ("leaf control-flow policy rejected indirect branch at " ++
      hexText instruction.address)
  | .unknown => some ("leaf control-flow policy rejected unknown terminator at " ++
      hexText instruction.address)
  | .call _ none => some ("leaf control-flow policy rejected indirect call at " ++
      hexText instruction.address)
  | _ => none

/-- What the gate says against a block. -/
def blockRejection (block : Block) : Option String :=
  match block.blockEnd with
  | .unconditionalBranch none address =>
    if address ≠ 0 then
      some ("leaf control-flow policy rejected incomplete jump from " ++
        hexText block.endAddress ++ " to " ++ hexText address)
    else none
  | .conditionalBranch none takenAddress =>
    if takenAddress ≠ 0 then
      some ("leaf control-flow policy rejected incomplete conditional from " ++
        hexText block.endAddress ++ " to " ++ hexText takenAddress)
    else none
  | .indirect | .unknown =>
    some ("leaf control-flow policy rejected non-direct terminator at " ++
      hexText block.endAddress)
  | _ => none

/-- `check_cfg_leaf`. -/
def checkCfgLeaf (physical : List PhysicalInstruction) (decodeCoverage loweringCoverage : Coverage) :
    Except SemanticGateError Unit :=
  match physical.findSome? instructionRejection with
  | some message => .error (cfgError decodeCoverage loweringCoverage message)
  | none =>
    match build physical with
    | .error reason =>
      .error (cfgError decodeCoverage loweringCoverage ("CFG build failed: " ++ reason))
    | .ok graph =>
      match graph.blocks.findSome? blockRejection with
      | some message => .error (cfgError decodeCoverage loweringCoverage message)
      | none => .ok ()

/-- What acceptance by the gate means, before any property of the graph. -/
theorem checkCfgLeaf_ok_iff (physical : List PhysicalInstruction)
    (decodeCoverage loweringCoverage : Coverage) :
    checkCfgLeaf physical decodeCoverage loweringCoverage = .ok () ↔
      (∀ instruction ∈ physical, instructionRejection instruction = none) ∧
        ∃ graph, build physical = .ok graph ∧
          ∀ block ∈ graph.blocks, blockRejection block = none := by
  unfold checkCfgLeaf
  cases first : physical.findSome? instructionRejection with
  | some message =>
    have notAll : ¬ ∀ instruction ∈ physical, instructionRejection instruction = none := by
      intro all
      rw [List.findSome?_eq_none_iff.mpr all] at first
      cases first
    simp [notAll]
  | none =>
    have all := List.findSome?_eq_none_iff.mp first
    cases built : build physical with
    | error reason => simp
    | ok graph =>
      cases second : graph.blocks.findSome? blockRejection with
      | some message =>
        have notAll : ¬ ∀ block ∈ graph.blocks, blockRejection block = none := by
          intro every
          rw [List.findSome?_eq_none_iff.mpr every] at second
          cases second
        simp [second, notAll]
      | none =>
        have every := List.findSome?_eq_none_iff.mp second
        simp only [second, true_iff]
        exact ⟨all, graph, rfl, every⟩

end Semasm.Cli
