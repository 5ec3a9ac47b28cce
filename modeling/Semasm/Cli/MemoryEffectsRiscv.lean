import Semasm.Cli.MemoryEffects
import Semasm.Library.CopyFacts
import Semasm.Riscv.Machine

/-!
# Memory effects of RISC-V code

The collector scans the lowered instructions once, like the one for AArch64: moves copy
the fact that a register holds a pointer parameter, sums and differences copy it as if
they were moves, some mnemonics forget their destination and all others change nothing.
-/

namespace Semasm.Cli.EffectsRiscv

open Contract Library Riscv
open X86 (OpKind)

/-- The integer argument registers. -/
def argRegs : List Gpr := [.a0, .a1, .a2, .a3, .a4, .a5, .a6, .a7]

/-- The pointer parameters with their registers. -/
def pointerArgs (contract : CheckedContract) : List (Gpr × String) :=
  (contract.parameters.zip argRegs).filterMap
    (fun entry => if entry.1.ty.isPtr then some (entry.2, entry.1.name) else none)

/-- `seed_param_affinity`. -/
def seedParamAffinity (contract : CheckedContract) : Gpr → Option String :=
  CopyFacts.seeded (pointerArgs contract)

/-- `access_mode`. -/
def accessMode (mnemonic : String) (kind : OpKind) : Option AccessMode :=
  if mnemonic = "auipc" then none
  else if kind = .store then some .store
  else some .load

/-- `is_stack_frame`. -/
def isStackFrame (mem : MemOperand) : Bool :=
  match mem.base with
  | some base => (base.storage = .sp ∨ base.storage = .s0) ∧ mem.index.isNone
  | none => false

/-- `classify_addr`. -/
def classifyAddr (mem : MemOperand) (affinity : Gpr → Option String) : AccessAddr :=
  if isStackFrame mem then .stackFrame
  else
    match mem.base with
    | none => .unknown
    | some base =>
      match affinity base.storage with
      | none => .unknown
      | some param =>
        if mem.index.isSome then
          let scale := max mem.scale 1
          .indexed param (if scale ≤ 255 then UInt8.ofNat scale.toInt.toNat else 1) mem.disp none none
        else .affine param mem.disp

/-- `width_bytes`. -/
def widthBytes (width : Width) : UInt32 := UInt32.ofNat (width.bits / 8)

/-- `record_accesses`. -/
def recordAccesses (affinity : Gpr → Option String) (instr : LoweredInstr) :
    List ObservedMemoryAccess :=
  let mnemonic := Text.asciiLower instr.mnemonic
  instr.operands.filterMap (fun operand =>
    match operand with
    | .mem mem =>
      (accessMode mnemonic instr.kind).map (fun mode =>
        { mode := mode
          widthBytes := widthBytes mem.width
          addr := classifyAddr mem affinity
          mnemonic := mnemonic
          instructionOffset := 0 })
    | _ => none)

/-- The register at an operand position. -/
def gprAt (operands : List Operand) (position : Nat) : Option Gpr :=
  match operands[position]? with
  | some (.reg register) => some register.storage
  | _ => none

/-- The mnemonics taken for moves. -/
def moves : List String := ["mv", "li"]

/-- The mnemonics taken for pointer bumps. -/
def adjusts : List String := ["addi", "add", "addiw", "addw", "sub", "subw"]

/-- The mnemonics that forget their destination. -/
def overwrites : List String :=
  ["ld", "lb", "lh", "lw", "lbu", "lhu", "lwu", "and", "andi", "or", "ori", "xor", "mul", "sll",
   "slli"]

/-- How a mnemonic is taken. -/
def arm (mnemonic : String) : CopyFacts.Arm :=
  if mnemonic ∈ moves then .move
  else if mnemonic ∈ adjusts then .adjust
  else if mnemonic ∈ overwrites then .overwrite
  else .other

/-- `update_affinity`. -/
def updateAffinity (affinity : Gpr → Option String) (instr : LoweredInstr) : Gpr → Option String :=
  CopyFacts.follow .zero (arm (Text.asciiLower instr.mnemonic)) (gprAt instr.operands 0)
    (gprAt instr.operands 1) affinity

/-- `collect_memory_effects`. -/
def collectMemoryEffects (lowered : List LoweredInstr) (contract : CheckedContract) :
    List ObservedMemoryAccess :=
  StraightLine.collect recordAccesses updateAffinity (seedParamAffinity contract) lowered

end Semasm.Cli.EffectsRiscv
