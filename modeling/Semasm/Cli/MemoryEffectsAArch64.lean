import Semasm.AArch64.Machine
import Semasm.Cli.MemoryEffects
import Semasm.Library.CopyFacts

/-!
# Memory effects of AArch64 code

The collector scans the lowered instructions once. Beside the effects it keeps the
registers it takes for unchanged pointer parameters. A move copies such a fact, an addition
or subtraction copies it as if it were a move, some mnemonics forget their destination
and all others change nothing.

Along straight-line runs the recorded addresses are the executed ones as long as no
instruction changes a register whose fact survives, and lowering has kept the address.
-/

namespace Semasm.Cli.EffectsAArch64

open AArch64 Contract Library
open X86 (OpKind)

/-- The integer argument registers. -/
def argRegs : List Gp := [.x0, .x1, .x2, .x3, .x4, .x5, .x6, .x7]

/-- The pointer parameters with their registers. -/
def pointerArgs (contract : CheckedContract) : List (Gp × String) :=
  (contract.parameters.zip argRegs).filterMap
    (fun entry => if entry.1.ty.isPtr then some (entry.2, entry.1.name) else none)

/-- `seed_param_affinity`. -/
def seedParamAffinity (contract : CheckedContract) : Gp → Option String :=
  CopyFacts.seeded (pointerArgs contract)

/-- `access_mode`. -/
def accessMode (mnemonic : String) (kind : OpKind) : Option AccessMode :=
  if mnemonic ∈ ["adr", "adrp"] then none
  else if kind = .store then some .store
  else some .load

/-- `is_stack_frame`. -/
def isStackFrame (mem : MemOperand) : Bool :=
  match mem.base with
  | some base =>
    match base.storage with
    | .sp => true
    | .gp .fp => mem.index.isNone
    | _ => false
  | none => false

/-- `classify_addr`. -/
def classifyAddr (mem : MemOperand) (affinity : Gp → Option String) : AccessAddr :=
  if isStackFrame mem then .stackFrame
  else
    match mem.base with
    | none => .unknown
    | some base =>
      match base.storage with
      | .gp cell =>
        match affinity cell with
        | none => .unknown
        | some param =>
          if mem.index.isSome then
            let scale := max mem.scale 1
            .indexed param (if scale ≤ 255 then UInt8.ofNat scale.toInt.toNat else 1) mem.disp
              none none
          else .affine param mem.disp
      | .sp | .nzcv => .stackFrame

/-- `width_bytes`. -/
def widthBytes (width : Width) : UInt32 := UInt32.ofNat (width.bits / 8)

/-- `record_accesses`. -/
def recordAccesses (affinity : Gp → Option String) (instr : LoweredInstr) :
    List ObservedMemoryAccess :=
  let mnemonic := Text.asciiLower instr.mnemonic
  instr.operands.filterMap (fun operand =>
    match operand with
    | .mem mem =>
      (accessMode mnemonic instr.kind).map (fun mode =>
        { mode := mode
          widthBytes := widthBytes mem.width
          addr := classifyAddr mem affinity
          mnemonic := mnemonic
          instructionOffset := 0 })
    | _ => none)

/-- The general-purpose register at an operand position. -/
def gpAt (operands : List Operand) (position : Nat) : Option Gp :=
  match operands[position]? with
  | some (.reg register) =>
    match register.storage with
    | .gp cell => some cell
    | _ => none
  | _ => none

/-- The mnemonics taken for moves. -/
def moves : List String := ["mov", "movz", "movn"]

/-- The mnemonics taken for pointer bumps. -/
def adjusts : List String := ["add", "sub"]

/-- The mnemonics that forget their destination. -/
def overwrites : List String :=
  ["ldr", "ldrb", "ldrh", "ldrsb", "ldrsh", "ldrsw", "and", "orr", "eor", "mul", "sdiv", "udiv",
   "movk"]

/-- How a mnemonic is taken. -/
def arm (mnemonic : String) : CopyFacts.Arm :=
  if mnemonic ∈ moves then .move
  else if mnemonic ∈ adjusts then .adjust
  else if mnemonic ∈ overwrites then .overwrite
  else .other

/-- `update_affinity`. -/
def updateAffinity (affinity : Gp → Option String) (instr : LoweredInstr) : Gp → Option String :=
  CopyFacts.follow .zr (arm (Text.asciiLower instr.mnemonic)) (gpAt instr.operands 0)
    (gpAt instr.operands 1) affinity

/-- `collect_memory_effects`. -/
def collectMemoryEffects (lowered : List LoweredInstr) (contract : CheckedContract) :
    List ObservedMemoryAccess :=
  StraightLine.collect recordAccesses updateAffinity (seedParamAffinity contract) lowered

end Semasm.Cli.EffectsAArch64
