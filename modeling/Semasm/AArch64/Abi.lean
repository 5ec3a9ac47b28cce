import Semasm.AArch64.Lower
import Semasm.Machine.Abi

/-!
# The AAPCS64 checker

How the checker reads a lowered instruction. A store or load through the stack pointer is
taken to move it by the displacement of its memory operand, whatever the addressing form.
-/

namespace Semasm.AArch64.Abi

open Machine.Abi
open X86.Abi (AbiFinding)

/-- The name of a register in messages. -/
def gpName : Gp → String
  | .x0 => "X0" | .x1 => "X1" | .x2 => "X2" | .x3 => "X3"
  | .x4 => "X4" | .x5 => "X5" | .x6 => "X6" | .x7 => "X7"
  | .x8 => "X8" | .x9 => "X9" | .x10 => "X10" | .x11 => "X11"
  | .x12 => "X12" | .x13 => "X13" | .x14 => "X14" | .x15 => "X15"
  | .x16 => "X16" | .x17 => "X17" | .x18 => "X18" | .x19 => "X19"
  | .x20 => "X20" | .x21 => "X21" | .x22 => "X22" | .x23 => "X23"
  | .x24 => "X24" | .x25 => "X25" | .x26 => "X26" | .x27 => "X27"
  | .x28 => "X28" | .fp => "Fp" | .lr => "Lr" | .zr => "Zr"

/-- `NONVOLATILE_GP`. -/
def nonvolatileGp : List Gp :=
  [.x19, .x20, .x21, .x22, .x23, .x24, .x25, .x26, .x27, .x28, .fp, .lr]

/-- `is_sp`. -/
def isSp (register : Register) : Bool := register.storage == .sp

/-- The first memory operand of an instruction. -/
def memOperand (instr : LoweredInstr) : Option MemOperand :=
  instr.operands.findSome? (fun operand =>
    match operand with
    | .mem memory => some memory
    | _ => none)

/-- The general-purpose register of a register operand. -/
def operandGp : Operand → Option Gp
  | .reg register =>
    match register.storage with
    | .gp cell => some cell
    | _ => none
  | _ => none

/-- The general-purpose registers of the register operands. -/
def named (instr : LoweredInstr) : List Gp := instr.operands.filterMap operandGp

/-- The first memory operand is based on the stack pointer. -/
def spBased (instr : LoweredInstr) : Bool :=
  ((memOperand instr).bind MemOperand.base).any isSp

/-- `sp_store_targets`. -/
def spStoreTargets (instr : LoweredInstr) : List Gp :=
  if instr.kind = .store ∧ spBased instr then (named instr).foldl Checker.addOnce [] else []

/-- `sp_load_targets`. -/
def spLoadTargets (instr : LoweredInstr) : List Gp :=
  if instr.kind = .load ∧ spBased instr then (named instr).foldl Checker.addOnce [] else []

/-- The immediate among the operands behind the target of an `add` or `sub`. -/
def adjustment : List Operand → Option Int64
  | .imm count :: _ => some count
  | .reg _ :: .imm count :: _ => some count
  | _ => none

/-- The displacement by which an access moves the stack pointer. -/
def accessChange (instr : LoweredInstr) : Int64 :=
  match memOperand instr with
  | some memory =>
    if memory.base.any isSp then
      if memory.disp < 0 then -memory.disp else if memory.disp > 0 then -memory.disp else 0
    else 0
  | none => 0

/-- The immediate by which an `add` or `sub` moves the stack pointer. -/
def adjustmentChange (instr : LoweredInstr) : Int64 :=
  match instr.operands with
  | .reg register :: sources =>
    match adjustment sources with
    | some count =>
      if isSp register then (if instr.mnemonic = "sub" then count else -count) else 0
    | none => 0
  | _ => 0

/-- The change of the tracked delta by an instruction. -/
def spChange (instr : LoweredInstr) : Int64 :=
  if instr.mnemonic ∈ ["str", "stp", "ldr", "ldp"] then accessChange instr
  else if instr.mnemonic = "add" ∨ instr.mnemonic = "sub" then adjustmentChange instr
  else 0

/-- `step`. -/
def step (instr : LoweredInstr) : Step where
  spChange := spChange instr
  isCall := instr.mnemonic == "bl"
  isRet := instr.mnemonic == "ret"

/-- The AAPCS64 checker. -/
def checker : Checker LoweredInstr Gp where
  name := "AAPCS64"
  callName := "bl"
  gpName := gpName
  kind := LoweredInstr.kind
  step := step
  named := named
  spStoreTargets := spStoreTargets
  spLoadTargets := spLoadTargets
  nonvolatile := fun cell => nonvolatileGp.contains cell
  link := .lr
  linkClobbered := ⟨"LR_CLOBBERED_NON_LEAF", .error,
    "function performs a `bl` (non-leaf) and writes LR (X30) without saving it in the prologue; "
      ++ "AAPCS64 requires LR to be preserved across calls", none⟩

/-- `analyze`. -/
def analyze (instrs : List LoweredInstr) : AbiReport := checker.analyze instrs

end Semasm.AArch64.Abi
