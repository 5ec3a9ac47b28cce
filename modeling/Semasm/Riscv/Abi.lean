import Semasm.Machine.Abi
import Semasm.Riscv.Lower

/-!
# The LP64 checker

How the checker reads a lowered instruction. A doubleword or word access through the stack
pointer is taken to move it by the displacement of its memory operand, a load only upwards.
-/

namespace Semasm.Riscv.Abi

open Machine.Abi
open X86.Abi (AbiFinding)

/-- The name of a register in messages. -/
def gprName : Gpr → String
  | .zero => "Zero" | .ra => "Ra" | .sp => "Sp" | .gp => "Gp"
  | .tp => "Tp" | .t0 => "T0" | .t1 => "T1" | .t2 => "T2"
  | .s0 => "S0" | .s1 => "S1" | .a0 => "A0" | .a1 => "A1"
  | .a2 => "A2" | .a3 => "A3" | .a4 => "A4" | .a5 => "A5"
  | .a6 => "A6" | .a7 => "A7" | .s2 => "S2" | .s3 => "S3"
  | .s4 => "S4" | .s5 => "S5" | .s6 => "S6" | .s7 => "S7"
  | .s8 => "S8" | .s9 => "S9" | .s10 => "S10" | .s11 => "S11"
  | .t3 => "T3" | .t4 => "T4" | .t5 => "T5" | .t6 => "T6"

/-- `NONVOLATILE_GPR`. -/
def nonvolatileGpr : List Gpr :=
  [.sp, .s0, .s1, .s2, .s3, .s4, .s5, .s6, .s7, .s8, .s9, .s10, .s11]

/-- `is_sp`. -/
def isSp (register : Register) : Bool := register.storage == .sp

/-- The first memory operand of an instruction. -/
def memOperand (instr : LoweredInstr) : Option MemOperand :=
  instr.operands.findSome? (fun operand =>
    match operand with
    | .mem memory => some memory
    | _ => none)

/-- The register of a register operand. -/
def operandGpr : Operand → Option Gpr
  | .reg register => some register.storage
  | _ => none

/-- The registers of the register operands. -/
def named (instr : LoweredInstr) : List Gpr := instr.operands.filterMap operandGpr

/-- The first memory operand is based on the stack pointer. -/
def spBased (instr : LoweredInstr) : Bool :=
  ((memOperand instr).bind MemOperand.base).any isSp

/-- `sp_store_targets`. -/
def spStoreTargets (instr : LoweredInstr) : List Gpr :=
  if instr.kind = .store ∧ spBased instr then named instr else []

/-- `sp_load_targets`. -/
def spLoadTargets (instr : LoweredInstr) : List Gpr :=
  if instr.kind = .load ∧ spBased instr then named instr else []

/-- The displacement by which a store moves the stack pointer. -/
def storeChange (instr : LoweredInstr) : Int64 :=
  match memOperand instr with
  | some memory =>
    if memory.base.any isSp then
      if memory.disp < 0 then -memory.disp else if memory.disp > 0 then -memory.disp else 0
    else 0
  | none => 0

/-- The displacement by which a load moves the stack pointer. -/
def loadChange (instr : LoweredInstr) : Int64 :=
  match memOperand instr with
  | some memory =>
    if memory.base.any isSp then (if memory.disp > 0 then -memory.disp else 0) else 0
  | none => 0

/-- The immediate by which an addition moves the stack pointer. -/
def adjustmentChange (instr : LoweredInstr) : Int64 :=
  match instr.operands with
  | [.reg target, .imm count] => if isSp target then -count else 0
  | .reg target :: .reg source :: .imm count :: _ =>
    if isSp target && isSp source then -count else 0
  | _ => 0

/-- The change of the tracked delta by an instruction. -/
def spChange (instr : LoweredInstr) : Int64 :=
  if instr.mnemonic ∈ ["sd", "sw", "sdsp", "swsp"] then storeChange instr
  else if instr.mnemonic ∈ ["ld", "lw"] then loadChange instr
  else if instr.mnemonic ∈ ["addi", "add", "c.addi", "c.addi16sp"] then adjustmentChange instr
  else 0

/-- The first operand is a register. -/
def startsWith (cell : Gpr) (instr : LoweredInstr) : Bool :=
  match instr.operands.head? with
  | some (.reg register) => register.storage == cell
  | _ => false

/-- The second operand is memory based on the return address. -/
def throughRa (instr : LoweredInstr) : Bool :=
  match instr.operands with
  | _ :: .mem memory :: _ => memory.base.any (fun register => register.storage == .ra)
  | _ => false

/-- `step`. -/
def step (instr : LoweredInstr) : Step where
  spChange := spChange instr
  isCall := instr.mnemonic == "call" ||
    (instr.mnemonic == "jalr" && !startsWith .zero instr && startsWith .ra instr)
  isRet := instr.mnemonic == "ret" ||
    (instr.mnemonic == "jalr" && startsWith .zero instr && throughRa instr)

/-- The LP64 checker. -/
def checker : Checker LoweredInstr Gpr where
  name := "LP64"
  callName := "call"
  gpName := gprName
  kind := LoweredInstr.kind
  step := step
  named := named
  spStoreTargets := spStoreTargets
  spLoadTargets := spLoadTargets
  nonvolatile := fun cell => nonvolatileGpr.contains cell && cell != .sp
  link := .ra
  linkClobbered := ⟨"RA_CLOBBERED_NON_LEAF", .error,
    "function performs a call (non-leaf) and writes RA (x1) without saving it in the prologue; "
      ++ "LP64 requires RA to be preserved across calls", none⟩

/-- `analyze`. -/
def analyze (instrs : List LoweredInstr) : AbiReport := checker.analyze instrs

end Semasm.Riscv.Abi
