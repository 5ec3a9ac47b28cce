import Semasm.AArch64.Machine
import Semasm.Agent.Harness.Shapes
import Semasm.Agent.Verify
import Semasm.Riscv.Machine
import Semasm.X86.Lower

/-!
# The read-only leaf gates

A body checked against a contract that only reads is rejected when one of its instructions
is seen to write memory. On x86-64 that is a listed mnemonic with a memory operand in
front; on AArch64 and RISC-V an instruction of the store kind with a memory operand.
Operands on the frame or stack register are exempt as spills.
-/

namespace Semasm.Cli

open Agent Agent.Harness Contract

/-- The three gates, over what counts as a write. -/
def checkReadOnlyBufferLeaf {Instr : Type} (writes : Instr → Bool) (mnemonic : Instr → String)
    (lowered : List Instr) (contract : CheckedContract) (decode lowering : Coverage) :
    Except SemanticGateError Unit :=
  if isReadOnlyBufferScan contract then
    match lowered.find? writes with
    | some instruction =>
      .error
        { stage := "memory"
          message :=
            "read-only buffer leaf rejected memory store `" ++ mnemonic instruction ++ "`"
          decode := some decode
          lowering := some lowering }
    | none => .ok ()
  else .ok ()

/-- The mnemonics that count as writing a memory operand in front. -/
def x86WriteMnemonics : List String :=
  ["mov", "movabs", "xchg", "add", "sub", "adc", "sbb", "and", "or", "xor", "inc", "dec", "not",
   "neg", "shl", "shr", "sal", "sar", "rol", "ror", "stosb", "stosw", "stosd", "stosq"]

/-- A spill at the frame pointer. -/
def x86FrameSpill (mem : X86.MemOperand) : Bool :=
  mem.base.map X86.Register.storage = some (.gp .rbp) ∧ mem.index.isNone

/-- `is_x86_explicit_memory_write`. -/
def isX86ExplicitMemoryWrite (instruction : X86.LoweredInstr) : Bool :=
  match instruction.operands.head? with
  | some (.mem mem) =>
    if x86FrameSpill mem then false
    else Text.asciiLower instruction.mnemonic ∈ x86WriteMnemonics
  | _ => false

/-- `check_x86_read_only_buffer_leaf`. -/
def checkX86ReadOnlyBufferLeaf : List X86.LoweredInstr → CheckedContract → Coverage → Coverage →
    Except SemanticGateError Unit :=
  checkReadOnlyBufferLeaf isX86ExplicitMemoryWrite X86.LoweredInstr.mnemonic

/-- A spill at the stack pointer, or at the frame pointer without an index. -/
def aarch64StackSpill (mem : AArch64.MemOperand) : Bool :=
  match mem.base.map AArch64.Register.storage with
  | some .sp => true
  | some (.gp .fp) => mem.index.isNone
  | _ => false

/-- `is_aarch64_explicit_memory_write`. -/
def isAArch64ExplicitMemoryWrite (instruction : AArch64.LoweredInstr) : Bool :=
  instruction.kind = .store ∧ instruction.operands.any (fun operand =>
    match operand with
    | .mem mem => !aarch64StackSpill mem
    | _ => false)

/-- `check_aarch64_read_only_buffer_leaf`. -/
def checkAArch64ReadOnlyBufferLeaf : List AArch64.LoweredInstr → CheckedContract → Coverage →
    Coverage → Except SemanticGateError Unit :=
  checkReadOnlyBufferLeaf isAArch64ExplicitMemoryWrite AArch64.LoweredInstr.mnemonic

/-- A spill at the stack or frame pointer without an index. -/
def riscvStackSpill (mem : Riscv.MemOperand) : Bool :=
  match mem.base.map Riscv.Register.storage with
  | some .sp | some .s0 => mem.index.isNone
  | _ => false

/-- `is_riscv_explicit_memory_write`. -/
def isRiscvExplicitMemoryWrite (instruction : Riscv.LoweredInstr) : Bool :=
  instruction.kind = .store ∧ instruction.operands.any (fun operand =>
    match operand with
    | .mem mem => !riscvStackSpill mem
    | _ => false)

/-- `check_riscv_read_only_buffer_leaf`. -/
def checkRiscvReadOnlyBufferLeaf : List Riscv.LoweredInstr → CheckedContract → Coverage →
    Coverage → Except SemanticGateError Unit :=
  checkReadOnlyBufferLeaf isRiscvExplicitMemoryWrite Riscv.LoweredInstr.mnemonic

/-- No instruction of an accepted body counts as a write. -/
theorem checkReadOnlyBufferLeaf_ok {Instr : Type} (writes : Instr → Bool) (mnemonic : Instr → String)
    (lowered : List Instr) (contract : CheckedContract) (decode lowering : Coverage)
    (readOnly : isReadOnlyBufferScan contract = true)
    (passed : checkReadOnlyBufferLeaf writes mnemonic lowered contract decode lowering = .ok ()) :
    ∀ instruction ∈ lowered, writes instruction = false := by
  unfold checkReadOnlyBufferLeaf at passed
  rw [if_pos readOnly] at passed
  split at passed
  · cases passed
  next none =>
    intro instruction member
    exact Bool.eq_false_iff.mpr (fun writing => List.find?_eq_none.mp none instruction member writing)

end Semasm.Cli
