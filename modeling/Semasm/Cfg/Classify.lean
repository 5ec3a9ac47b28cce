import Semasm.Decode.Instruction

/-!
# Control-flow role of an instruction

The role is read from the groups and the mnemonic the disassembler reports and
from the operand texts. A target is known only when some operand is a bare
immediate; the operands are tried from the last to the first, since some
AArch64 branches name a register before the label.
-/

namespace Semasm.Cfg

open Decode

/-- How a basic block terminates. Targets are block indices once resolved. -/
inductive BlockEnd where
  | fallthrough
  | unconditionalBranch (target : Option Nat) (address : UInt64)
  | conditionalBranch (taken : Option Nat) (takenAddress : UInt64)
  | call (target : Option Nat) (address : Option UInt64)
  | ret
  | indirect
  | unknown
deriving DecidableEq, Repr

/-- `parse_imm_operand`. -/
def parseImmOperand (op : String) : Option UInt64 :=
  let trimmed := (Text.trimChars op.toList).dropWhile (· == '#')
  let hex := match trimmed with
    | '0' :: 'x' :: digits => Text.parseU64 16 digits
    | '0' :: 'X' :: digits => Text.parseU64 16 digits
    | _ => none
  match hex with
  | some address => some address
  | none =>
    if !trimmed.isEmpty && Text.allAsciiDigits trimmed then Text.parseU64 10 trimmed else none

/-- `parse_target`: the last operand that is a bare immediate. -/
def parseTarget (ins : PhysicalInstruction) : Option UInt64 :=
  ins.operands.reverse.findSome? parseImmOperand

/-- Mnemonics of direct unconditional jumps. -/
def unconditionalMnemonics : List String := ["jmp", "b", "br", "j", "jr"]

/-- `is_conditional_branch_mnemonic`. -/
def isConditionalBranchMnemonic (mnemonic : String) : Bool :=
  ["beq", "bne", "blt", "bge", "bltu", "bgeu", "beqz", "bnez", "cbz", "cbnz", "tbz",
    "tbnz"].contains mnemonic ||
  Text.startsWith mnemonic "b." ||
  (Text.startsWith mnemonic "j" &&
    ["je", "jne", "jz", "jnz", "ja", "jae", "jb", "jbe", "jg", "jge", "jl", "jle", "jo", "jno",
      "js", "jns", "jp", "jnp", "jecxz", "jrcxz"].contains mnemonic)

/-- `classify`. The source also lists interrupt and privilege groups as unknown
terminators, under a guard that is never true, so that role is never given. -/
def classify (ins : PhysicalInstruction) : BlockEnd :=
  let mnemonic := Text.asciiLower ins.mnemonic
  if ins.groups.contains "ret" || mnemonic == "ret" then .ret
  else if ins.groups.contains "call" then .call none (parseTarget ins)
  else if ins.groups.contains "jump" then
    if unconditionalMnemonics.contains mnemonic then
      match parseTarget ins with
      | some address => .unconditionalBranch none address
      | none => .indirect
    else
      match parseTarget ins with
      | some address => .conditionalBranch none address
      | none =>
        if isConditionalBranchMnemonic mnemonic then .conditionalBranch none 0 else .indirect
  else if ["br", "jr"].contains mnemonic then .indirect
  else if mnemonic == "blr" then .call none none
  else .fallthrough

/-- Whether an instruction with this role closes its block. A call does not. -/
def BlockEnd.isTerminator : BlockEnd → Bool
  | .unconditionalBranch _ _ | .conditionalBranch _ _ | .ret | .indirect | .unknown => true
  | .call _ _ | .fallthrough => false

example : parseImmOperand "#0x10" = some 16 := by decide

end Semasm.Cfg
