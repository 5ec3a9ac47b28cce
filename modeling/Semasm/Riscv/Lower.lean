import Semasm.Decode.Instruction
import Semasm.Riscv.Register
import Semasm.X86.Lower

/-!
# Lowering RISC-V instructions

A decoded instruction of the supported subset becomes a lowered one. A memory operand is
a displacement before a base register in parentheses; a displacement that cannot be
parsed counts as zero. All calls and jumps with a link register get one mnemonic.
-/

namespace Semasm.Riscv

open Decode
open X86 (OpKind)

/-- A memory operand: base, scaled index and displacement. -/
structure MemOperand where
  base : Option Register
  index : Option Register
  scale : Int64
  disp : Int64
  width : Width
deriving DecidableEq, Repr

/-- A lowered operand. -/
inductive Operand where
  | reg (register : Register)
  | mem (operand : MemOperand)
  | imm (value : Int64)
deriving DecidableEq, Repr

/-- The operand refers to memory. -/
def Operand.isMem : Operand → Bool
  | .mem _ => true
  | _ => false

/-- A lowered instruction. -/
structure LoweredInstr where
  mnemonic : String
  kind : OpKind
  width : Width
  signed : Option Bool
  operands : List Operand
deriving DecidableEq, Repr

/-- Result of lowering one instruction. -/
inductive Lowering where
  | lowered (instr : LoweredInstr)
  | unsupported (mnemonic : String)
deriving DecidableEq, Repr

/-- `split_mnemonic`. -/
def splitMnemonic (mnemonic : String) : String × String :=
  match Text.splitOnce '.' mnemonic.toList with
  | some (base, suffix) => (String.ofList base, String.ofList suffix)
  | none => (mnemonic, "")

/-- `suffix_is_signed`. -/
def suffixIsSigned (suffix : String) : Option Bool :=
  match suffix.toList with
  | 's' :: _ => some true
  | 'u' :: _ => some false
  | _ => none

/-- `default_mnemonic`. -/
def defaultMnemonic : OpKind → String
  | .ret => "ret"
  | .call => "call"
  | _ => ""

/-- The supported mnemonics by kind. -/
def mnemonicKinds : List (List String × OpKind) :=
  [(["add", "sub", "mul", "and", "or", "xor", "sll", "srl", "sra"], .binary),
   (["ld", "lb", "lh", "lw", "ldu", "lbu", "lhu", "lwu"], .load),
   (["sd", "sb", "sh", "sw", "mv"], .store),
   (["addi", "addiw", "subw", "addw", "andi", "ori", "slli"], .binary),
   (["li"], .store),
   (["slt", "sltu", "slti", "sltiu"], .compare),
   (["beq", "bne", "blt", "bge", "bltu", "bgeu", "beqz", "bnez", "j", "jr"], .branch),
   (["jalr", "jal"], .call),
   (["ret"], .ret),
   (["ecall", "ebreak"], .unknown),
   (["csrr", "csrw", "csrrw", "csrrs", "csrrc", "csrrwi", "csrrsi", "csrrci"], .unknown)]

/-- `classify`. -/
def classify (base : String) : Option OpKind :=
  (mnemonicKinds.find? (fun entry => base ∈ entry.1)).map (fun entry => entry.2)

/-- `parse_immediate`. -/
def parseImmediate (text : List Char) : Option Int64 :=
  let plain := Text.trimStartChar ':' (Text.trimChars (Text.trimStartChar '#' text))
  let number := Text.trimChars
    (Text.trimStartMatches "hi21".toList (Text.trimStartMatches "lo12".toList plain))
  match number with
  | '0' :: 'x' :: digits => Text.parseI64 16 digits
  | '0' :: 'X' :: digits => Text.parseI64 16 digits
  | _ => Text.parseI64 10 number

/-- The names that are looked up first and always stand for the full register. -/
def specialNames : List (String × Gpr) :=
  [("zero", .zero), ("x0", .zero), ("ra", .ra), ("x1", .ra), ("sp", .sp), ("x2", .sp),
   ("gp", .gp), ("x3", .gp), ("tp", .tp), ("x4", .tp), ("fp", .s0), ("s0", .s0), ("x8", .s0)]

/-- The other names of the calling convention. -/
def conventionNames : List (String × Gpr) :=
  [("s1", .s1), ("a0", .a0), ("a1", .a1), ("a2", .a2), ("a3", .a3), ("a4", .a4), ("a5", .a5),
   ("a6", .a6), ("a7", .a7), ("s2", .s2), ("s3", .s3), ("s4", .s4), ("s5", .s5), ("s6", .s6),
   ("s7", .s7), ("s8", .s8), ("s9", .s9), ("s10", .s10), ("s11", .s11), ("t3", .t3), ("t4", .t4),
   ("t5", .t5), ("t6", .t6), ("t0", .t0), ("t1", .t1), ("t2", .t2)]

/-- The register of a name in a table. -/
def lookupName (table : List (String × Gpr)) (name : List Char) : Option Gpr :=
  (table.find? (fun entry => entry.1.toList == name)).map (fun entry => entry.2)

/-- `parse_register`. -/
def parseRegister (text : List Char) (defaultWidth : Width) : Option Register :=
  let name := Text.trimChars text
  match lookupName specialNames name with
  | some cell => some cell.full
  | none =>
    match name with
    | [] => none
    | letter :: number =>
      let width := if letter.toLower = 'w' then .b32 else defaultWidth
      let cell :=
        if letter.toLower = 'x' ∨ letter.toLower = 'w' then
          (Text.parseU8 number).bind (fun index => Gpr.all[index.toNat]?)
        else lookupName conventionNames name
      cell.map (fun cell => ⟨cell, width, false⟩)

/-- A displacement before a base register in parentheses, or a base register alone. -/
def parseMemoryText (inner : List Char) (defaultWidth : Width) : Option MemOperand :=
  let operand (disp base : List Char) : MemOperand :=
    ⟨parseRegister base .b64, none, 1, (parseImmediate disp).getD 0, defaultWidth⟩
  if inner.isEmpty then none
  else
    match Text.splitOnce '(' inner with
    | some (disp, base) =>
      (Text.stripSuffix ')' base).map (fun base => operand (Text.trimChars disp) (Text.trimChars base))
    | none => some (operand ['0'] inner)

/-- `parse_memory`, of a bracketed text. -/
def parseMemory (text : List Char) (defaultWidth : Width) : Option MemOperand :=
  parseMemoryText (Text.trimChars text.tail.dropLast) defaultWidth

/-- `parse_memory_riscv`. -/
def parseMemoryRiscv (text : List Char) (defaultWidth : Width) : Option MemOperand :=
  parseMemoryText (Text.trimChars text) defaultWidth

/-- `parse_one_operand`. -/
def parseOneOperand (raw : String) (defaultWidth : Width) : Option Operand :=
  let text := Text.trimChars raw.toList
  if text.isEmpty then none
  else
    match parseImmediate text with
    | some value => some (.imm value)
    | none =>
      if text.head? = some '[' ∧ text.getLast? = some ']' then
        (parseMemory text defaultWidth).map .mem
      else if '(' ∈ text ∧ text.getLast? = some ')' then
        (parseMemoryRiscv text defaultWidth).map .mem
      else (parseRegister text defaultWidth).map .reg

/-- `parse_operands`. -/
def parseOperands (raw : List String) (defaultWidth : Width) : List Operand :=
  raw.filterMap (fun operand => parseOneOperand operand defaultWidth)

/-- `lower`. -/
def lower (instruction : PhysicalInstruction) : Lowering :=
  let (base, suffix) := splitMnemonic instruction.mnemonic
  let width := if Text.endsWith base "w" ∨ Text.startsWith base "w" then Width.b32 else .b64
  match classify base with
  | none => .unsupported instruction.mnemonic
  | some kind =>
    let operands := parseOperands instruction.operands width
    let hasMem := instruction.operands.any (fun operand =>
      Text.contains operand "(" && Text.endsWith operand ")")
    let (mnemonic, kind) :=
      if (kind = .load ∨ kind = .store) ∧ hasMem = false then ("mv", OpKind.store)
      else if kind = .ret ∨ kind = .call then (defaultMnemonic kind, kind)
      else (base, kind)
    .lowered ⟨mnemonic, kind, width, suffixIsSigned suffix, operands⟩

/-- `lower_keep_all`. -/
def lowerKeepAll (instructions : List PhysicalInstruction) : List LoweredInstr :=
  instructions.map (fun instruction =>
    match lower instruction with
    | .lowered instr => instr
    | .unsupported mnemonic => ⟨mnemonic, .unknown, .b64, none, []⟩)

end Semasm.Riscv
