import Semasm.AArch64.Register
import Semasm.Decode.Instruction
import Semasm.X86.Lower

/-!
# Lowering AArch64 instructions

A decoded instruction of the supported subset becomes a lowered one. The operand text has
been split at its commas before, also inside brackets; each part is parsed alone, and a
part that is neither memory, an immediate nor a register is dropped.
-/

namespace Semasm.AArch64

open Decode
open X86 (OpKind)

/-- A memory operand: base, scaled index and displacement. -/
structure MemOperand where
  base : Option Register
  index : Option Register
  scale : Int64
  disp : Int64
  width : Width
deriving DecidableEq, Repr

/-- A lowered operand. -/
inductive Operand where
  | reg (register : Register)
  | mem (operand : MemOperand)
  | imm (value : Int64)
deriving DecidableEq, Repr

/-- The operand refers to memory. -/
def Operand.isMem : Operand → Bool
  | .mem _ => true
  | _ => false

/-- A lowered instruction. -/
structure LoweredInstr where
  mnemonic : String
  kind : OpKind
  width : Width
  signed : Option Bool
  operands : List Operand
deriving DecidableEq, Repr

/-- Result of lowering one instruction. -/
inductive Lowering where
  | lowered (instr : LoweredInstr)
  | unsupported (mnemonic : String)
deriving DecidableEq, Repr

/-- `split_mnemonic`. -/
def splitMnemonic (mnemonic : String) : String × String :=
  match Text.splitOnce '.' mnemonic.toList with
  | some (base, suffix) => (String.ofList base, String.ofList suffix)
  | none => (mnemonic, "")

/-- `suffix_is_signed`. -/
def suffixIsSigned (suffix : String) : Option Bool :=
  match suffix.toList with
  | 's' :: _ => some true
  | 'u' :: _ => some false
  | _ => none

/-- `default_mnemonic`. -/
def defaultMnemonic : OpKind → String
  | .ret => "ret"
  | .call => "bl"
  | _ => ""

/-- The supported mnemonics by kind. -/
def mnemonicKinds : List (List String × OpKind) :=
  [(["mov", "movz", "movk", "movn", "str", "strb", "strh"], .store),
   (["ldr", "ldrb", "ldrh", "ldrsb", "ldrsh", "ldrsw"], .load),
   (["add", "adds", "sub", "subs", "mul", "and", "orr", "eor", "lsl", "lsr"], .binary),
   (["cmp", "cmn", "tst"], .compare),
   (["b", "br", "cbz", "cbnz", "tbz", "tbnz"], .branch),
   (["bl", "blr"], .call),
   (["ret"], .ret),
   (["svc", "hvc", "smc", "brk", "hlt"], .unknown)]

/-- `classify`. -/
def classify (base : String) : Option OpKind :=
  (mnemonicKinds.find? (fun entry => base ∈ entry.1)).map (fun entry => entry.2)

/-- `parse_immediate`. -/
def parseImmediate (text : List Char) : Option Int64 :=
  let plain := Text.trimStartChar ':' (Text.trimChars (Text.trimStartChar '#' text))
  let number := Text.trimChars
    (Text.trimStartMatches "hi21".toList (Text.trimStartMatches "lo12".toList plain))
  match number with
  | '0' :: 'x' :: digits => Text.parseI64 16 digits
  | '0' :: 'X' :: digits => Text.parseI64 16 digits
  | _ => Text.parseI64 10 number

/-- The number of a register name after its letter, or of a named register. -/
def registerIndex (name : List Char) : Option UInt8 :=
  match name with
  | [] => none
  | letter :: number =>
    if letter.toLower = 'x' ∨ letter.toLower = 'w' then Text.parseU8 number
    else if name = "fp".toList ∨ name = "FP".toList then some 29
    else if name = "lr".toList ∨ name = "LR".toList then some 30
    else none

/-- `parse_register`. -/
def parseRegister (text : List Char) (defaultWidth : Width) : Option Register :=
  let name := Text.trimChars text
  if name ∈ ["sp".toList, "SP".toList] then some .sp
  else if name ∈ ["xzr".toList, "XZR".toList, "wzr".toList, "WZR".toList] then some .zr
  else
    let width := if (name.head?.map Char.toLower) = some 'w' then .b32 else defaultWidth
    (registerIndex name).bind (fun index =>
      (Gp.all[index.toNat]?).map (fun cell => ⟨.gp cell, width, false⟩))

/-- One part of a memory operand after the base. -/
def memoryPart (defaultWidth : Width) (operand : MemOperand) (part : List Char) : MemOperand :=
  match parseImmediate part with
  | some disp => { operand with disp := disp }
  | none =>
    match parseRegister part defaultWidth with
    | some index => { operand with index := some index }
    | none =>
      match (Text.stripPrefix "lsl".toList part).bind parseImmediate with
      | some shift => { operand with scale := max shift 1 }
      | none => operand

/-- The access width that the text of a memory operand gives. -/
def memoryWidth (text : List Char) (defaultWidth : Width) : Width :=
  if Text.occursIn "b]".toList text && !Text.occursIn "sb]".toList text &&
      !Text.occursIn "sh]".toList text then .b8
  else if Text.occursIn "h]".toList text then .b32
  else defaultWidth

/-- `parse_memory`. -/
def parseMemory (text : List Char) (defaultWidth : Width) : MemOperand :=
  let inner := Text.trimChars
    (Text.trimEndChar '!' (Text.trimEndChar ']' (Text.trimStartChar '[' text)))
  let parts := (inner.splitOn ',').map Text.trimChars
  let base := parseRegister (parts.headD []) defaultWidth
  { parts.tail.foldl (memoryPart defaultWidth) ⟨base, none, 1, 0, defaultWidth⟩ with
    width := memoryWidth text defaultWidth }

/-- `parse_one_operand`. -/
def parseOneOperand (raw : String) (defaultWidth : Width) : Option Operand :=
  let text := Text.trimChars raw.toList
  if text.isEmpty then none
  else if text.head? = some '[' then some (.mem (parseMemory text defaultWidth))
  else
    match parseImmediate text with
    | some value => some (.imm value)
    | none => (parseRegister text defaultWidth).map .reg

/-- `parse_operands`. -/
def parseOperands (raw : List String) (defaultWidth : Width) : List Operand :=
  raw.filterMap (fun operand => parseOneOperand operand defaultWidth)

/-- `operand_width`. -/
def operandWidth (operands : List Operand) : Option Width :=
  operands.findSome? (fun operand =>
    match operand with
    | .reg register => some register.width
    | .mem operand => some operand.width
    | .imm _ => none)

/-- `lower`. -/
def lower (instruction : PhysicalInstruction) : Lowering :=
  let (base, suffix) := splitMnemonic instruction.mnemonic
  let width :=
    if Text.startsWith base "w" ∨
        (base = "movz" ∧ Text.startsWith instruction.mnemonic "movz w") then Width.b32
    else .b64
  match classify base with
  | none => .unsupported instruction.mnemonic
  | some kind =>
    let operands := parseOperands instruction.operands width
    let (mnemonic, kind) :=
      if (kind = .load ∨ kind = .store) ∧
          instruction.operands.any (fun operand => Text.startsWith operand "[") = false then
        ("mov", OpKind.store)
      else if kind = .ret ∨ kind = .call then (defaultMnemonic kind, kind)
      else (base, kind)
    .lowered ⟨mnemonic, kind, (operandWidth operands).getD width, suffixIsSigned suffix, operands⟩

/-- `lower_keep_all`. -/
def lowerKeepAll (instructions : List PhysicalInstruction) : List LoweredInstr :=
  instructions.map (fun instruction =>
    match lower instruction with
    | .lowered instr => instr
    | .unsupported mnemonic => ⟨mnemonic, .unknown, .b64, none, []⟩)

end Semasm.AArch64
