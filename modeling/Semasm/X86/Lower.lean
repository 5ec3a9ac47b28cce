import Semasm.Decode.Instruction
import Semasm.X86.Register

/-!
# Lowering

A decoded instruction of the supported subset becomes a lowered one: the original
mnemonic, a semantic kind, the width of the first operand that has one, the
signedness of a condition and the parsed operands. Memory operands take their
width from the size prefix and count as 64 bits wide without one.
-/

namespace Semasm.X86

open Decode

/-- Semantic operation kinds. -/
inductive OpKind where
  | nop | load | store | binary | compare | select | branch | call | ret | unknown
deriving DecidableEq, Repr

/-- A memory operand: base, index times scale, and displacement. -/
structure MemOperand where
  base : Option Register
  index : Option Register
  scale : UInt8
  disp : Int64
  width : Width
deriving DecidableEq, Repr

/-- A normalised operand. -/
inductive Operand where
  | reg (register : Register)
  | mem (operand : MemOperand)
  | imm (value : Int64)
deriving DecidableEq, Repr

/-- The operand refers to memory. -/
def Operand.isMem : Operand → Bool
  | .mem _ => true
  | _ => false

/-- A single lowered instruction. -/
structure LoweredInstr where
  mnemonic : String
  kind : OpKind
  width : Width
  signed : Option Bool
  operands : List Operand
deriving DecidableEq, Repr

/-- Result of lowering one instruction. -/
inductive Lowering where
  | lowered (instr : LoweredInstr)
  | unsupported (mnemonic : String)
deriving DecidableEq, Repr

/-- `prefix_width`. -/
def prefixWidth : String → Option Width
  | "byte" => some .b8
  | "word" => some .b16
  | "dword" => some .b32
  | "qword" => some .b64
  | _ => none

/-- The views with a name, by name. -/
def registerNames : List (String × Register) :=
  [("rax", Gp.rax.full), ("rbx", Gp.rbx.full), ("rcx", Gp.rcx.full), ("rdx", Gp.rdx.full),
   ("rsi", Gp.rsi.full), ("rdi", Gp.rdi.full), ("rsp", Gp.rsp.full), ("rbp", Gp.rbp.full),
   ("r8", Gp.r8.full), ("r9", Gp.r9.full), ("r10", Gp.r10.full), ("r11", Gp.r11.full),
   ("r12", Gp.r12.full), ("r13", Gp.r13.full), ("r14", Gp.r14.full), ("r15", Gp.r15.full),
   ("rip", Register.rip),
   ("eax", Gp.rax.low32), ("ebx", Gp.rbx.low32), ("ecx", Gp.rcx.low32), ("edx", Gp.rdx.low32),
   ("esi", Gp.rsi.low32), ("edi", Gp.rdi.low32), ("esp", Gp.rsp.low32), ("ebp", Gp.rbp.low32),
   ("r8d", Gp.r8.low32), ("r9d", Gp.r9.low32), ("r10d", Gp.r10.low32), ("r11d", Gp.r11.low32),
   ("r12d", Gp.r12.low32), ("r13d", Gp.r13.low32), ("r14d", Gp.r14.low32),
   ("r15d", Gp.r15.low32),
   ("ax", Gp.rax.low16), ("bx", Gp.rbx.low16), ("cx", Gp.rcx.low16), ("dx", Gp.rdx.low16),
   ("si", Gp.rsi.low16), ("di", Gp.rdi.low16), ("sp", Gp.rsp.low16), ("bp", Gp.rbp.low16),
   ("r8w", Gp.r8.low16), ("r9w", Gp.r9.low16), ("r10w", Gp.r10.low16), ("r11w", Gp.r11.low16),
   ("r12w", Gp.r12.low16), ("r13w", Gp.r13.low16), ("r14w", Gp.r14.low16),
   ("r15w", Gp.r15.low16),
   ("al", Gp.rax.low8), ("ah", Gp.rax.high8), ("bl", Gp.rbx.low8), ("bh", Gp.rbx.high8),
   ("cl", Gp.rcx.low8), ("ch", Gp.rcx.high8), ("dl", Gp.rdx.low8), ("dh", Gp.rdx.high8),
   ("sil", Gp.rsi.low8), ("dil", Gp.rdi.low8), ("spl", Gp.rsp.low8), ("bpl", Gp.rbp.low8),
   ("r8b", Gp.r8.low8), ("r9b", Gp.r9.low8), ("r10b", Gp.r10.low8), ("r11b", Gp.r11.low8),
   ("r12b", Gp.r12.low8), ("r13b", Gp.r13.low8), ("r14b", Gp.r14.low8), ("r15b", Gp.r15.low8)]

/-- `parse_reg`. -/
def parseReg (name : List Char) : Option Register :=
  (registerNames.find? (fun entry => entry.1.toList == name)).map (fun entry => entry.2)

/-- A number with a `0x` or `0X` prefix. -/
def parseHex : List Char → Option Int64
  | '0' :: 'x' :: digits => Text.parseI64 16 digits
  | '0' :: 'X' :: digits => Text.parseI64 16 digits
  | _ => none

/-- State of the walk over the terms of a memory operand. -/
structure MemoryTerms where
  base : Option Register
  index : Option Register
  scale : UInt8
  disp : Int64
  neg : Bool

/-- One term of a memory operand. -/
def MemoryTerms.term (terms : MemoryTerms) (token : List Char) : Option MemoryTerms :=
  if token = ['+'] then some { terms with neg := false }
  else if token = ['-'] then some { terms with neg := true }
  else
    match Text.splitOnce '*' token with
    | some (register, factor) =>
      match parseReg (Text.trimChars register), Text.parseU8 (Text.trimChars factor) with
      | some index, some scale =>
        some { terms with index := some index, scale := scale, neg := false }
      | _, _ => none
    | none =>
      match parseReg token with
      | some register =>
        if terms.base.isNone then some { terms with base := some register, neg := false }
        else some { terms with index := some register, neg := false }
      | none =>
        let sign : Int64 := if terms.neg then -1 else 1
        match (parseHex token).orElse (fun _ => Text.parseI64 10 token) with
        | some value => some { terms with disp := terms.disp + sign * value, neg := false }
        | none => none

/-- `parse_memory`, on the text between the brackets. -/
def parseMemory (body : List Char) : Option MemOperand :=
  let tokens := Text.splitWhitespace body
  let opened := match tokens with
    | ('[' :: first) :: rest => first :: rest
    | other => other
  let closed := match opened.getLast? with
    | some last => opened.dropLast ++ [(Text.stripSuffix ']' last).getD last]
    | none => opened
  match closed.foldlM MemoryTerms.term ⟨none, none, 1, 0, false⟩ with
  | some terms => some ⟨terms.base, terms.index, terms.scale, terms.disp, .b64⟩
  | none => none

/-- The text between brackets, when the whole text is bracketed. -/
def bracketed (text : List Char) : Option (List Char) :=
  match text with
  | '[' :: inner => Text.stripSuffix ']' inner
  | _ => none

/-- `parse_operand`. -/
def parseOperand (token : List Char) : Option Operand :=
  let text := Text.trimChars token
  let prefixed := (Text.afterFirst "ptr".toList text).bind
    (fun rest => bracketed (Text.trimChars rest))
  match prefixed.orElse (fun _ => bracketed text) with
  | some body => (parseMemory body).map .mem
  | none =>
    match (parseHex text).orElse (fun _ => Text.parseI64 10 text) with
    | some value => some (.imm value)
    | none => (parseReg text).map .reg

/-- `infer_width`. -/
def inferWidth : List Operand → Width
  | [] => .b64
  | .reg register :: _ => register.width
  | .mem operand :: _ => operand.width
  | .imm _ :: rest => inferWidth rest

/-- Signedness of the conditional moves, by condition code. -/
def cmovSigned : String → Option (Option Bool)
  | "a" | "nbe" | "ae" | "nb" | "nc" | "b" | "c" | "nae" | "be" | "na" => some (some false)
  | "g" | "nle" | "ge" | "nl" | "l" | "nge" | "le" | "ng" => some (some true)
  | "e" | "z" | "ne" | "nz" | "s" | "ns" | "o" | "no" | "p" | "pe" | "np" | "po" => some none
  | _ => none

/-- `classify_cmov`. -/
def classifyCmov (mnemonic : String) : Option (OpKind × Option Bool) :=
  match Text.stripPrefix "cmov".toList mnemonic.toList with
  | some code => (cmovSigned (String.ofList code)).map (fun signed => (.select, signed))
  | none => none

/-- Kind and signedness of the supported mnemonics. -/
def supportedKind (mnemonic : String) : Option (OpKind × Option Bool) :=
  match mnemonic with
  | "mov" | "movabs" | "push" | "pop" => some (.store, none)
  | "lea" | "movzx" => some (.load, none)
  | "xor" | "add" | "sub" | "inc" | "dec" | "and" | "or" | "shl" | "shr" => some (.binary, none)
  | "cmp" | "test" => some (.compare, none)
  | "jmp" | "je" | "jne" | "jz" | "jnz" => some (.branch, none)
  | "ja" | "jae" | "jb" | "jbe" => some (.branch, some false)
  | "jg" | "jge" | "jl" | "jle" => some (.branch, some true)
  | "call" => some (.call, none)
  | "ret" | "retn" | "retf" => some (.ret, none)
  | "syscall" => some (.unknown, none)
  | other => classifyCmov other

/-- Parse one operand, carrying a size prefix into a memory operand. -/
def lowerOperand (raw : String) : Option Operand :=
  let tokens := (Text.splitWhitespace raw.toList).map String.ofList
  match tokens.findSome? prefixWidth with
  | some width =>
    match (Text.afterFirst ['['] raw.toList).bind (Text.beforeLast ']') with
    | some body =>
      let operand := (parseMemory body).getD ⟨none, none, 1, 0, .b64⟩
      some (.mem { operand with width := width })
    | none => parseOperand raw.toList
  | none => parseOperand raw.toList

/-- `lower`. -/
def lower (instr : PhysicalInstruction) : Lowering :=
  match supportedKind (Text.asciiLower instr.mnemonic) with
  | none => .unsupported instr.mnemonic
  | some (kind, signed) =>
    match instr.operands.mapM lowerOperand with
    | none => .unsupported instr.mnemonic
    | some operands => .lowered ⟨instr.mnemonic, kind, inferWidth operands, signed, operands⟩

example : lowerOperand "dword ptr [rdi + rcx*4 - 0x10]" =
    some (.mem ⟨some Gp.rdi.full, some Gp.rcx.full, 4, -16, .b32⟩) := by decide

end Semasm.X86
