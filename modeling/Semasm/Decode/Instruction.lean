import Semasm.Text

/-!
# Decoded instructions

The disassembler is outside the repository. It returns a list of raw
instructions for a buffer and a load address; the decode crate copies each into
a target-independent record and splits the operand text at its commas.

The one fact about the disassembler that later modules use is that it reads the
buffer from its start without a gap: the bytes of the instructions it returns,
put one after the other, are a prefix of the buffer. It may stop early.
-/

namespace Semasm.Decode

/-- A decoded machine instruction in a target-independent shape. -/
structure PhysicalInstruction where
  address : UInt64
  bytes : List UInt8
  mnemonic : String
  operands : List String
  readRegs : List String
  writeRegs : List String
  groups : List String
  detailAvailable : Bool
deriving DecidableEq, Repr

/-- Register and group names of an instruction, when the backend has them. -/
structure InsnDetail where
  regsRead : List String
  regsWrite : List String
  groups : List String
deriving DecidableEq, Repr

/-- One instruction as the disassembler returns it. -/
structure RawInstruction where
  address : UInt64
  bytes : List UInt8
  mnemonic : Option String
  opStr : Option String
  detail : Option InsnDetail
deriving DecidableEq, Repr

/-- The instruction sets a candidate is decoded for. -/
inductive DecodeIsa where
  | x86_64 | aarch64 | riscv64
deriving DecidableEq, Repr

/-- Errors produced while decoding raw machine code. -/
inductive DecodeError where
  | unsupported (reason : String)
  | initFailed (reason : String)
  | disasmFailed (reason : String)
  | emptyInput
deriving DecidableEq, Repr

/-- The text of a decode error. -/
def DecodeError.text : DecodeError → String
  | .unsupported reason => "decoding for this target is not supported in this build: " ++ reason
  | .initFailed reason => "disassembler initialisation failed: " ++ reason
  | .disasmFailed reason => "disassembly failed: " ++ reason
  | .emptyInput => "empty input buffer"

/-- The disassembler: a buffer and the address of its first byte. -/
abbrev Disassembler :=
  DecodeIsa → List UInt8 → UInt64 → Except DecodeError (List RawInstruction)

/-- Operand tokens of an operand text. -/
def splitOperands (opStr : String) : List String :=
  if opStr.isEmpty then []
  else (opStr.toList.splitOn ',').map (fun part => String.ofList (Text.trimChars part))

/-- The record kept for a raw instruction. -/
def normalise (insn : RawInstruction) : PhysicalInstruction :=
  let detail := insn.detail.getD ⟨[], [], []⟩
  { address := insn.address
    bytes := insn.bytes
    mnemonic := insn.mnemonic.getD ""
    operands := splitOperands (insn.opStr.getD "")
    readRegs := detail.regsRead
    writeRegs := detail.regsWrite
    groups := detail.groups
    detailAvailable := true }

/-- `decode_x86_64`, `decode_aarch64` and `decode_riscv64`. -/
def decode (disasmAll : Disassembler) (isa : DecodeIsa) (code : List UInt8)
    (baseAddress : UInt64) : Except DecodeError (List PhysicalInstruction) :=
  if code.isEmpty then .error .emptyInput
  else
    match disasmAll isa code baseAddress with
    | .error reason => .error reason
    | .ok insns => .ok (insns.map normalise)

/-- The disassembler reads a buffer from its start without a gap. -/
def Disassembler.ReadsPrefix (disasmAll : Disassembler) : Prop :=
  ∀ isa code base insns, disasmAll isa code base = .ok insns →
    insns.flatMap (fun insn => insn.bytes) <+: code

/-- The decoded bytes are a prefix of the section that was decoded. -/
theorem decode_bytes_prefix (disasmAll : Disassembler) (readsPrefix : disasmAll.ReadsPrefix)
    (isa : DecodeIsa) (code : List UInt8) (base : UInt64) (physical : List PhysicalInstruction)
    (decoded : decode disasmAll isa code base = .ok physical) :
    physical.flatMap (fun instruction => instruction.bytes) <+: code := by
  unfold decode at decoded
  split at decoded
  · cases decoded
  · split at decoded
    · cases decoded
    · rename_i insns answered
      cases decoded
      have taken := readsPrefix isa code base insns answered
      simpa [List.flatMap_map, normalise] using taken

end Semasm.Decode
