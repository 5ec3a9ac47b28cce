/-!
# The x86-64 register file

A register operand is a view: a storage cell, a width, and for eight-bit views
the half. Several views share the cell of a general-purpose register.
-/

namespace Semasm.X86

/-- Bit width of a register view. -/
inductive Width where
  | b8 | b16 | b32 | b64
deriving DecidableEq, Repr

/-- `Width::bits`. -/
def Width.bits : Width → Nat
  | .b8 => 8
  | .b16 => 16
  | .b32 => 32
  | .b64 => 64

/-- Bytes of a view. -/
def Width.bytes (width : Width) : Nat := width.bits / 8

/-- A general-purpose register (the 64-bit storage cell). -/
inductive Gp where
  | rax | rbx | rcx | rdx | rsi | rdi | rsp | rbp
  | r8 | r9 | r10 | r11 | r12 | r13 | r14 | r15
deriving DecidableEq, Repr

/-- The storage backing a register view. -/
inductive Storage where
  | gp (cell : Gp)
  | rip
  | rflags
  | seg (index : UInt8)
  | xmm (index : UInt8)
deriving DecidableEq, Repr

/-- A register view. The half matters for eight-bit views only. -/
structure Register where
  storage : Storage
  width : Width
  high : Bool
deriving DecidableEq, Repr

namespace Gp

/-- The 64-bit view. -/
def full (cell : Gp) : Register := ⟨.gp cell, .b64, false⟩

/-- The 32-bit view. -/
def low32 (cell : Gp) : Register := ⟨.gp cell, .b32, false⟩

/-- The 16-bit view. -/
def low16 (cell : Gp) : Register := ⟨.gp cell, .b16, false⟩

/-- The low 8-bit view. -/
def low8 (cell : Gp) : Register := ⟨.gp cell, .b8, false⟩

/-- The high 8-bit view. -/
def high8 (cell : Gp) : Register := ⟨.gp cell, .b8, true⟩

end Gp

/-- The instruction pointer. -/
def Register.rip : Register := ⟨.rip, .b64, false⟩

end Semasm.X86
