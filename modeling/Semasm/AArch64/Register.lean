/-!
# The AArch64 register file

A register operand is a view of a storage cell: the full register or its low half. The
stack pointer is a cell of its own, and the zero register reads as zero.
-/

namespace Semasm.AArch64

/-- Bit width of a register view. -/
inductive Width where
  | b8 | b32 | b64
deriving DecidableEq, Repr

/-- `Width::bits`. -/
def Width.bits : Width → Nat
  | .b8 => 8
  | .b32 => 32
  | .b64 => 64

/-- A general-purpose register, or the zero register. -/
inductive Gp where
  | x0 | x1 | x2 | x3 | x4 | x5 | x6 | x7 | x8 | x9 | x10 | x11 | x12 | x13 | x14 | x15
  | x16 | x17 | x18 | x19 | x20 | x21 | x22 | x23 | x24 | x25 | x26 | x27 | x28 | fp | lr | zr
deriving DecidableEq, Repr

/-- The registers in encoding order. -/
def Gp.all : List Gp :=
  [.x0, .x1, .x2, .x3, .x4, .x5, .x6, .x7, .x8, .x9, .x10, .x11, .x12, .x13, .x14, .x15,
   .x16, .x17, .x18, .x19, .x20, .x21, .x22, .x23, .x24, .x25, .x26, .x27, .x28, .fp, .lr, .zr]

/-- The storage backing a register view. -/
inductive Storage where
  | gp (cell : Gp)
  | sp
  | nzcv
deriving DecidableEq, Repr

/-- A register view. -/
structure Register where
  storage : Storage
  width : Width
  high : Bool
deriving DecidableEq, Repr

/-- The 64-bit view. -/
def Gp.full (cell : Gp) : Register := ⟨.gp cell, .b64, false⟩

/-- The 32-bit view. -/
def Gp.low32 (cell : Gp) : Register := ⟨.gp cell, .b32, false⟩

/-- The stack pointer. -/
def Register.sp : Register := ⟨.sp, .b64, false⟩

/-- The zero register. -/
def Register.zr : Register := ⟨.gp .zr, .b64, false⟩

end Semasm.AArch64
