/-!
# The RISC-V register file

The thirty-two registers by their names in the calling convention. Register `zero` reads
as zero.
-/

namespace Semasm.Riscv

/-- Bit width of a register view. -/
inductive Width where
  | b32 | b64
deriving DecidableEq, Repr

/-- `Width::bits`. -/
def Width.bits : Width → Nat
  | .b32 => 32
  | .b64 => 64

/-- A general-purpose register. -/
inductive Gpr where
  | zero | ra | sp | gp | tp | t0 | t1 | t2 | s0 | s1 | a0 | a1 | a2 | a3 | a4 | a5 | a6 | a7
  | s2 | s3 | s4 | s5 | s6 | s7 | s8 | s9 | s10 | s11 | t3 | t4 | t5 | t6
deriving DecidableEq, Repr

/-- The registers in encoding order. -/
def Gpr.all : List Gpr :=
  [.zero, .ra, .sp, .gp, .tp, .t0, .t1, .t2, .s0, .s1, .a0, .a1, .a2, .a3, .a4, .a5, .a6, .a7,
   .s2, .s3, .s4, .s5, .s6, .s7, .s8, .s9, .s10, .s11, .t3, .t4, .t5, .t6]

/-- A register view. Every storage is a general-purpose register. -/
structure Register where
  storage : Gpr
  width : Width
  high : Bool
deriving DecidableEq, Repr

/-- The 64-bit view. -/
def Gpr.full (cell : Gpr) : Register := ⟨cell, .b64, false⟩

end Semasm.Riscv
