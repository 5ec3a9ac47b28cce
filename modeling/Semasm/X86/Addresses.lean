import Semasm.X86.Frame

/-!
# Effective addresses

The address of a memory operand whose base is a full register view, written out.
-/

namespace Semasm.X86

theorem MemOperand.addressWidth_base (operand : MemOperand) (base : Register)
    (named : operand.base = some base) : operand.addressWidth = base.width := by
  simp [MemOperand.addressWidth, named]

/-- The address of a 64-bit base without an index. -/
theorem MemOperand.address_base (operand : MemOperand) (env : Environment) (regs : Gp → Word)
    (base : Register) (cell : Gp) (address : Word) (named : operand.base = some base)
    (storage : base.storage = .gp cell) (wide : base.width = .b64) (plain : operand.index = none)
    (known : operand.address env regs = some address) :
    address = regs cell + BitVec.ofInt 64 operand.disp.toInt := by
  have notRip : base ≠ Register.rip := by
    rintro rfl
    cases storage
  have width := operand.addressWidth_base base named
  rw [wide] at width
  simp only [MemOperand.address, width, named, plain, addressTerm, storage, wide,
    Option.some.injEq, notRip, Option.map_none, reduceCtorEq, if_true, if_false,
    Width.trunc] at known
  split_ifs at known
  simpa using known.symm

/-- The address of a 64-bit base with an index. -/
theorem MemOperand.address_indexed (operand : MemOperand) (env : Environment) (regs : Gp → Word)
    (base index : Register) (cell : Gp) (address : Word) (named : operand.base = some base)
    (storage : base.storage = .gp cell) (wide : base.width = .b64)
    (indexed : operand.index = some index) (known : operand.address env regs = some address) :
    ∃ indexed, index.storage = .gp indexed ∧ indexed ≠ .rsp ∧ index.width = .b64 ∧
      operand.scale ∈ ([1, 2, 4, 8] : List UInt8) ∧
      address = regs cell + BitVec.ofNat 64 operand.scale.toNat * regs indexed +
        BitVec.ofInt 64 operand.disp.toInt := by
  have notRip : base ≠ Register.rip := by
    rintro rfl
    cases storage
  have width := operand.addressWidth_base base named
  rw [wide] at width
  simp only [MemOperand.address, width, named, indexed, Option.some.injEq, notRip, Option.map_some,
    if_false] at known
  by_cases encodable : operand.scale ∈ ([1, 2, 4, 8] : List UInt8)
  · by_cases stack : index.storage = .gp .rsp
    · simp [encodable, stack, addressTerm] at known
    · simp only [encodable, stack, addressTerm, storage, wide, true_or, not_true_eq_false, or_self,
        if_false, if_true] at known
      by_cases same : index.width = .b64
      · rw [if_pos same] at known
        cases held : index.storage with
        | gp indexCell =>
          simp only [held, Width.trunc, Option.some.injEq] at known
          have other : indexCell ≠ .rsp := by
            rintro rfl
            exact stack held
          exact ⟨indexCell, rfl, other, same, encodable, known.symm⟩
        | rip => simp [held] at known
        | rflags => simp [held] at known
        | seg number => simp [held] at known
        | xmm number => simp [held] at known
      · simp [same] at known
  · simp [encodable] at known

end Semasm.X86
