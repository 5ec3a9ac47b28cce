import Semasm.Cli.SettledIndex
import Semasm.X86.ProgramRuns

/-!
# The instructions of a counted loop

What the zeroing, the increment, the comparison and the branch of a counted loop
do to the value of the index register, through whatever view of the register they
name it.
-/

namespace Semasm.Cli

open Decode X86

/-- A view that starts at the lowest bit of its register. -/
def Low (register : Register) : Prop := ¬ (register.width = .b8 ∧ register.high = true)

instance (register : Register) : Decidable (Low register) := inferInstanceAs (Decidable (¬ _))

/-- The first operand is a view with a property. -/
def FirstView (holds : Register → Prop) (instr : LoweredInstr) : Prop :=
  ∃ register rest, instr.operands = .reg register :: rest ∧ holds register

/-- The first operand of an instruction that names a cell. -/
theorem firstCell_some (instr : LoweredInstr) (cell : Gp) (first : firstCell instr = some cell) :
    ∃ register rest, instr.operands = .reg register :: rest ∧ register.storage = .gp cell := by
  unfold firstCell at first
  split at first
  next register rest shape =>
    split at first
    next held storage =>
      cases first
      exact ⟨register, rest, shape, storage⟩
    next => cases first
  next => cases first

/-- Bits of a width below the top of the word. -/
theorem bits_le (width : Width) : width.bits ≤ 64 := by
  cases width <;> decide

theorem trunc_toNat (width : Width) (value : Word) :
    (width.trunc value).toNat = value.toNat % 2 ^ width.bits := by
  have bound := value.isLt
  cases width <;> simp only [Width.trunc, Width.bits, BitVec.toNat_setWidth] <;> omega

/-- A low view shows the low bits of its cell. -/
theorem value_low (regs : Gp → Word) (register : Register) (cell : Gp)
    (storage : register.storage = .gp cell) (low : Low register) :
    register.value regs = some (register.width.trunc (regs cell)) := by
  have notHigh : ¬ (register.width = .b8 ∧ register.high = true) := low
  simp only [Register.value, storage, notHigh, if_false]

/-- The low bits of a word replaced. -/
theorem replace_low (old new : Word) (count : Nat) (inside : new.toNat < 2 ^ count) :
    ((old &&& ~~~(BitVec.ofNat 64 (2 ^ count - 1))) ||| new).toNat =
      old.toNat / 2 ^ count * 2 ^ count + new.toNat := by
  have shifted : old &&& ~~~(BitVec.ofNat 64 (2 ^ count - 1)) = (old >>> count) <<< count := by
    apply BitVec.eq_of_getLsbD_eq
    intro bit within
    simp only [BitVec.getLsbD_and, BitVec.getLsbD_not, BitVec.getLsbD_shiftLeft,
      BitVec.getLsbD_ushiftRight, BitVec.getLsbD_ofNat, Nat.testBit_two_pow_sub_one, within]
    by_cases low : bit < count
    · simp [low]
    · simp [low, show count + (bit - count) = bit by omega]
  have whole : old.toNat / 2 ^ count * 2 ^ count < 2 ^ 64 :=
    lt_of_le_of_lt (Nat.div_mul_le_self _ _) old.isLt
  rw [shifted, BitVec.toNat_or, BitVec.toNat_shiftLeft, BitVec.toNat_ushiftRight,
    Nat.shiftRight_eq_div_pow, Nat.shiftLeft_eq, Nat.mod_eq_of_lt whole, ← Nat.shiftLeft_eq,
    ← Nat.shiftLeft_add_eq_or_of_lt inside]

/-- A write through a low view replaces the low bits, or clears the rest. -/
theorem merge_low (register : Register) (low : Low register) (old new : Word) :
    (register.merge old new).toNat ≤ old.toNat / 2 ^ register.width.bits * 2 ^ register.width.bits +
      new.toNat % 2 ^ register.width.bits := by
  have half : (Width.b16.trunc new).toNat < 2 ^ 16 := by
    rw [trunc_toNat]
    exact Nat.mod_lt _ (by decide)
  have quarter : (Width.b8.trunc new).toNat < 2 ^ 8 := by
    rw [trunc_toNat]
    exact Nat.mod_lt _ (by decide)
  unfold Register.merge
  cases width : register.width with
  | b64 =>
    have bound := new.isLt
    simp only [Width.bits]
    omega
  | b32 =>
    simp only [trunc_toNat, Width.bits]
    omega
  | b16 =>
    have replaced := replace_low old (Width.b16.trunc new) 16 half
    rw [trunc_toNat] at replaced
    exact le_of_eq replaced
  | b8 =>
    have notHigh : ¬ register.high = true := fun high => low ⟨width, high⟩
    have replaced := replace_low old (Width.b8.trunc new) 8 quarter
    rw [trunc_toNat] at replaced
    simp only [notHigh]
    exact le_of_eq replaced

/-- One more in a low view is at most one more in its cell. -/
theorem merge_successor (register : Register) (low : Low register) (old : Word) :
    (register.merge old (register.width.trunc (register.width.trunc old + 1))).toNat ≤
      old.toNat + 1 := by
  have merged := merge_low register low old (register.width.trunc (register.width.trunc old + 1))
  have bits := bits_le register.width
  have parts := Nat.div_add_mod' old.toNat (2 ^ register.width.bits)
  have seen : (register.width.trunc (register.width.trunc old + 1)).toNat ≤
      old.toNat % 2 ^ register.width.bits + 1 := by
    rw [trunc_toNat, BitVec.toNat_add, trunc_toNat]
    exact le_trans (Nat.mod_le _ _) (Nat.mod_le _ _)
  have cut := Nat.mod_le (register.width.trunc (register.width.trunc old + 1)).toNat
    (2 ^ register.width.bits)
  omega

/-- The operation of an instruction with a known mnemonic. -/
theorem op_of_mnemonic (instr : LoweredInstr) (name : String) (op : Op)
    (named : lowerMnemonic instr = name) (entry : Op.ofMnemonic name = some op) :
    instr.op = some op := by
  rw [← entry, ← named]
  rfl

/-- An execution of an instruction with a known mnemonic. -/
theorem exec_of_mnemonic (env : Environment) (instr : LoweredInstr) (state : State)
    (outcome : Outcome) (name : String) (op : Op) (executed : exec env instr state = some outcome)
    (named : lowerMnemonic instr = name) (entry : Op.ofMnemonic name = some op) :
    op.exec env state instr.operands = some outcome := by
  obtain ⟨other, known, ran⟩ := op_of_exec env instr state outcome executed
  rw [op_of_mnemonic instr name op named entry] at known
  cases known
  exact ran

/-- An instruction that adds one to a cell, by its text. -/
def Increments (instr : LoweredInstr) (cell : Gp) : Prop :=
  (lowerMnemonic instr = "inc" ∧ firstCell instr = some cell) ∨
    (lowerMnemonic instr = "add" ∧ addsOne instr cell = true)

theorem Increments.firstCell {instr : LoweredInstr} {cell : Gp} (increments : Increments instr cell) :
    firstCell instr = some cell := by
  rcases increments with ⟨_, first⟩ | ⟨_, adds⟩
  · exact first
  · simp only [addsOne, Bool.and_eq_true, beq_iff_eq] at adds
    exact adds.1

/-- An increment through a low view adds at most one. -/
theorem increment_le (env : Environment) (instr : LoweredInstr) (state : State) (outcome : Outcome)
    (cell : Gp) (executed : exec env instr state = some outcome) (increments : Increments instr cell)
    (low : FirstView Low instr) :
    ((outcome.result state).regs cell).toNat ≤ (state.regs cell).toNat + 1 := by
  obtain ⟨register, rest, shape, storage⟩ := firstCell_some instr cell increments.firstCell
  obtain ⟨view, others, viewed, low⟩ := low
  rw [shape] at viewed
  cases viewed
  rcases increments with ⟨named, _⟩ | ⟨named, adds⟩
  · have ran := exec_of_mnemonic env instr state outcome "inc" .inc executed named (by decide)
    simp only [Op.exec] at ran
    obtain ⟨_, width, old, loads, change, stores, form, _, read, written, result⟩ :=
      exec_inc env state _ outcome ran
    rw [shape] at form
    cases form
    obtain ⟨rfl, _, same, _, _⟩ := Operand.write_reg _ _ _ _ _ _ _ written
    obtain ⟨seen, _, _⟩ := Operand.read_reg _ _ _ _ _ _ read
    rw [value_low _ _ cell storage low] at seen
    cases seen
    rw [result, result_reg _ _ _ _ _ _ _ storage, ← same]
    exact merge_successor register low _
  · have ran := exec_of_mnemonic env instr state outcome "add" (.alu .add) executed named (by decide)
    simp only [Op.exec] at ran
    obtain ⟨_, src, width, old, loads, value, reads, change, stores, form, _, left, right, written,
      result⟩ := exec_alu env state .add _ outcome ran
    have one : src = .imm 1 := by
      simp only [addsOne, form, Bool.and_eq_true, beq_iff_eq] at adds
      simpa using adds.2
    rw [shape] at form
    cases form
    subst one
    obtain ⟨rfl, _, same, _, _⟩ := Operand.write_reg _ _ _ _ _ _ _ written
    obtain ⟨seen, _, _⟩ := Operand.read_reg _ _ _ _ _ _ left
    rw [value_low _ _ cell storage low] at seen
    cases seen
    simp only [Operand.read] at right
    split_ifs at right
    cases right
    have unit : width.trunc (BitVec.ofInt 64 (1 : Int64).toInt) = 1 := by
      cases width <;> decide
    rw [result, result_reg _ _ _ _ _ _ _ storage, ← same, same, unit, ← same]
    exact merge_successor register low _

/-- A zeroing through a view that covers the cell leaves zero. -/
theorem zeroing_leaves_zero (env : Environment) (instr : LoweredInstr) (state : State)
    (outcome : Outcome) (cell : Gp) (executed : exec env instr state = some outcome)
    (zeroes : zeroVerdict cell instr = some true) (wide : FirstView Wide instr) :
    (outcome.result state).regs cell = 0 := by
  obtain ⟨op, known, ran⟩ := op_of_exec env instr state outcome executed
  obtain ⟨view, others, shape, wide⟩ := wide
  have names := mnemonic_of_op instr op known
  apply settledBy_sound env state op instr.operands outcome cell none 0 ran nofun
  simp only [zeroVerdict] at zeroes
  split_ifs at zeroes with isXor isMove
  · have xor := names.1.mpr isXor
    subst xor
    simp only [Op.exec] at ran
    obtain ⟨_, _, _, _, _, _, _, _, _, form, _⟩ := exec_alu env state .xor _ outcome ran
    rw [shape] at form
    cases form
    rw [shape] at zeroes ⊢
    split at zeroes
    next dst src rest same =>
      cases same
      split at zeroes
      next target origin storage source =>
        split_ifs at zeroes with both
        · simp [settledBy, storage, source, both, wide]
        · cases zeroes
      next => cases zeroes
    next => cases zeroes
  · have move := names.2.1.mpr isMove
    subst move
    simp only [Op.exec] at ran
    rw [shape] at ran zeroes ⊢
    obtain ⟨src, value, reads, held, rfl, storage, read, _⟩ := exec_move_reg env state view _ outcome ran
    simp only at zeroes
    split_ifs at zeroes with target
    have zero : src = .imm 0 := by simpa using zeroes
    subst zero
    simp only [Operand.read] at read
    split_ifs at read with encodable
    simp [settledBy, target, wide, encodable]
  · cases zeroes

/-- An immediate assigned through a view that covers the cell is its value. -/
theorem assignment_value (env : Environment) (instr : LoweredInstr) (state : State)
    (outcome : Outcome) (cell : Gp) (count : Int64) (executed : exec env instr state = some outcome)
    (named : lowerMnemonic instr = "mov" ∨ lowerMnemonic instr = "movabs")
    (assigned : assignedImmediate instr cell = some count) (positive : 0 < count.toInt)
    (wide : FirstView Wide instr) :
    ((outcome.result state).regs cell).toNat = count.toUInt64.toNat := by
  obtain ⟨op, known, ran⟩ := op_of_exec env instr state outcome executed
  have move := (mnemonic_of_op instr op known).2.1.mpr named
  subst move
  obtain ⟨view, rest, shape, wide⟩ := wide
  unfold assignedImmediate at assigned
  split_ifs at assigned with first
  simp only [Op.exec] at ran
  rw [shape] at ran
  obtain ⟨src, value, reads, held, rfl, storage, read, result⟩ :=
    exec_move_reg env state view _ outcome ran
  have same : held = cell := by simpa [firstCell, shape, storage] using first
  subst same
  have immediate : src = .imm count := by
    simp only [shape] at assigned
    split at assigned
    next value second =>
      cases assigned
      simpa using second
    next => cases assigned
  subst immediate
  have encodable : Operand.fits view.width count := by
    by_contra outside
    simp [Operand.read, outside] at read
  have left : (outcome.result state).regs held = BitVec.ofInt 64 count.toInt := by
    refine settledBy_sound env state .move [.reg view, .imm count] outcome held none _ ran ?_ ?_
    · intro known impossible
      cases impossible
    · simp [settledBy, storage, wide, encodable, positive.le]
  rw [left, (toUInt64_of_nonneg count positive.le).2]

/-- A decrement of a positive count through a view that covers the cell leaves a
smaller value, and the zero flag says whether it is zero. -/
theorem decrement_below (env : Environment) (instr : LoweredInstr) (state : State)
    (outcome : Outcome) (cell : Gp) (executed : exec env instr state = some outcome)
    (named : lowerMnemonic instr = "dec") (target : firstCell instr = some cell)
    (wide : FirstView Wide instr) (positive : 0 < (state.regs cell).toNat) :
    ((outcome.result state).regs cell).toNat < (state.regs cell).toNat ∧
      ((outcome.result state).flags.zero = true ↔ (outcome.result state).regs cell = 0) := by
  have ran := exec_of_mnemonic env instr state outcome "dec" .dec executed named (by decide)
  obtain ⟨register, rest, shape, storage⟩ := firstCell_some instr cell target
  obtain ⟨view, others, viewed, wide⟩ := wide
  rw [shape] at viewed
  cases viewed
  simp only [Op.exec] at ran
  obtain ⟨_, width, old, loads, change, stores, form, _, read, written, result⟩ :=
    exec_dec env state _ outcome ran
  rw [shape] at form
  cases form
  obtain ⟨rfl, _, same, _, _⟩ := Operand.write_reg _ _ _ _ _ _ _ written
  obtain ⟨seen, _, _⟩ := Operand.read_reg _ _ _ _ _ _ read
  rw [value_trunc _ _ cell storage wide] at seen
  cases seen
  subst same
  have merged : (outcome.result state).regs cell =
      register.width.trunc (register.width.trunc (state.regs cell) - 1) := by
    rw [result, result_reg _ _ _ _ _ _ _ storage, register.merge_wide _ _ wide]
    rcases wide with full | half
    · rw [full, Width.trunc_b64]
    · rw [half]
      apply trunc_of_lt
      rw [Width.trunc_b32_toNat]
      exact Nat.mod_lt _ (by decide)
  constructor
  · have width := (state.regs cell).isLt
    have one : (1 : Word).toNat = 1 := rfl
    rw [merged]
    rcases wide with full | half
    · rw [full, Width.trunc_b64, Width.trunc_b64, BitVec.toNat_sub]
      omega
    · rw [half, Width.trunc_b32_toNat, BitVec.toNat_sub, Width.trunc_b32_toNat]
      omega
  · rw [merged, result]
    simp [Outcome.result, subFlags]

/-- Flags of a comparison whose first value is not below the second, signed or
not. -/
def NotBelow (flags : Flags) : Prop := flags.carry = false ∧ flags.sign = flags.overflow

/-- Equal values are not below one another. -/
theorem subFlags_equal (width : Width) (value : Word) : NotBelow (subFlags width value value) := by
  have zero : width.signBit (width.trunc 0) = false := by cases width <;> decide
  constructor
  · simp [subFlags]
  · simpa [subFlags] using zero

/-- A comparison changes no cell, and says when the bound is reached. -/
theorem comparison_step (env : Environment) (instr : LoweredInstr) (state : State)
    (outcome : Outcome) (cell : Gp) (bound : Int64) (executed : exec env instr state = some outcome)
    (named : lowerMnemonic instr = "cmp") (compared : comparedBound instr = some (cell, bound)) :
    (outcome.result state).regs = state.regs ∧
      (FirstView Low instr → (state.regs cell).toNat = bound.toUInt64.toNat →
        NotBelow (outcome.result state).flags) := by
  have positive := comparedBound_pos instr cell bound compared
  have ran := exec_of_mnemonic env instr state outcome "cmp" .cmp executed named (by decide)
  simp only [Op.exec] at ran
  obtain ⟨left, right, width, first, reads, second, others, form, _, leftRead, rightRead, rfl⟩ :=
    exec_compare env state _ _ outcome ran
  refine ⟨rfl, ?_⟩
  rintro ⟨view, rest, shape, low⟩ reached
  unfold comparedBound at compared
  rw [shape] at form compared
  cases form
  split at compared
  next register value tail same =>
    cases same
    split at compared
    next held storage =>
      split_ifs at compared
      cases compared
      obtain ⟨seen, sameWidth, _⟩ := Operand.read_reg _ _ _ _ _ _ leftRead
      rw [value_low _ _ cell storage low] at seen
      cases seen
      simp only [Operand.read] at rightRead
      split_ifs at rightRead
      cases rightRead
      have word : state.regs cell = BitVec.ofInt 64 bound.toInt := by
        apply BitVec.eq_of_toNat_eq
        rw [reached, (toUInt64_of_nonneg bound (by omega)).2]
      have equal : view.width.trunc (state.regs cell) = width.trunc (BitVec.ofInt 64 bound.toInt) := by
        rw [word, sameWidth]
      simp only [Outcome.result, equal]
      exact subFlags_equal width _
    next => cases compared
  next => cases compared

/-- The condition that leaves a counted loop at its header. -/
theorem guard_falls (env : Environment) (instr : LoweredInstr) (state : State) (outcome : Outcome)
    (executed : exec env instr state = some outcome)
    (named : lowerMnemonic instr ∈ ["jae", "jnb", "jge"]) (through : outcome.next = .goOn) :
    ¬ NotBelow state.flags := by
  rintro ⟨carry, sign⟩
  obtain ⟨op, known, ran⟩ := op_of_exec env instr state outcome executed
  have branch : op = .branch .ae ∨ op = .branch .ge := by
    have all := Op.ofMnemonic_forall (fun mnemonic op => mnemonic ∈ ["jae", "jnb", "jge"] →
      op = .branch .ae ∨ op = .branch .ge) (by decide) _ _ known
    exact all named
  rcases branch with rfl | rfl
  · obtain ⟨_, rfl⟩ := exec_branch state .ae _ outcome ran
    simp [Condition.holds, carry] at through
  · obtain ⟨_, rfl⟩ := exec_branch state .ge _ outcome ran
    simp [Condition.holds, sign] at through

/-- The branch that continues a counted loop behind its comparison. -/
theorem branch_taken (env : Environment) (instr : LoweredInstr) (state : State) (outcome : Outcome)
    (executed : exec env instr state = some outcome)
    (named : lowerMnemonic instr ∈ loopBranchMnemonics) (taken : outcome.next ≠ .goOn) :
    ¬ NotBelow state.flags := by
  rintro ⟨carry, sign⟩
  obtain ⟨op, known, ran⟩ := op_of_exec env instr state outcome executed
  have branch : op = .branch .b ∨ op = .branch .l := by
    have all := Op.ofMnemonic_forall (fun mnemonic op => mnemonic ∈ loopBranchMnemonics →
      op = .branch .b ∨ op = .branch .l) (by decide) _ _ known
    exact all named
  rcases branch with rfl | rfl
  · obtain ⟨_, rfl⟩ := exec_branch state .b _ outcome ran
    simp [Condition.holds, carry] at taken
  · obtain ⟨_, rfl⟩ := exec_branch state .l _ outcome ran
    simp [Condition.holds, sign] at taken

end Semasm.Cli
