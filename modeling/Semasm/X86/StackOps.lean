import Semasm.X86.StraightLine

/-!
# Stack operations

What `push` and `pop` do to the stack pointer, to the word at the top of the stack
and to the register they name, and what adjustments of the stack pointer do to it.
-/

namespace Semasm.X86

open Library

/-- Loading depends on the loaded bytes only. -/
theorem load_congr (mem other : Word → BitVec 8) (address : Word) (width : Width)
    (same : ∀ byte, ByteMemory.Within address width.bytes byte → other byte = mem byte) :
    load other address width = load mem address width := by
  unfold load
  rw [ByteMemory.readBytes_congr other mem address width.bytes _ same]
  cases width <;> simp [Width.bytes, Width.bits]

/-- A stored word is loaded again. -/
theorem load_store (mem : Word → BitVec 8) (address value : Word) :
    load (store mem address .b64 value) address .b64 = value := by
  have count : Width.b64.bytes = (ByteMemory.encode Width.b64.bytes value.toNat).length :=
    (ByteMemory.encode_length _ _).symm
  have small : value.toNat < 256 ^ Width.b64.bytes := value.isLt
  unfold load store
  nth_rewrite 2 [count]
  rw [ByteMemory.readBytes_written _ _ _ (by rw [ByteMemory.encode_length]; decide),
    ByteMemory.decode_encode _ _ small]
  exact BitVec.ofNat_toNat 64 value |>.trans (BitVec.setWidth_eq value)

/-- `push` writes the word below the stack pointer and moves the stack pointer there. -/
theorem exec_push (env : Environment) (state : State) (operands : List Operand)
    (outcome : Outcome) (executed : execPush env state operands = some outcome) :
    ∃ src width value reads, operands = [src] ∧
      stackWidth (src.width?.getD .b64) = some width ∧
      src.read env state width = some (value, reads) ∧
      outcome = ⟨reads, [.reg Gp.rsp.full (state.regs .rsp - BitVec.ofNat 64 width.bytes),
        .mem (state.regs .rsp - BitVec.ofNat 64 width.bytes) width value], state.flags, .goOn⟩ := by
  unfold execPush at executed
  split at executed
  next src =>
    simp only [Option.bind_eq_bind, Option.bind_eq_some_iff, Prod.exists] at executed
    obtain ⟨width, fixed, value, reads, read, result⟩ := executed
    exact ⟨src, width, value, reads, rfl, fixed, read, (Option.some.inj result).symm⟩
  next => cases executed

/-- `pop` moves the stack pointer and writes the word that was on top. -/
theorem exec_pop (env : Environment) (state : State) (operands : List Operand)
    (outcome : Outcome) (executed : execPop env state operands = some outcome) :
    ∃ dst width change stores, operands = [dst] ∧ dst.width?.bind stackWidth = some width ∧
      dst.write env (state.withRsp (state.regs .rsp + BitVec.ofNat 64 width.bytes)) width
        (load state.mem (state.regs .rsp) width) = some (change, stores) ∧
      outcome = ⟨stores, [.reg Gp.rsp.full (state.regs .rsp + BitVec.ofNat 64 width.bytes), change],
        state.flags, .goOn⟩ := by
  unfold execPop at executed
  split at executed
  next dst =>
    simp only [Option.bind_eq_bind, Option.bind_eq_some_iff, Prod.exists] at executed
    obtain ⟨width, fixed, change, stores, written, result⟩ := executed
    exact ⟨dst, width, change, stores, rfl, Option.bind_eq_some_iff.mpr fixed, written,
      (Option.some.inj result).symm⟩
  next => cases executed

/-- The stack pointer after a 64-bit `push`. -/
theorem push_rsp (env : Environment) (state : State) (src : Operand) (outcome : Outcome)
    (executed : execPush env state [src] = some outcome) (wide : src.width?.getD .b64 = .b64) :
    (outcome.result state).regs .rsp = state.regs .rsp - 8 := by
  obtain ⟨_, width, value, reads, shape, fixed, read, rfl⟩ := exec_push env state _ _ executed
  cases shape
  rw [wide] at fixed
  cases fixed
  exact writeRegister_same state.regs Gp.rsp.full _ .rsp rfl

/-- The word that a `push` of a whole register leaves on top of the stack. -/
theorem push_word (env : Environment) (state : State) (register : Register) (cell : Gp)
    (outcome : Outcome) (executed : execPush env state [.reg register] = some outcome)
    (storage : register.storage = .gp cell) (wide : register.width = .b64) :
    load (outcome.result state).mem (state.regs .rsp - 8) .b64 = state.regs cell := by
  obtain ⟨_, width, value, reads, shape, fixed, read, rfl⟩ := exec_push env state _ _ executed
  cases shape
  simp only [Operand.width?, Option.getD_some, wide] at fixed
  cases fixed
  obtain ⟨seen, _, _⟩ := Operand.read_reg _ _ _ _ _ _ read
  rw [Register.value_full _ _ cell storage wide] at seen
  cases seen
  exact load_store state.mem _ _

/-- The stack pointer after a 64-bit `pop` elsewhere. -/
theorem pop_rsp (env : Environment) (state : State) (dst : Operand) (outcome : Outcome)
    (executed : execPop env state [dst] = some outcome) (wide : dst.width? = some .b64)
    (other : dst.views .rsp = false) :
    (outcome.result state).regs .rsp = state.regs .rsp + 8 := by
  obtain ⟨_, width, change, stores, shape, fixed, written, rfl⟩ := exec_pop env state _ _ executed
  cases shape
  rw [wide] at fixed
  cases fixed
  have moved : (state.apply (.reg Gp.rsp.full (state.regs .rsp + 8))).regs .rsp
      = state.regs .rsp + 8 := writeRegister_same state.regs Gp.rsp.full _ .rsp rfl
  cases dst with
  | reg register =>
    obtain ⟨rfl, _, _, _⟩ := Operand.write_reg _ _ _ _ _ _ _ written
    have storage : register.storage ≠ .gp .rsp := by simpa [Operand.views] using other
    exact (writeRegister_other _ register _ .rsp storage).trans moved
  | mem operand =>
    obtain ⟨address, _, _, rfl, _⟩ := Operand.write_mem _ _ _ _ _ _ _ written
    exact moved
  | imm value => simp [Operand.write] at written

/-- A whole register that is popped holds the word that was on top of the stack. -/
theorem pop_word (env : Environment) (state : State) (register : Register) (cell : Gp)
    (outcome : Outcome) (executed : execPop env state [.reg register] = some outcome)
    (storage : register.storage = .gp cell) (wide : register.width = .b64) :
    (outcome.result state).regs cell = load state.mem (state.regs .rsp) .b64 := by
  obtain ⟨_, width, change, stores, shape, fixed, written, rfl⟩ := exec_pop env state _ _ executed
  cases shape
  simp only [Operand.width?, wide] at fixed
  cases fixed
  obtain ⟨rfl, _, _, _⟩ := Operand.write_reg _ _ _ _ _ _ _ written
  refine (writeRegister_same _ register _ cell storage).trans ?_
  simp [Register.merge, wide]

/-- An immediate that is added to the stack pointer or taken from it. -/
theorem adjust_rsp (env : Environment) (state : State) (operation : Alu) (count : Int64)
    (outcome : Outcome)
    (executed : execAlu env state operation [.reg Gp.rsp.full, .imm count] = some outcome) :
    (outcome.result state).regs .rsp =
      operation.apply (state.regs .rsp) (BitVec.ofInt 64 count.toInt) := by
  obtain ⟨dst, src, width, old, loads, value, reads, change, stores, shape, fixed, read, other,
    written, rfl⟩ := exec_alu env state operation _ _ executed
  cases shape
  cases fixed
  obtain ⟨seen, _, _⟩ := Operand.read_reg _ _ _ _ _ _ read
  rw [Register.value_full _ _ .rsp rfl rfl] at seen
  cases seen
  simp only [Operand.read] at other
  split_ifs at other
  cases other
  obtain ⟨rfl, _, _, _⟩ := Operand.write_reg _ _ _ _ _ _ _ written
  exact result_reg _ _ _ _ _ _ .rsp rfl

/-- A copy of a whole register. -/
theorem copy_word (env : Environment) (state : State) (target source : Gp) (outcome : Outcome)
    (executed : execMove env state [.reg target.full, .reg source.full] = some outcome) :
    (outcome.result state).regs target = state.regs source := by
  obtain ⟨_, value, reads, cell, shape, storage, read, rfl⟩ :=
    exec_move_reg env state _ _ _ executed
  cases shape
  obtain ⟨seen, _, _⟩ := Operand.read_reg _ _ _ _ _ _ read
  rw [Register.value_full _ _ source rfl rfl] at seen
  cases seen
  exact result_reg _ _ _ _ _ _ target rfl

end Semasm.X86
