import Semasm.X86.Frame

/-!
# What single operations compute

Inversion lemmas: the form the operands must have for an operation to execute,
and the value it leaves in its destination or in the flags.
-/

namespace Semasm.X86

open Library Contract

@[simp] theorem Width.trunc_b64 (value : Word) : Width.b64.trunc value = value := rfl

theorem Width.trunc_b32_toNat (value : Word) :
    (Width.b32.trunc value).toNat = value.toNat % 2 ^ 32 := by
  simp only [Width.trunc, BitVec.toNat_setWidth]
  omega

/-- A full view shows its cell. -/
theorem Register.value_full (regs : Gp → Word) (register : Register) (cell : Gp)
    (storage : register.storage = .gp cell) (wide : register.width = .b64) :
    register.value regs = some (regs cell) := by
  simp [Register.value, storage, wide]

/-- A 32-bit view shows the low half of its cell. -/
theorem Register.value_half (regs : Gp → Word) (register : Register) (cell : Gp)
    (storage : register.storage = .gp cell) (half : register.width = .b32) :
    register.value regs = some (Width.b32.trunc (regs cell)) := by
  simp [Register.value, storage, half]

/-- A write of 32 or 64 bits replaces the whole cell. -/
theorem Register.merge_wide (register : Register) (old value : Word)
    (wide : register.width = .b64 ∨ register.width = .b32) :
    register.merge old value = register.width.trunc value := by
  rcases wide with width | width <;> simp [Register.merge, width]

/-- The state after a single register write. -/
theorem result_reg (accesses : List Access) (register : Register) (value : Word) (flags : Flags)
    (next : Next) (state : State) (cell : Gp) (storage : register.storage = .gp cell) :
    ((Outcome.mk accesses [.reg register value] flags next).result state).regs cell =
      register.merge (state.regs cell) value := by
  simp only [Outcome.result, List.foldl_cons, List.foldl_nil, State.apply]
  exact writeRegister_same _ _ _ _ storage

/-- A move has two operands of one width. -/
theorem exec_move (env : Environment) (state : State) (operands : List Operand) (outcome : Outcome)
    (executed : execMove env state operands = some outcome) :
    ∃ dst src width value reads change stores, operands = [dst, src] ∧ dst.width? = some width ∧
      src.read env state width = some (value, reads) ∧
      dst.write env state width value = some (change, stores) ∧
      outcome = ⟨reads ++ stores, [change], state.flags, .goOn⟩ := by
  unfold execMove at executed
  split at executed
  next dst src =>
    simp only [Option.bind_eq_bind, Option.bind_eq_some_iff, Prod.exists] at executed
    obtain ⟨width, fixed, value, reads, read, change, stores, written, result⟩ := executed
    exact ⟨dst, src, width, value, reads, change, stores, rfl, fixed, read, written,
      (Option.some.inj result).symm⟩
  next => cases executed

/-- A move into a register. -/
theorem exec_move_reg (env : Environment) (state : State) (dst : Register) (rest : List Operand)
    (outcome : Outcome) (executed : execMove env state (.reg dst :: rest) = some outcome) :
    ∃ src value reads cell, rest = [src] ∧ dst.storage = .gp cell ∧
      src.read env state dst.width = some (value, reads) ∧
      outcome = ⟨reads, [.reg dst value], state.flags, .goOn⟩ := by
  obtain ⟨_, src, width, value, reads, change, stores, shape, fixed, read, written, result⟩ :=
    exec_move env state _ outcome executed
  cases shape
  obtain ⟨rfl, rfl, same, cell, storage⟩ := Operand.write_reg _ _ _ _ _ _ _ written
  subst same
  exact ⟨src, value, reads, cell, rfl, storage, read, by simpa using result⟩

/-- A move into memory. -/
theorem exec_move_mem (env : Environment) (state : State) (dst : MemOperand) (rest : List Operand)
    (outcome : Outcome) (executed : execMove env state (.mem dst :: rest) = some outcome) :
    ∃ src value reads address, rest = [src] ∧ dst.address env state.regs = some address ∧
      src.read env state dst.width = some (value, reads) ∧
      outcome = ⟨reads ++ [⟨.store, address, dst.width⟩], [.mem address dst.width value],
        state.flags, .goOn⟩ := by
  obtain ⟨_, src, width, value, reads, change, stores, shape, fixed, read, written, result⟩ :=
    exec_move env state _ outcome executed
  cases shape
  obtain ⟨address, known, same, rfl, rfl⟩ := Operand.write_mem _ _ _ _ _ _ _ written
  subst same
  exact ⟨src, value, reads, address, rfl, known, read, result⟩

/-- `lea` leaves the address in its register. -/
theorem exec_lea (env : Environment) (state : State) (operands : List Operand) (outcome : Outcome)
    (executed : execLea env state operands = some outcome) :
    ∃ dst mem address cell, operands = [.reg dst, .mem mem] ∧ dst.storage = .gp cell ∧
      mem.address env state.regs = some address ∧
      outcome = ⟨[], [.reg dst (dst.width.trunc address)], state.flags, .goOn⟩ := by
  unfold execLea at executed
  split at executed
  next dst mem =>
    simp only [Option.bind_eq_bind, Option.bind_eq_some_iff, Prod.exists] at executed
    obtain ⟨address, known, change, stores, written, result⟩ := executed
    obtain ⟨rfl, _, _, cell, storage⟩ := Operand.write_reg _ _ _ _ _ _ _ written
    split_ifs at result
    cases result
    exact ⟨dst, mem, address, cell, rfl, storage, known, rfl⟩
  next => cases executed

/-- Arithmetic has two operands and keeps the width of the first. -/
theorem exec_alu (env : Environment) (state : State) (operation : Alu) (operands : List Operand)
    (outcome : Outcome) (executed : execAlu env state operation operands = some outcome) :
    ∃ dst src width old loads value reads change stores, operands = [dst, src] ∧
      dst.width? = some width ∧ dst.read env state width = some (old, loads) ∧
      src.read env state width = some (value, reads) ∧
      dst.write env state width (width.trunc (operation.apply old value)) = some (change, stores) ∧
      outcome = ⟨loads ++ reads ++ stores, [change], operation.flags width old value, .goOn⟩ := by
  unfold execAlu at executed
  split at executed
  next dst src =>
    obtain ⟨width, old, loads, value, flags, reads, change, stores, fixed, read, computed, written,
      rfl⟩ := modify_some env state dst _ outcome executed
    simp only [Option.bind_eq_bind, Option.bind_eq_some_iff, Prod.exists] at computed
    obtain ⟨second, others, other, result⟩ := computed
    cases result
    exact ⟨dst, src, width, old, loads, second, reads, change, stores, rfl, fixed, read, other,
      written, rfl⟩
  next => cases executed

/-- A decrement. -/
theorem exec_dec (env : Environment) (state : State) (operands : List Operand) (outcome : Outcome)
    (executed : execDec env state operands = some outcome) :
    ∃ dst width old loads change stores, operands = [dst] ∧ dst.width? = some width ∧
      dst.read env state width = some (old, loads) ∧
      dst.write env state width (width.trunc (old - 1)) = some (change, stores) ∧
      outcome = ⟨loads ++ stores, [change],
        { subFlags width old 1 with carry := state.flags.carry }, .goOn⟩ := by
  unfold execDec at executed
  split at executed
  next dst =>
    obtain ⟨width, old, loads, value, flags, reads, change, stores, fixed, read, computed, written,
      rfl⟩ := modify_some env state dst _ outcome executed
    cases computed
    exact ⟨dst, width, old, loads, change, stores, rfl, fixed, read, written, by simp⟩
  next => cases executed

/-- An increment. -/
theorem exec_inc (env : Environment) (state : State) (operands : List Operand) (outcome : Outcome)
    (executed : execInc env state operands = some outcome) :
    ∃ dst width old loads change stores, operands = [dst] ∧ dst.width? = some width ∧
      dst.read env state width = some (old, loads) ∧
      dst.write env state width (width.trunc (old + 1)) = some (change, stores) ∧
      outcome = ⟨loads ++ stores, [change],
        { addFlags width old 1 with carry := state.flags.carry }, .goOn⟩ := by
  unfold execInc at executed
  split at executed
  next dst =>
    obtain ⟨width, old, loads, value, flags, reads, change, stores, fixed, read, computed, written,
      rfl⟩ := modify_some env state dst _ outcome executed
    cases computed
    exact ⟨dst, width, old, loads, change, stores, rfl, fixed, read, written, by simp⟩
  next => cases executed

/-- A comparison leaves flags and nothing else. -/
theorem exec_compare (env : Environment) (state : State) (flags : Width → Word → Word → Flags)
    (operands : List Operand) (outcome : Outcome)
    (executed : execCompare env state flags operands = some outcome) :
    ∃ left right width first reads second others, operands = [left, right] ∧
      left.width? = some width ∧ left.read env state width = some (first, reads) ∧
      right.read env state width = some (second, others) ∧
      outcome = ⟨reads ++ others, [], flags width first second, .goOn⟩ := by
  unfold execCompare at executed
  split at executed
  next left right =>
    simp only [Option.bind_eq_bind, Option.bind_eq_some_iff, Prod.exists] at executed
    obtain ⟨width, fixed, first, reads, read, second, others, other, result⟩ := executed
    exact ⟨left, right, width, first, reads, second, others, rfl, fixed, read, other,
      (Option.some.inj result).symm⟩
  next => cases executed

/-- A conditional branch falls through when its condition is false. -/
theorem exec_branch (state : State) (condition : Condition) (operands : List Operand)
    (outcome : Outcome) (executed : execBranch state condition operands = some outcome) :
    (∃ target, operands = [.imm target]) ∧
      outcome = ⟨[], [], state.flags, if condition.holds state.flags then .jump else .goOn⟩ := by
  unfold execBranch at executed
  split at executed
  next target => exact ⟨⟨target, rfl⟩, (Option.some.inj executed).symm⟩
  next => cases executed

/-- The operations that may leave other flags. -/
def Op.setsFlags : Op → Bool
  | .alu _ | .inc | .dec | .shl | .shr | .cmp | .test | .call => true
  | _ => false

/-- The other operations leave the flags alone. -/
theorem Op.exec_flags (env : Environment) (state : State) (op : Op) (operands : List Operand)
    (outcome : Outcome) (executed : op.exec env state operands = some outcome)
    (silent : op.setsFlags = false) : (outcome.result state).flags = state.flags := by
  cases op with
  | alu operation => cases silent
  | inc => cases silent
  | dec => cases silent
  | shl => cases silent
  | shr => cases silent
  | cmp => cases silent
  | test => cases silent
  | call => cases silent
  | move =>
    obtain ⟨_, _, _, _, _, _, _, _, _, _, _, rfl⟩ := exec_move env state operands outcome executed
    rfl
  | lea =>
    obtain ⟨_, _, _, _, _, _, _, rfl⟩ := exec_lea env state operands outcome executed
    rfl
  | branch condition =>
    obtain ⟨_, rfl⟩ := exec_branch state condition operands outcome executed
    rfl
  | push =>
    simp only [exec, execPush] at executed
    split at executed
    · simp only [Option.bind_eq_bind, Option.bind_eq_some_iff, Prod.exists] at executed
      obtain ⟨_, _, _, _, _, result⟩ := executed
      cases result
      rfl
    · cases executed
  | pop =>
    simp only [exec, execPop] at executed
    split at executed
    · simp only [Option.bind_eq_bind, Option.bind_eq_some_iff, Prod.exists] at executed
      obtain ⟨_, _, _, _, _, result⟩ := executed
      cases result
      rfl
    · cases executed
  | movzx =>
    simp only [exec, execMovzx] at executed
    split at executed
    · simp only [Option.bind_eq_bind, Option.bind_eq_some_iff, Prod.exists] at executed
      obtain ⟨_, _, _, _, _, _, _, _, result⟩ := executed
      split_ifs at result
      cases result
      rfl
    · cases executed
  | jump =>
    simp only [exec, execJump] at executed
    split at executed
    · simp only [Option.bind_eq_bind, Option.bind_eq_some_iff] at executed
      obtain ⟨_, _, result⟩ := executed
      cases result
      rfl
    · cases executed
  | ret =>
    simp only [exec, execRet] at executed
    split at executed
    · cases executed
      rfl
    · cases executed
      rfl
    · cases executed
  | syscall =>
    simp only [exec, execSyscall] at executed
    split at executed
    · cases executed
      rfl
    · cases executed
  | select condition =>
    simp only [exec, execSelect] at executed
    split at executed
    · simp only [Option.bind_eq_bind, Option.bind_eq_some_iff, Prod.exists] at executed
      obtain ⟨_, _, _, _, _, _, _, _, result⟩ := executed
      split_ifs at result
      cases result
      rfl
    · cases executed

end Semasm.X86
