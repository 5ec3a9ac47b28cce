import Semasm.X86.Values

/-!
# What an instruction reads and writes through its operands

The explicit memory operands of an executed instruction, each with the direction
of its accesses. A destination that is computed from its old value is read and
written.
-/

namespace Semasm.X86

open Library Contract

/-- The operands an operation reads and writes. -/
def Op.touches : Op → List Operand → List (Operand × AccessMode)
  | .move, [dst, src] => [(src, .load), (dst, .store)]
  | .push, [src] => [(src, .load)]
  | .pop, [dst] => [(dst, .store)]
  | .movzx, [_, src] | .select _, [_, src] => [(src, .load)]
  | .alu _, [dst, src] => [(dst, .load), (src, .load), (dst, .store)]
  | .inc, [dst] | .dec, [dst] | .shl, dst :: _ | .shr, dst :: _ => [(dst, .load), (dst, .store)]
  | .cmp, [left, right] | .test, [left, right] => [(left, .load), (right, .load)]
  | .jump, [target] | .call, [target] => [(target, .load)]
  | _, _ => []

/-- A touched operand is one of the operands. -/
theorem Op.operand_of_touches (op : Op) (operands : List Operand) (operand : Operand)
    (mode : AccessMode) (touched : (operand, mode) ∈ op.touches operands) : operand ∈ operands := by
  unfold touches at touched
  split at touched <;> simp_all
  all_goals tauto

/-- The instruction reads or writes the memory operand. -/
def LoweredInstr.Touches (instr : LoweredInstr) (operand : MemOperand) : Prop :=
  ∃ op mode, instr.op = some op ∧ (Operand.mem operand, mode) ∈ op.touches instr.operands

/-- A memory operand that is read or written is one of the operands. -/
theorem LoweredInstr.Touches.listed {instr : LoweredInstr} {operand : MemOperand}
    (touches : instr.Touches operand) : Operand.mem operand ∈ instr.operands := by
  obtain ⟨op, mode, _, touched⟩ := touches
  exact op.operand_of_touches instr.operands _ mode touched

/-- The accesses made through an operand in one direction. -/
def Operand.Accesses (env : Environment) (regs : Gp → Word) (operand : Operand) (mode : AccessMode)
    (accesses : List Access) : Prop :=
  match operand with
  | .mem memory => ∃ address, memory.address env regs = some address ∧
      accesses = [⟨mode, address, memory.width⟩]
  | _ => accesses = []

/-- A list of accesses is made of those through the listed operands. -/
def Touched (env : Environment) (regs : Gp → Word) :
    List (Operand × AccessMode) → List Access → Prop
  | [], accesses => accesses = []
  | (operand, mode) :: rest, accesses =>
    ∃ first others, operand.Accesses env regs mode first ∧ Touched env regs rest others ∧
      accesses = first ++ others

/-- Reading an operand. -/
theorem Operand.read_accesses (env : Environment) (state : State) (width : Width)
    (operand : Operand) (value : Word) (loads : List Access)
    (read : operand.read env state width = some (value, loads)) :
    operand.Accesses env state.regs .load loads := by
  cases operand with
  | reg register => exact (Operand.read_reg _ _ _ _ _ _ read).2.2
  | imm immediate =>
    simp only [Operand.read] at read
    split_ifs at read
    cases read
    rfl
  | mem mem =>
    obtain ⟨address, located, width, _, rfl⟩ := Operand.read_mem _ _ _ _ _ _ read
    exact ⟨address, located, by rw [width]⟩

/-- Writing an operand. -/
theorem Operand.write_accesses (env : Environment) (state : State) (width : Width) (value : Word)
    (operand : Operand) (change : Write) (stores : List Access)
    (written : operand.write env state width value = some (change, stores)) :
    operand.Accesses env state.regs .store stores := by
  cases operand with
  | reg register => exact (Operand.write_reg _ _ _ _ _ _ _ written).2.1
  | imm immediate => simp [Operand.write] at written
  | mem mem =>
    obtain ⟨address, located, width, _, rfl⟩ := Operand.write_mem _ _ _ _ _ _ _ written
    exact ⟨address, located, by rw [width]⟩

/-- A single operand. -/
theorem touched_one (env : Environment) (regs : Gp → Word) (operand : Operand) (mode : AccessMode)
    (accesses : List Access) (made : operand.Accesses env regs mode accesses) :
    Touched env regs [(operand, mode)] accesses :=
  ⟨accesses, [], made, rfl, by simp⟩

/-- Two operands. -/
theorem touched_two (env : Environment) (regs : Gp → Word) (first second : Operand)
    (firstMode secondMode : AccessMode) (accesses others : List Access)
    (made : first.Accesses env regs firstMode accesses)
    (after : second.Accesses env regs secondMode others) :
    Touched env regs [(first, firstMode), (second, secondMode)] (accesses ++ others) :=
  ⟨accesses, others, made, touched_one env regs second secondMode others after, rfl⟩

/-- A jump or call target. -/
theorem touched_target (env : Environment) (state : State) (target : Operand)
    (reads : List Access) (read : readTarget env state target = some reads) :
    Touched env state.regs [(target, .load)] reads := by
  apply touched_one
  cases target with
  | imm value =>
    cases read
    rfl
  | reg register =>
    obtain ⟨found, known, rfl⟩ := Option.map_eq_some_iff.mp read
    exact Operand.read_accesses env state .b64 _ found.1 found.2 known
  | mem mem =>
    obtain ⟨found, known, rfl⟩ := Option.map_eq_some_iff.mp read
    exact Operand.read_accesses env state .b64 _ found.1 found.2 known

/-- A destination computed from its old value and nothing else in memory. -/
theorem modify_touched (env : Environment) (state : State) (dst : Operand)
    (compute : Width → Word → Option (Word × Flags × List Access)) (outcome : Outcome)
    (pure : ∀ width old value flags reads,
      compute width old = some (value, flags, reads) → reads = [])
    (modified : modify env state dst compute = some outcome) :
    Touched env state.regs [(dst, .load), (dst, .store)] outcome.accesses := by
  obtain ⟨width, old, loads, value, flags, reads, change, stores, _, read, computed, written, rfl⟩ :=
    modify_some env state dst compute outcome modified
  rw [pure width old value flags reads computed, List.append_nil]
  exact touched_two _ _ _ _ _ _ _ _ (Operand.read_accesses _ _ _ _ _ _ read)
    (Operand.write_accesses _ _ _ _ _ _ _ written)

theorem execShift_touched (env : Environment) (state : State) (shift : Word → Nat → Word)
    (dst : Operand) (count : List Operand) (outcome : Outcome)
    (executed : execShift env state shift (dst :: count) = some outcome) :
    Touched env state.regs [(dst, .load), (dst, .store)] outcome.accesses := by
  simp only [execShift] at executed
  refine modify_touched env state dst _ outcome ?_ executed
  intro width old value flags reads computed
  simp only [Option.bind_eq_bind, Option.bind_eq_some_iff] at computed
  obtain ⟨_, _, result⟩ := computed
  cases result
  rfl

theorem execCompare_touched (env : Environment) (state : State)
    (flags : Width → Word → Word → Flags) (operands : List Operand) (outcome : Outcome)
    (executed : execCompare env state flags operands = some outcome) :
    ∃ left right, operands = [left, right] ∧
      Touched env state.regs [(left, .load), (right, .load)] outcome.accesses := by
  obtain ⟨left, right, width, first, reads, second, others, shape, _, read, other, rfl⟩ :=
    exec_compare env state flags operands outcome executed
  exact ⟨left, right, shape, touched_two _ _ _ _ _ _ _ _ (Operand.read_accesses _ _ _ _ _ _ read)
    (Operand.read_accesses _ _ _ _ _ _ other)⟩

/-- The accesses of an executed operation are those through its operands. -/
theorem Op.exec_accesses (env : Environment) (state : State) (op : Op) (operands : List Operand)
    (outcome : Outcome) (executed : op.exec env state operands = some outcome) :
    Touched env (op.addressRegs state.regs operands) (op.touches operands) outcome.accesses := by
  cases op with
  | move =>
    obtain ⟨dst, src, width, value, reads, change, stores, rfl, _, read, written, rfl⟩ :=
      exec_move env state operands outcome executed
    exact touched_two _ _ _ _ _ _ _ _ (Operand.read_accesses _ _ _ _ _ _ read)
      (Operand.write_accesses _ _ _ _ _ _ _ written)
  | push =>
    simp only [exec, execPush] at executed
    split at executed
    next src =>
      simp only [Option.bind_eq_bind, Option.bind_eq_some_iff, Prod.exists] at executed
      obtain ⟨width, _, value, reads, read, result⟩ := executed
      cases result
      exact touched_one _ _ _ _ _ (Operand.read_accesses _ _ _ _ _ _ read)
    next => cases executed
  | pop =>
    simp only [exec, execPop] at executed
    split at executed
    next dst =>
      simp only [Option.bind_eq_bind, Option.bind_eq_some_iff, Prod.exists] at executed
      obtain ⟨width, ⟨fixed, named, wide⟩, change, stores, written, result⟩ := executed
      cases result
      have same : fixed = width := by
        unfold stackWidth at wide
        split at wide <;> cases wide
        rfl
      subst same
      apply touched_one
      have made := Operand.write_accesses _ _ _ _ _ _ _ written
      simpa only [Op.addressRegs, named, Option.getD_some, State.withRsp] using made
    next => cases executed
  | lea =>
    obtain ⟨dst, mem, address, cell, rfl, _, _, rfl⟩ := exec_lea env state operands outcome executed
    rfl
  | movzx =>
    simp only [exec, execMovzx] at executed
    split at executed
    next register src =>
      simp only [Option.bind_eq_bind, Option.bind_eq_some_iff, Prod.exists] at executed
      obtain ⟨width, _, value, reads, read, change, stores, _, result⟩ := executed
      split_ifs at result
      cases result
      exact touched_one _ _ _ _ _ (Operand.read_accesses _ _ _ _ _ _ read)
    next => cases executed
  | alu operation =>
    obtain ⟨dst, src, width, old, loads, value, reads, change, stores, rfl, _, left, right, written,
      rfl⟩ := exec_alu env state operation operands outcome executed
    exact ⟨loads, reads ++ stores, Operand.read_accesses _ _ _ _ _ _ left,
      touched_two _ _ _ _ _ _ _ _ (Operand.read_accesses _ _ _ _ _ _ right)
        (Operand.write_accesses _ _ _ _ _ _ _ written), by simp⟩
  | inc =>
    obtain ⟨dst, width, old, loads, change, stores, rfl, _, read, written, rfl⟩ :=
      exec_inc env state operands outcome executed
    exact touched_two _ _ _ _ _ _ _ _ (Operand.read_accesses _ _ _ _ _ _ read)
      (Operand.write_accesses _ _ _ _ _ _ _ written)
  | dec =>
    obtain ⟨dst, width, old, loads, change, stores, rfl, _, read, written, rfl⟩ :=
      exec_dec env state operands outcome executed
    exact touched_two _ _ _ _ _ _ _ _ (Operand.read_accesses _ _ _ _ _ _ read)
      (Operand.write_accesses _ _ _ _ _ _ _ written)
  | shl =>
    cases operands with
    | nil => simp [exec, execShift] at executed
    | cons dst count => exact execShift_touched env state _ dst count outcome executed
  | shr =>
    cases operands with
    | nil => simp [exec, execShift] at executed
    | cons dst count => exact execShift_touched env state _ dst count outcome executed
  | cmp =>
    obtain ⟨left, right, rfl, touched⟩ := execCompare_touched env state _ operands outcome executed
    exact touched
  | test =>
    simp only [exec] at executed
    obtain ⟨left, right, rfl, touched⟩ := execCompare_touched env state _ operands outcome executed
    exact touched
  | jump =>
    simp only [exec, execJump] at executed
    split at executed
    next target =>
      simp only [Option.bind_eq_bind, Option.bind_eq_some_iff] at executed
      obtain ⟨reads, read, result⟩ := executed
      cases result
      exact touched_target env state target reads read
    next => cases executed
  | branch condition =>
    obtain ⟨⟨target, rfl⟩, rfl⟩ := exec_branch state condition operands outcome executed
    rfl
  | call =>
    simp only [exec, execCall] at executed
    split at executed
    next target =>
      simp only [Option.bind_eq_bind, Option.bind_eq_some_iff] at executed
      obtain ⟨reads, read, result⟩ := executed
      cases result
      exact touched_target env state target reads read
    next => cases executed
  | ret =>
    simp only [exec, execRet] at executed
    split at executed
    · cases executed
      rfl
    · cases executed
      rfl
    · cases executed
  | syscall =>
    simp only [exec, execSyscall] at executed
    split at executed
    · cases executed
      rfl
    · cases executed
  | select condition =>
    simp only [exec, execSelect] at executed
    split at executed
    next register src =>
      simp only [Option.bind_eq_bind, Option.bind_eq_some_iff, Prod.exists] at executed
      obtain ⟨value, reads, read, old, _, change, stores, _, result⟩ := executed
      split_ifs at result
      cases result
      exact touched_one _ _ _ _ _ (Operand.read_accesses _ _ _ _ _ _ read)
    next => cases executed

/-- An access is made exactly where a touched memory operand points. -/
theorem mem_touched_iff (env : Environment) (regs : Gp → Word)
    (touches : List (Operand × AccessMode)) (accesses : List Access)
    (touched : Touched env regs touches accesses) (access : Access) :
    access ∈ accesses ↔ ∃ mem, (.mem mem, access.mode) ∈ touches ∧
      mem.address env regs = some access.address ∧ mem.width = access.width := by
  induction touches generalizing accesses with
  | nil =>
    cases touched
    simp
  | cons touch rest inductionHypothesis =>
    obtain ⟨operand, mode⟩ := touch
    obtain ⟨first, others, made, remaining, rfl⟩ := touched
    rw [List.mem_append, inductionHypothesis others remaining]
    have here : access ∈ first ↔ ∃ mem, operand = .mem mem ∧ access.mode = mode ∧
        mem.address env regs = some access.address ∧ mem.width = access.width := by
      cases operand with
      | mem mem =>
        obtain ⟨address, located, rfl⟩ := made
        obtain ⟨accessMode, accessAddress, accessWidth⟩ := access
        simp only [List.mem_singleton, Access.mk.injEq, Operand.mem.injEq]
        constructor
        · rintro ⟨rfl, rfl, rfl⟩
          exact ⟨mem, rfl, rfl, located, rfl⟩
        · rintro ⟨_, rfl, rfl, same, rfl⟩
          rw [located] at same
          cases same
          exact ⟨rfl, rfl, rfl⟩
      | reg register =>
        have none : first = [] := made
        simp [none]
      | imm value =>
        have none : first = [] := made
        simp [none]
    rw [here]
    constructor
    · rintro (⟨mem, rfl, rfl, located, width⟩ | ⟨mem, member, located, width⟩)
      · exact ⟨mem, by simp, located, width⟩
      · exact ⟨mem, by simp [member], located, width⟩
    · rintro ⟨mem, member, located, width⟩
      rcases List.mem_cons.mp member with same | later
      · cases same
        exact Or.inl ⟨mem, rfl, rfl, located, width⟩
      · exact Or.inr ⟨mem, later, located, width⟩

/-- A touched memory operand has an address. -/
theorem touched_address (env : Environment) (regs : Gp → Word)
    (touches : List (Operand × AccessMode)) (accesses : List Access)
    (touched : Touched env regs touches accesses) (mem : MemOperand) (mode : AccessMode)
    (member : (.mem mem, mode) ∈ touches) :
    ∃ address, mem.address env regs = some address ∧ ⟨mode, address, mem.width⟩ ∈ accesses := by
  induction touches generalizing accesses with
  | nil => cases member
  | cons touch rest inductionHypothesis =>
    obtain ⟨operand, first⟩ := touch
    obtain ⟨made, others, here, remaining, rfl⟩ := touched
    rcases List.mem_cons.mp member with same | later
    · cases same
      obtain ⟨address, located, rfl⟩ := here
      exact ⟨address, located, by simp⟩
    · obtain ⟨address, located, found⟩ := inductionHypothesis others remaining later
      exact ⟨address, located, by simp [found]⟩

/-- The memory operand of a shift is its destination. -/
theorem execShift_mem_touches (env : Environment) (state : State) (shift : Word → Nat → Word)
    (operands : List Operand) (outcome : Outcome)
    (executed : execShift env state shift operands = some outcome) (mem : MemOperand)
    (member : .mem mem ∈ operands) :
    (.mem mem, .load) ∈ Op.shl.touches operands ∧ (.mem mem, .load) ∈ Op.shr.touches operands := by
  cases operands with
  | nil => cases member
  | cons dst count =>
    simp only [execShift] at executed
    obtain ⟨_, _, _, _, _, _, _, _, _, _, computed, _⟩ :=
      modify_some env state dst _ outcome executed
    simp only [Option.bind_eq_bind, Option.bind_eq_some_iff] at computed
    obtain ⟨amount, counted, _⟩ := computed
    rcases List.mem_cons.mp member with same | later
    · simp [Op.touches, same]
    · unfold shiftCount at counted
      split at counted
      · cases later
      · simp at later
      · simp at later
      · cases counted

/-- Every memory operand of an executed operation is touched, unless it is the
source of `lea`. -/
theorem Op.mem_touches (env : Environment) (state : State) (op : Op) (operands : List Operand)
    (outcome : Outcome) (executed : op.exec env state operands = some outcome) (notLea : op ≠ .lea)
    (mem : MemOperand) (member : .mem mem ∈ operands) :
    ∃ mode, (.mem mem, mode) ∈ op.touches operands := by
  cases op with
  | lea => exact absurd rfl notLea
  | move =>
    obtain ⟨dst, src, _, _, _, _, _, rfl, _⟩ := exec_move env state operands outcome executed
    simp only [List.mem_cons, List.not_mem_nil, or_false] at member
    rcases member with same | same
    · exact ⟨.store, by simp [Op.touches, ← same]⟩
    · exact ⟨.load, by simp [Op.touches, ← same]⟩
  | alu operation =>
    obtain ⟨dst, src, _, _, _, _, _, _, _, rfl, _⟩ :=
      exec_alu env state operation operands outcome executed
    simp only [List.mem_cons, List.not_mem_nil, or_false] at member
    rcases member with same | same <;> exact ⟨.load, by simp [Op.touches, ← same]⟩
  | cmp =>
    simp only [exec] at executed
    obtain ⟨left, right, rfl, _⟩ := execCompare_touched env state _ operands outcome executed
    simp only [List.mem_cons, List.not_mem_nil, or_false] at member
    rcases member with same | same <;> exact ⟨.load, by simp [Op.touches, ← same]⟩
  | test =>
    simp only [exec] at executed
    obtain ⟨left, right, rfl, _⟩ := execCompare_touched env state _ operands outcome executed
    simp only [List.mem_cons, List.not_mem_nil, or_false] at member
    rcases member with same | same <;> exact ⟨.load, by simp [Op.touches, ← same]⟩
  | inc =>
    obtain ⟨dst, _, _, _, _, _, rfl, _⟩ := exec_inc env state operands outcome executed
    exact ⟨.load, by simp [Op.touches, List.mem_singleton.mp member]⟩
  | dec =>
    obtain ⟨dst, _, _, _, _, _, rfl, _⟩ := exec_dec env state operands outcome executed
    exact ⟨.load, by simp [Op.touches, List.mem_singleton.mp member]⟩
  | push =>
    simp only [exec, execPush] at executed
    split at executed
    · exact ⟨.load, by simp [Op.touches, List.mem_singleton.mp member]⟩
    · cases executed
  | pop =>
    simp only [exec, execPop] at executed
    split at executed
    · exact ⟨.store, by simp [Op.touches, List.mem_singleton.mp member]⟩
    · cases executed
  | movzx =>
    simp only [exec, execMovzx] at executed
    split at executed
    · exact ⟨.load, by simpa [Op.touches] using member⟩
    · cases executed
  | select condition =>
    simp only [exec, execSelect] at executed
    split at executed
    · exact ⟨.load, by simpa [Op.touches] using member⟩
    · cases executed
  | shl =>
    exact ⟨.load, execShift_mem_touches env state _ operands outcome executed mem member |>.1⟩
  | shr =>
    exact ⟨.load, execShift_mem_touches env state _ operands outcome executed mem member |>.2⟩
  | jump =>
    simp only [exec, execJump] at executed
    split at executed
    · exact ⟨.load, by simp [Op.touches, List.mem_singleton.mp member]⟩
    · cases executed
  | call =>
    simp only [exec, execCall] at executed
    split at executed
    · exact ⟨.load, by simp [Op.touches, List.mem_singleton.mp member]⟩
    · cases executed
  | branch condition =>
    obtain ⟨⟨target, rfl⟩, _⟩ := exec_branch state condition operands outcome executed
    simp at member
  | ret =>
    simp only [exec, execRet] at executed
    split at executed
    · simp at member
    · simp at member
    · cases executed
  | syscall =>
    simp only [exec, execSyscall] at executed
    split at executed
    · simp at member
    · cases executed

/-- An operation that computes its destination from the old value. -/
def Op.modifies : Op → Bool
  | .alu _ | .inc | .dec | .shl | .shr => true
  | _ => false

/-- A modified destination in memory is read. -/
theorem Op.modified_loads (op : Op) (operands : List Operand) (mem : MemOperand) (rest : List Operand)
    (modifies : op.modifies = true) (shape : operands = .mem mem :: rest) (env : Environment)
    (state : State) (outcome : Outcome) (executed : op.exec env state operands = some outcome) :
    (.mem mem, .load) ∈ op.touches operands := by
  subst shape
  cases op with
  | alu operation =>
    obtain ⟨_, _, _, _, _, _, _, _, _, shape, _⟩ := exec_alu env state operation _ outcome executed
    cases shape
    simp [Op.touches]
  | inc =>
    obtain ⟨_, _, _, _, _, _, shape, _⟩ := exec_inc env state _ outcome executed
    cases shape
    simp [Op.touches]
  | dec =>
    obtain ⟨_, _, _, _, _, _, shape, _⟩ := exec_dec env state _ outcome executed
    cases shape
    simp [Op.touches]
  | shl => simp [Op.touches]
  | shr => simp [Op.touches]
  | _ => cases modifies

end Semasm.X86
