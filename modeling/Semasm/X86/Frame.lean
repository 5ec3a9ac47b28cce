import Semasm.X86.Machine

/-!
# What an instruction leaves alone

Every change an instruction makes goes to its explicit destination operand, to
the stack pointer or the top of the stack, or comes from a callee or the kernel.
Registers and bytes outside these keep their value.
-/

namespace Semasm.X86

open Library Contract

/-- The operand an operation writes. -/
def Op.destination : Op → List Operand → Option Operand
  | .move, dst :: _ | .pop, dst :: _ | .lea, dst :: _ | .movzx, dst :: _ | .alu _, dst :: _
  | .inc, dst :: _ | .dec, dst :: _ | .shl, dst :: _ | .shr, dst :: _ | .select _, dst :: _ =>
    some dst
  | _, _ => none

/-- The registers that the address of the explicit memory operand is computed
from: `pop` moves the stack pointer first. -/
def Op.addressRegs (regs : Gp → Word) : Op → List Operand → Gp → Word
  | .pop, [dst] =>
    Function.update regs .rsp
      (regs .rsp + BitVec.ofNat 64 ((dst.width?.getD .b64).bytes))
  | _, _ => regs

/-- Only `pop` moves a register, the stack pointer, before it addresses memory. -/
theorem Op.addressRegs_kept (regs : Gp → Word) (op : Op) (operands : List Operand) (cell : Gp)
    (kept : cell ≠ .rsp ∨ op ≠ .pop) : op.addressRegs regs operands cell = regs cell := by
  unfold Op.addressRegs
  split
  · rcases kept with other | other
    · exact Function.update_of_ne other _ _
    · exact absurd rfl other
  · rfl

theorem Op.addressRegs_of_ne_pop (regs : Gp → Word) (op : Op) (operands : List Operand)
    (notPop : op ≠ .pop) : op.addressRegs regs operands = regs :=
  funext (fun cell => op.addressRegs_kept regs operands cell (Or.inr notPop))

/-- Where a change of an operation can come from. -/
inductive Op.Writes (env : Environment) (state : State) (op : Op) (operands : List Operand)
    (accesses : List Access) : Write → Prop
  | destination (dst : Operand) (width : Width) (value : Word) (change : Write)
      (stores : List Access) (named : op.destination operands = some dst)
      (written : dst.write env { state with regs := op.addressRegs state.regs operands } width value
        = some (change, stores))
      (listed : ∀ access ∈ stores, access ∈ accesses) : Op.Writes env state op operands accesses change
  | stackPointer (value : Word) (stack : op = .push ∨ op = .pop) :
      Op.Writes env state op operands accesses (.reg Gp.rsp.full value)
  | pushed (width : Width) (value : Word) (push : op = .push)
      (wide : width = .b64 ∨ width = .b16) :
      Op.Writes env state op operands accesses
        (.mem (state.regs .rsp - BitVec.ofNat 64 width.bytes) width value)
  | returned (regs : Gp → Word) (mem : Word → BitVec 8)
      (outside : op = .call ∨ op = .syscall)
      (kept : op = .syscall → ∀ cell, cell ≠ .rax → cell ≠ .rcx → cell ≠ .r11 →
        regs cell = state.regs cell) :
      Op.Writes env state op operands accesses (.replace regs mem)

/-- Writing a register operand. -/
theorem Operand.write_reg (env : Environment) (state : State) (width : Width) (value : Word)
    (register : Register) (change : Write) (stores : List Access)
    (written : (Operand.reg register).write env state width value = some (change, stores)) :
    change = .reg register value ∧ stores = [] ∧ register.width = width ∧
      ∃ cell, register.storage = .gp cell := by
  unfold Operand.write at written
  cases storage : register.storage with
  | gp cell =>
    simp only [storage] at written
    split_ifs at written with same
    cases written
    exact ⟨rfl, rfl, same, cell, rfl⟩
  | rip => simp [storage] at written
  | rflags => simp [storage] at written
  | seg index => simp [storage] at written
  | xmm index => simp [storage] at written

/-- Writing a memory operand. -/
theorem Operand.write_mem (env : Environment) (state : State) (width : Width) (value : Word)
    (operand : MemOperand) (change : Write) (stores : List Access)
    (written : (Operand.mem operand).write env state width value = some (change, stores)) :
    ∃ address, operand.address env state.regs = some address ∧ operand.width = width ∧
      change = .mem address width value ∧ stores = [⟨.store, address, width⟩] := by
  simp only [Operand.write] at written
  split_ifs at written with same
  obtain ⟨address, found, result⟩ := Option.map_eq_some_iff.mp written
  cases result
  exact ⟨address, found, same, rfl, rfl⟩

/-- Reading a memory operand. -/
theorem Operand.read_mem (env : Environment) (state : State) (width : Width)
    (operand : MemOperand) (value : Word) (loads : List Access)
    (found : (Operand.mem operand).read env state width = some (value, loads)) :
    ∃ address, operand.address env state.regs = some address ∧ operand.width = width ∧
      value = load state.mem address width ∧ loads = [⟨.load, address, width⟩] := by
  simp only [Operand.read] at found
  split_ifs at found with same
  obtain ⟨address, known, result⟩ := Option.map_eq_some_iff.mp found
  cases result
  exact ⟨address, known, same, rfl, rfl⟩

/-- Reading a register operand. -/
theorem Operand.read_reg (env : Environment) (state : State) (width : Width)
    (register : Register) (value : Word) (loads : List Access)
    (found : (Operand.reg register).read env state width = some (value, loads)) :
    register.value state.regs = some value ∧ register.width = width ∧ loads = [] := by
  simp only [Operand.read] at found
  split_ifs at found with same
  obtain ⟨seen, known, result⟩ := Option.map_eq_some_iff.mp found
  cases result
  exact ⟨known, same, rfl⟩

/-- A destination computed from its old value. -/
theorem modify_some (env : Environment) (state : State) (dst : Operand)
    (compute : Width → Word → Option (Word × Flags × List Access)) (outcome : Outcome)
    (modified : modify env state dst compute = some outcome) :
    ∃ width old loads value flags reads change stores, dst.width? = some width ∧
      dst.read env state width = some (old, loads) ∧
      compute width old = some (value, flags, reads) ∧
      dst.write env state width value = some (change, stores) ∧
      outcome = ⟨loads ++ reads ++ stores, [change], flags, .goOn⟩ := by
  simp only [modify, Option.bind_eq_bind, Option.bind_eq_some_iff, Prod.exists] at modified
  obtain ⟨width, fixed, old, loads, read, value, flags, reads, computed, change, stores, written,
    result⟩ := modified
  exact ⟨width, old, loads, value, flags, reads, change, stores, fixed, read, computed, written,
    (Option.some.inj result).symm⟩

/-- The changes of an operation that computes its destination from the old value. -/
theorem modify_writes (env : Environment) (state : State) (op : Op) (dst : Operand)
    (rest : List Operand) (compute : Width → Word → Option (Word × Flags × List Access))
    (outcome : Outcome) (named : op.destination (dst :: rest) = some dst)
    (regs : op.addressRegs state.regs (dst :: rest) = state.regs)
    (modified : modify env state dst compute = some outcome) :
    ∀ change ∈ outcome.writes,
      op.Writes env state (dst :: rest) outcome.accesses change := by
  obtain ⟨width, old, loads, value, flags, reads, change, stores, _, _, _, written, rfl⟩ :=
    modify_some env state dst compute outcome modified
  intro other member
  obtain rfl := List.mem_singleton.mp member
  refine .destination dst width value other stores named ?_ ?_
  · rw [regs]
    exact written
  · intro access listed
    simp [listed]

/-- The single change of an operation with an explicit destination. -/
theorem writes_destination (env : Environment) (state : State) (op : Op) (dst : Operand)
    (rest : List Operand) (width : Width) (value : Word) (change : Write) (accesses stores : List Access)
    (named : op.destination (dst :: rest) = some dst)
    (regs : op.addressRegs state.regs (dst :: rest) = state.regs)
    (written : dst.write env state width value = some (change, stores))
    (listed : ∀ access ∈ stores, access ∈ accesses) :
    ∀ other ∈ [change], op.Writes env state (dst :: rest) accesses other := by
  intro other member
  obtain rfl := List.mem_singleton.mp member
  refine .destination dst width value other stores named ?_ listed
  rw [regs]
  exact written

theorem execMove_writes (env : Environment) (state : State) (operands : List Operand)
    (outcome : Outcome) (executed : execMove env state operands = some outcome) :
    ∀ change ∈ outcome.writes, Op.move.Writes env state operands outcome.accesses change := by
  unfold execMove at executed
  split at executed
  · simp only [Option.bind_eq_bind, Option.bind_eq_some_iff, Prod.exists] at executed
    obtain ⟨width, _, value, reads, _, change, stores, written, result⟩ := executed
    cases result
    exact writes_destination env state .move _ _ width value change _ stores rfl rfl written
      (by simp +contextual)
  · cases executed

theorem execPush_writes (env : Environment) (state : State) (operands : List Operand)
    (outcome : Outcome) (executed : execPush env state operands = some outcome) :
    ∀ change ∈ outcome.writes, Op.push.Writes env state operands outcome.accesses change := by
  unfold execPush at executed
  split at executed
  · simp only [Option.bind_eq_bind, Option.bind_eq_some_iff, Prod.exists] at executed
    obtain ⟨width, wide, value, reads, _, result⟩ := executed
    cases result
    intro other member
    simp only [List.mem_cons, List.not_mem_nil, or_false] at member
    rcases member with rfl | rfl
    · exact .stackPointer _ (Or.inl rfl)
    · refine .pushed width value rfl ?_
      unfold stackWidth at wide
      split at wide
      · rename_i stack
        cases wide
        exact stack
      · cases wide
  · cases executed

theorem execPop_writes (env : Environment) (state : State) (operands : List Operand)
    (outcome : Outcome) (executed : execPop env state operands = some outcome) :
    ∀ change ∈ outcome.writes, Op.pop.Writes env state operands outcome.accesses change := by
  unfold execPop at executed
  split at executed
  · rename_i dst
    simp only [Option.bind_eq_bind, Option.bind_eq_some_iff, Prod.exists] at executed
    obtain ⟨width, ⟨fixed, named, wide⟩, change, stores, written, result⟩ := executed
    cases result
    have same : fixed = width := by
      unfold stackWidth at wide
      split at wide <;> cases wide
      rfl
    subst same
    intro other member
    simp only [List.mem_cons, List.not_mem_nil, or_false] at member
    rcases member with rfl | rfl
    · exact .stackPointer _ (Or.inr rfl)
    · refine .destination dst fixed (load state.mem (state.regs .rsp) fixed) other stores rfl ?_
        (by simp)
      simpa only [Op.addressRegs, named, Option.getD_some, State.withRsp] using written
  · cases executed

theorem execLea_writes (env : Environment) (state : State) (operands : List Operand)
    (outcome : Outcome) (executed : execLea env state operands = some outcome) :
    ∀ change ∈ outcome.writes, Op.lea.Writes env state operands outcome.accesses change := by
  unfold execLea at executed
  split at executed
  · simp only [Option.bind_eq_bind, Option.bind_eq_some_iff, Prod.exists] at executed
    obtain ⟨address, _, change, stores, written, result⟩ := executed
    obtain ⟨_, rfl, _⟩ := Operand.write_reg _ _ _ _ _ _ _ written
    split_ifs at result
    cases result
    exact writes_destination env state .lea _ _ _ _ change _ [] rfl rfl written (by simp)
  · cases executed

theorem execMovzx_writes (env : Environment) (state : State) (operands : List Operand)
    (outcome : Outcome) (executed : execMovzx env state operands = some outcome) :
    ∀ change ∈ outcome.writes, Op.movzx.Writes env state operands outcome.accesses change := by
  unfold execMovzx at executed
  split at executed
  · simp only [Option.bind_eq_bind, Option.bind_eq_some_iff, Prod.exists] at executed
    obtain ⟨width, _, value, reads, _, change, stores, written, result⟩ := executed
    obtain ⟨_, rfl, _⟩ := Operand.write_reg _ _ _ _ _ _ _ written
    split_ifs at result
    cases result
    exact writes_destination env state .movzx _ _ _ _ change _ [] rfl rfl written (by simp)
  · cases executed

theorem execSelect_writes (env : Environment) (state : State) (condition : Condition)
    (operands : List Operand) (outcome : Outcome)
    (executed : execSelect env state condition operands = some outcome) :
    ∀ change ∈ outcome.writes,
      (Op.select condition).Writes env state operands outcome.accesses change := by
  unfold execSelect at executed
  split at executed
  · simp only [Option.bind_eq_bind, Option.bind_eq_some_iff, Prod.exists] at executed
    obtain ⟨value, reads, _, old, _, change, stores, written, result⟩ := executed
    obtain ⟨_, rfl, _⟩ := Operand.write_reg _ _ _ _ _ _ _ written
    split_ifs at result
    cases result
    exact writes_destination env state (.select condition) _ _ _ _ change _ [] rfl rfl written
      (by simp)
  · cases executed

theorem execCompare_writes (env : Environment) (state : State)
    (flags : Width → Word → Word → Flags) (operands : List Operand) (outcome : Outcome)
    (executed : execCompare env state flags operands = some outcome) : outcome.writes = [] := by
  unfold execCompare at executed
  split at executed
  · simp only [Option.bind_eq_bind, Option.bind_eq_some_iff, Prod.exists] at executed
    obtain ⟨_, _, _, _, _, _, _, _, result⟩ := executed
    cases result
    rfl
  · cases executed

/-- Every change of an operation comes from one of the four sources. -/
theorem Op.exec_writes (env : Environment) (state : State) (op : Op) (operands : List Operand)
    (outcome : Outcome) (executed : op.exec env state operands = some outcome) :
    ∀ change ∈ outcome.writes, op.Writes env state operands outcome.accesses change := by
  cases op with
  | move => exact execMove_writes env state operands outcome executed
  | push => exact execPush_writes env state operands outcome executed
  | pop => exact execPop_writes env state operands outcome executed
  | lea => exact execLea_writes env state operands outcome executed
  | movzx => exact execMovzx_writes env state operands outcome executed
  | alu operation =>
    simp only [exec, execAlu] at executed
    split at executed
    · exact modify_writes _ _ _ _ _ _ _ rfl rfl executed
    · cases executed
  | inc =>
    simp only [exec, execInc] at executed
    split at executed
    · exact modify_writes _ _ _ _ _ _ _ rfl rfl executed
    · cases executed
  | dec =>
    simp only [exec, execDec] at executed
    split at executed
    · exact modify_writes _ _ _ _ _ _ _ rfl rfl executed
    · cases executed
  | shl =>
    simp only [exec, execShift] at executed
    split at executed
    · exact modify_writes _ _ _ _ _ _ _ rfl rfl executed
    · cases executed
  | shr =>
    simp only [exec, execShift] at executed
    split at executed
    · exact modify_writes _ _ _ _ _ _ _ rfl rfl executed
    · cases executed
  | cmp =>
    simp only [exec] at executed
    simp [execCompare_writes env state _ operands outcome executed]
  | test =>
    simp only [exec] at executed
    simp [execCompare_writes env state _ operands outcome executed]
  | jump =>
    simp only [exec, execJump] at executed
    split at executed
    · simp only [Option.bind_eq_bind, Option.bind_eq_some_iff] at executed
      obtain ⟨_, _, result⟩ := executed
      cases result
      simp
    · cases executed
  | branch condition =>
    simp only [exec, execBranch] at executed
    split at executed
    · cases executed
      simp
    · cases executed
  | call =>
    simp only [exec, execCall] at executed
    split at executed
    · simp only [Option.bind_eq_bind, Option.bind_eq_some_iff] at executed
      obtain ⟨_, _, result⟩ := executed
      cases result
      intro other member
      obtain rfl := List.mem_singleton.mp member
      exact .returned _ _ (Or.inl rfl) (by simp)
    · cases executed
  | ret =>
    simp only [exec, execRet] at executed
    split at executed
    · cases executed
      simp
    · cases executed
      simp
    · cases executed
  | syscall =>
    simp only [exec, execSyscall] at executed
    split at executed
    · cases executed
      intro other member
      obtain rfl := List.mem_singleton.mp member
      refine .returned _ _ (Or.inr rfl) ?_
      intro _ cell notRax notRcx notR11
      simp [notRax, notRcx, notR11]
    · cases executed
  | select condition => exact execSelect_writes env state condition operands outcome executed

/-- The operand is a view of the cell. -/
def Operand.views (cell : Gp) : Operand → Bool
  | .reg register => register.storage == .gp cell
  | _ => false

/-- The cells an operation can change. -/
def Op.changes (op : Op) (operands : List Operand) (cell : Gp) : Prop :=
  (op.destination operands).any (Operand.views cell) = true ∨
    (cell = .rsp ∧ (op = .push ∨ op = .pop)) ∨ op = .call ∨
    (op = .syscall ∧ (cell = .rax ∨ cell = .rcx ∨ cell = .r11))

instance (op : Op) (operands : List Operand) (cell : Gp) : Decidable (op.changes operands cell) :=
  inferInstanceAs (Decidable (_ ∨ _ ∨ _ ∨ _))

/-- A write through a view leaves the other cells alone. -/
theorem writeRegister_other (regs : Gp → Word) (register : Register) (value : Word) (cell : Gp)
    (other : register.storage ≠ .gp cell) : writeRegister regs register value cell = regs cell := by
  unfold writeRegister
  cases storage : register.storage with
  | gp written =>
    apply Function.update_of_ne
    rintro rfl
    exact other storage
  | rip => rfl
  | rflags => rfl
  | seg index => rfl
  | xmm index => rfl

/-- A write through a view of the cell. -/
theorem writeRegister_same (regs : Gp → Word) (register : Register) (value : Word) (cell : Gp)
    (storage : register.storage = .gp cell) :
    writeRegister regs register value cell = register.merge (regs cell) value := by
  simp [writeRegister, storage]

/-- A cell that no change of a list names keeps its value. -/
theorem applyAll_regs (state : State) (changes : List Write) (cell : Gp)
    (kept : ∀ change ∈ changes, match change with
      | .reg register _ => register.storage ≠ .gp cell
      | .mem _ _ _ => True
      | .replace regs _ => regs cell = state.regs cell) :
    (changes.foldl State.apply state).regs cell = state.regs cell := by
  have general : ∀ (start : State), start.regs cell = state.regs cell →
      (changes.foldl State.apply start).regs cell = state.regs cell := by
    induction changes with
    | nil =>
      intro start same
      exact same
    | cons change rest inductionHypothesis =>
      intro start same
      rw [List.foldl_cons]
      apply inductionHypothesis (fun other member => kept other (by simp [member]))
      have own := kept change (by simp)
      cases change with
      | reg register value =>
        simp only [State.apply]
        rw [writeRegister_other _ _ _ _ own, same]
      | mem address width value => exact same
      | replace regs mem => exact own
  exact general state rfl

/-- Cells outside the changed ones keep their value. -/
theorem Op.exec_regs (env : Environment) (state : State) (op : Op) (operands : List Operand)
    (outcome : Outcome) (executed : op.exec env state operands = some outcome) (cell : Gp)
    (kept : ¬ op.changes operands cell) :
    (outcome.result state).regs cell = state.regs cell := by
  apply applyAll_regs
  intro change member
  have source := op.exec_writes env state operands outcome executed change member
  cases source with
  | destination dst width value _ stores named written _ =>
    cases dst with
    | reg register =>
      obtain ⟨rfl, _, _, _⟩ := Operand.write_reg _ _ _ _ _ _ _ written
      intro storage
      exact kept (Or.inl (by simp [named, Operand.views, storage]))
    | mem operand =>
      obtain ⟨address, _, _, rfl, _⟩ := Operand.write_mem _ _ _ _ _ _ _ written
      trivial
    | imm value => simp [Operand.write] at written
  | stackPointer value stack =>
    intro storage
    simp only [Gp.full, Storage.gp.injEq] at storage
    exact kept (Or.inr (Or.inl ⟨storage.symm, stack⟩))
  | pushed width value push wide => trivial
  | returned regs mem outside untouched =>
    rcases outside with call | kernel
    · exact absurd (Or.inr (Or.inr (Or.inl call))) kept
    · apply untouched kernel
      · rintro rfl
        exact kept (Or.inr (Or.inr (Or.inr ⟨kernel, Or.inl rfl⟩)))
      · rintro rfl
        exact kept (Or.inr (Or.inr (Or.inr ⟨kernel, Or.inr (Or.inl rfl)⟩)))
      · rintro rfl
        exact kept (Or.inr (Or.inr (Or.inr ⟨kernel, Or.inr (Or.inr rfl)⟩)))

/-- A byte that no change of a list covers keeps its value. -/
theorem applyAll_mem (state : State) (changes : List Write) (address : Word)
    (kept : ∀ change ∈ changes, match change with
      | .reg _ _ => True
      | .mem start width _ => ¬ ByteMemory.Within start width.bytes address
      | .replace _ mem => mem address = state.mem address) :
    (changes.foldl State.apply state).mem address = state.mem address := by
  have general : ∀ (start : State), start.mem address = state.mem address →
      (changes.foldl State.apply start).mem address = state.mem address := by
    induction changes with
    | nil =>
      intro start same
      exact same
    | cons change rest inductionHypothesis =>
      intro start same
      rw [List.foldl_cons]
      apply inductionHypothesis (fun other member => kept other (by simp [member]))
      have own := kept change (by simp)
      cases change with
      | reg register value => exact same
      | mem begins width value =>
        simp only [State.apply, store]
        rw [ByteMemory.writeBytes_outside, same]
        · rw [ByteMemory.encode_length]
          cases width <;> simp [Width.bytes, Width.bits]
        · rwa [ByteMemory.encode_length]
      | replace regs mem => exact own
  exact general state rfl

/-- The bytes an operation can write, apart from those of a callee or the kernel:
its stores through the explicit operand and the value it pushes. -/
def Op.storesTo (state : State) (op : Op) (outcome : Outcome) (address : Word) : Prop :=
  (∃ access ∈ outcome.accesses, access.mode = .store ∧
    ByteMemory.Within access.address access.width.bytes address) ∨
  (op = .push ∧ ∃ width : Width, (width = .b64 ∨ width = .b16) ∧
    ByteMemory.Within (state.regs .rsp - BitVec.ofNat 64 width.bytes) width.bytes address)

/-- Bytes outside the written ones keep their value. -/
theorem Op.exec_mem (env : Environment) (state : State) (op : Op) (operands : List Operand)
    (outcome : Outcome) (executed : op.exec env state operands = some outcome) (address : Word)
    (inside : op ≠ .call ∧ op ≠ .syscall) (kept : ¬ op.storesTo state outcome address) :
    (outcome.result state).mem address = state.mem address := by
  apply applyAll_mem
  intro change member
  have source := op.exec_writes env state operands outcome executed change member
  cases source with
  | destination dst width value _ stores named written listed =>
    cases dst with
    | reg register =>
      obtain ⟨rfl, _, _, _⟩ := Operand.write_reg _ _ _ _ _ _ _ written
      trivial
    | mem operand =>
      obtain ⟨start, _, _, rfl, rfl⟩ := Operand.write_mem _ _ _ _ _ _ _ written
      intro covered
      exact kept (Or.inl ⟨⟨.store, start, width⟩, listed _ (by simp), rfl, covered⟩)
    | imm value => simp [Operand.write] at written
  | stackPointer value stack => trivial
  | pushed width value push wide =>
    intro covered
    exact kept (Or.inr ⟨push, width, wide, covered⟩)
  | returned regs mem outside untouched =>
    rcases outside with call | kernel
    · exact absurd call inside.1
    · exact absurd kernel inside.2

end Semasm.X86
