import Semasm.Cli.EffectTruth
import Semasm.Cli.MemoryEffectsRiscv

/-!
# Recorded RISC-V addresses against executed ones

The register facts stay true along a straight-line run as long as no instruction takes one
of the branches that leave a wrong fact. The memory operand of a lowered instruction is
its whole address, so where the facts hold a recorded address is the executed one.
-/

namespace Semasm.Cli.EffectsRiscv

open Contract Library Machine Riscv

/-- The mnemonics that write their first operand and are in no list. -/
def unlisted : List String := ["srl", "sra", "ldu", "slt", "sltu", "slti", "sltiu"]

/-- The branches that leave a wrong fact. -/
inductive Misleads (affinity : Gpr → Option String) (env : Environment State) (state : State)
    (instr : LoweredInstr) : Prop
  /-- A sum or difference takes over the fact of its first operand. -/
  | adjusted (target source : Gpr) (name : String)
      (mnemonic : Text.asciiLower instr.mnemonic ∈ adjusts)
      (writes : gprAt instr.operands 0 = some target)
      (reads : gprAt instr.operands 1 = some source) (known : affinity source = some name)
  /-- A sum or difference of other operands keeps the fact of its destination. -/
  | stale (target : Gpr) (name : String) (mnemonic : Text.asciiLower instr.mnemonic ∈ adjusts)
      (writes : gprAt instr.operands 0 = some target) (known : affinity target = some name)
  /-- Some shifts and loads and the comparisons into a register keep the fact of their
  destination. -/
  | unlisted (target : Gpr) (name : String)
      (mnemonic : Text.asciiLower instr.mnemonic ∈ EffectsRiscv.unlisted)
      (writes : gprAt instr.operands 0 = some target) (known : affinity target = some name)
  /-- A callee, the execution environment or an instruction outside the subset changes a
  register with a fact. -/
  | outside (cell : Gpr) (name : String)
      (op : instr.op = some .call ∨ instr.op = some .system ∨ instr.op = none)
      (known : affinity cell = some name) (changed : env.returned.cell cell ≠ state.cell cell)

/-- The operation writes its first operand. -/
def writesTarget : Op → Bool
  | .mv | .li | .load _ _ | .arith _ _ => true
  | _ => false

/-- How the mnemonics of the operations are taken. -/
theorem mnemonic_arm (mnemonic : String) (op : Op) (known : Op.ofMnemonic mnemonic = some op) :
    (writesTarget op = true → arm mnemonic = .other → mnemonic ∈ unlisted) ∧
      (writesTarget op = false → arm mnemonic = .other) ∧
      (arm mnemonic = .move → op = .mv ∨ op = .li) ∧ (arm mnemonic = .adjust → mnemonic ∈ adjusts) :=
  Op.ofMnemonic_forall (fun mnemonic op =>
    (writesTarget op = true → arm mnemonic = .other → mnemonic ∈ unlisted) ∧
      (writesTarget op = false → arm mnemonic = .other) ∧
      (arm mnemonic = .move → op = .mv ∨ op = .li) ∧ (arm mnemonic = .adjust → mnemonic ∈ adjusts))
    (by decide) mnemonic op known

/-- What an instruction that computes a register consists of. -/
theorem execData_shape (state : State) (compute : List Operand → Option Word)
    (operands : List Operand) (outcome : Outcome State)
    (executed : execData state compute operands = some outcome) :
    ∃ target sources value, operands = .reg target :: sources ∧ compute sources = some value ∧
      outcome = ⟨[], state.set target.storage value, .goOn⟩ := by
  unfold execData at executed
  split at executed
  next target sources =>
    obtain ⟨value, computed, same⟩ := Option.map_eq_some_iff.mp executed
    exact ⟨target, sources, value, rfl, computed, same.symm⟩
  next => cases executed

/-- A computed register is the only one that changes. -/
theorem execData_cells (state : State) (compute : List Operand → Option Word)
    (operands : List Operand) (outcome : Outcome State)
    (executed : execData state compute operands = some outcome) (cell : Gpr)
    (other : gprAt operands 0 ≠ some cell) : outcome.after.cell cell = state.cell cell := by
  obtain ⟨target, sources, value, rfl, _, rfl⟩ := execData_shape _ _ _ _ executed
  exact state.cell_set_of_ne _ _ _ (fun same => other (by rw [same]; rfl))

/-- What an instruction of the subset leaves alone. -/
theorem exec_cells (env : Environment State) (state : State) (op : Op) (operands : List Operand)
    (outcome : Outcome State) (executed : op.exec env state operands = some outcome)
    (inside : op ≠ .call ∧ op ≠ .system) (cell : Gpr)
    (other : writesTarget op = true → gprAt operands 0 ≠ some cell) :
    outcome.after.cell cell = state.cell cell := by
  cases op with
  | mv => exact execData_cells _ _ _ _ executed cell (other rfl)
  | li => exact execData_cells _ _ _ _ executed cell (other rfl)
  | arith operation word => exact execData_cells _ _ _ _ executed cell (other rfl)
  | load bytes signed =>
    simp only [Op.exec] at executed
    unfold execLoad at executed
    split at executed
    next target mem =>
      obtain ⟨address, _, rfl⟩ := Option.map_eq_some_iff.mp executed
      exact state.cell_set_of_ne _ _ _ (fun same => other rfl (by rw [same]; rfl))
    next => cases executed
  | store bytes =>
    simp only [Op.exec] at executed
    unfold execStore at executed
    split at executed
    next source mem =>
      obtain ⟨address, _, rfl⟩ := Option.map_eq_some_iff.mp executed
      rfl
    next => cases executed
  | branch =>
    simp only [Op.exec] at executed
    split at executed
    · cases executed
    · cases executed
      rfl
  | call => exact absurd rfl inside.1
  | ret =>
    simp only [Op.exec] at executed
    split at executed
    · cases executed
    · cases executed
      rfl
  | system => exact absurd rfl inside.2

/-- A followed move copies the register. -/
theorem copied_value (env : Environment State) (state : State) (op : Op) (operands : List Operand)
    (outcome : Outcome State) (executed : op.exec env state operands = some outcome)
    (move : op = .mv ∨ op = .li) (target source : Gpr) (writes : gprAt operands 0 = some target)
    (writable : target ≠ .zero) (reads : gprAt operands 1 = some source) :
    outcome.after.cell target = state.cell source := by
  rcases move with rfl | rfl
  · obtain ⟨register, sources, value, rfl, computed, rfl⟩ := execData_shape _ _ _ _ executed
    cases writes
    unfold moved at computed
    split at computed
    next => cases reads
    next other =>
      cases computed
      cases reads
      exact state.cell_set_self _ _ writable
    next => cases computed
  · obtain ⟨register, sources, value, rfl, computed, _⟩ := execData_shape _ _ _ _ executed
    unfold immediate at computed
    split at computed
    next => cases reads
    next => cases reads
    next => cases computed

/-- An instruction that takes none of the branches that go wrong carries the facts over. -/
theorem affinity_carried (affinity : Gpr → Option String) (env : Environment State)
    (instr : LoweredInstr) (state : State) (outcome : Outcome State)
    (executed : exec env instr state = some outcome) (fine : ¬ Misleads affinity env state instr) :
    CopyFacts.Carried affinity (updateAffinity affinity instr) state.cell outcome.after.cell := by
  have outsideKept : (instr.op = some .call ∨ instr.op = some .system ∨ instr.op = none) →
      CopyFacts.Carried affinity affinity state.cell env.returned.cell := by
    intro op
    refine CopyFacts.Carried.kept (fun cell name known => ?_)
    by_contra changed
    exact fine (.outside cell name op known changed)
  rcases exec_cases env instr state outcome executed with
    ⟨op, known, ran⟩ | ⟨unknown, empty, rfl⟩
  · obtain ⟨writing, silent, moving, adjusting⟩ := mnemonic_arm _ op known
    by_cases outside : op = .call ∨ op = .system
    · have other := silent (by rcases outside with rfl | rfl <;> rfl)
      have after : outcome.after = env.returned := by
        rcases outside with rfl | rfl
        · cases ran
          rfl
        · simp only [Op.exec] at ran
          split at ran
          · cases ran
          · cases ran
            rfl
      rw [updateAffinity, other, after]
      exact outsideKept (by rcases outside with rfl | rfl <;> simp [known])
    · rw [not_or] at outside
      have same : ∀ cell, (writesTarget op = true → gprAt instr.operands 0 ≠ some cell) →
          outcome.after.cell cell = state.cell cell :=
        exec_cells env state op instr.operands outcome ran outside
      refine CopyFacts.follow_carried Gpr.zero _ _ _ rfl ?_ ?_ ?_ ?_
      · intro move target source name first writable second _
        exact copied_value env state op instr.operands outcome ran (moving move) target source first
          writable second
      · intro adjust target first
        constructor
        · cases held : affinity target with
          | none => rfl
          | some name => exact absurd (.stale target name (adjusting adjust) first held) fine
        · intro source second
          cases held : affinity source with
          | none => rfl
          | some name =>
            exact absurd (.adjusted target source name (adjusting adjust) first second held) fine
      · intro other cell name held
        exact same cell (fun writes first =>
          fine (.unlisted cell name (writing writes other) first held))
      · intro cell name different _
        exact same cell (fun _ => different)
  · have untouched : updateAffinity affinity instr = affinity := by
      rw [updateAffinity, empty]
      cases arm (Text.asciiLower instr.mnemonic) <;> rfl
    rw [untouched]
    exact outsideKept (Or.inr (Or.inr unknown))

/-- The facts before the instruction at a position. -/
def affinityAt (program : List LoweredInstr) (contract : CheckedContract) (position : Nat) :
    Gpr → Option String :=
  StraightLine.accAt updateAffinity (seedParamAffinity contract) program position

/-- The effects are recorded instruction by instruction. -/
theorem mem_collectMemoryEffects_iff (program : List LoweredInstr) (contract : CheckedContract)
    (effect : ObservedMemoryAccess) :
    effect ∈ collectMemoryEffects program contract ↔
      ∃ position instr, program[position]? = some instr ∧
        effect ∈ recordAccesses (affinityAt program contract position) instr :=
  StraightLine.mem_collect_iff recordAccesses updateAffinity (seedParamAffinity contract) program
    effect

/-- The step from a point takes none of the branches that go wrong. -/
def Judged (program : List LoweredInstr) (contract : CheckedContract)
    (envs : Nat → Environment State) (point : StraightLine.Point State) : Prop :=
  ∀ instr, program[point.position]? = some instr →
    ¬ Misleads (affinityAt program contract point.position) (envs point.position) point.state instr

/-- The facts stay true along a run. -/
theorem affinity_holds (program : List LoweredInstr) (contract : CheckedContract)
    (envs : Nat → Environment State) (entry : String → Word) (start : State)
    (agrees : ∀ pair ∈ pointerArgs contract, start.cell pair.1 = entry pair.2)
    (point : StraightLine.Point State)
    (reached : Transitions.Reaches (Transitions.Under (Judged program contract envs)
      (StraightLine.Step program (Continues envs))) ⟨0, start⟩ point) :
    CopyFacts.Hold entry (affinityAt program contract point.position) point.state.cell := by
  refine StraightLine.holds_along program (Continues envs) _ (seedParamAffinity contract) start
    (Judged program contract envs) (fun affinity state => CopyFacts.Hold entry affinity state.cell)
    (CopyFacts.hold_seeded entry _ _ agrees) ?_ point reached
  rintro point instr _ judged found ⟨outcome, executed, _, rfl⟩ held
  exact held.carried (affinity_carried _ _ instr point.state outcome executed (judged instr found))

/-- An offset from a parameter is recorded where the base register has a fact. -/
theorem classifyAddr_affine (mem : MemOperand) (affinity : Gpr → Option String) (param : String)
    (offset : Int64) (affine : classifyAddr mem affinity = .affine param offset) :
    ∃ base, mem.base = some base ∧ affinity base.storage = some param ∧ mem.index = none ∧
      mem.disp = offset := by
  unfold classifyAddr at affine
  split at affine
  · cases affine
  · split at affine
    next => cases affine
    next base named =>
      split at affine
      next => cases affine
      next name known =>
        split at affine
        next => cases affine
        next plain =>
          cases affine
          exact ⟨base, named, known, by simpa using plain, rfl⟩

/-- A recorded effect comes from a memory operand. -/
theorem mem_recordAccesses (affinity : Gpr → Option String) (instr : LoweredInstr)
    (effect : ObservedMemoryAccess) (recorded : effect ∈ recordAccesses affinity instr) :
    ∃ mem, .mem mem ∈ instr.operands ∧ effect.addr = classifyAddr mem affinity := by
  obtain ⟨operand, member, made⟩ := List.mem_filterMap.mp recorded
  split at made
  next mem =>
    obtain ⟨mode, _, rfl⟩ := Option.map_eq_some_iff.mp made
    exact ⟨mem, member, rfl⟩
  next => cases made

/-- Accesses are at the address of a memory operand. -/
theorem exec_access (env : Environment State) (instr : LoweredInstr) (state : State)
    (outcome : Outcome State) (executed : exec env instr state = some outcome) (access : Access)
    (accessed : access ∈ outcome.accesses) (mem : MemOperand)
    (member : .mem mem ∈ instr.operands) : mem.address state = some access.address := by
  have quiet : outcome.accesses ≠ [] := by
    intro none
    rw [none] at accessed
    cases accessed
  have noData : ∀ compute operands, execData state compute operands ≠ some outcome := by
    intro compute operands ran
    obtain ⟨_, _, _, _, _, rfl⟩ := execData_shape _ _ _ _ ran
    exact quiet rfl
  rcases exec_cases env instr state outcome executed with ⟨op, _, ran⟩ | ⟨_, _, rfl⟩
  · cases op with
    | mv => exact absurd ran (noData _ _)
    | li => exact absurd ran (noData _ _)
    | arith operation word => exact absurd ran (noData _ _)
    | load bytes signed =>
      simp only [Op.exec] at ran
      unfold execLoad at ran
      split at ran
      next target other shape =>
        rw [shape] at member
        obtain ⟨address, located, rfl⟩ := Option.map_eq_some_iff.mp ran
        obtain rfl : mem = other := by simpa using member
        rw [List.mem_singleton.mp accessed]
        exact located
      next => cases ran
    | store bytes =>
      simp only [Op.exec] at ran
      unfold execStore at ran
      split at ran
      next source other shape =>
        rw [shape] at member
        obtain ⟨address, located, rfl⟩ := Option.map_eq_some_iff.mp ran
        obtain rfl : mem = other := by simpa using member
        rw [List.mem_singleton.mp accessed]
        exact located
      next => cases ran
    | branch =>
      simp only [Op.exec] at ran
      split at ran
      · cases ran
      · cases ran
        exact absurd rfl quiet
    | call =>
      cases ran
      exact absurd rfl quiet
    | ret =>
      simp only [Op.exec] at ran
      split at ran
      · cases ran
      · cases ran
        exact absurd rfl quiet
    | system =>
      simp only [Op.exec] at ran
      split at ran
      · cases ran
      · cases ran
        exact absurd rfl quiet
  · exact absurd rfl quiet

/-- The operand's address and all accesses of the instruction are at an offset from the
entry value of a parameter. -/
def AddressedAt (entry : String → Word) (state : State) (outcome : Outcome State)
    (mem : MemOperand) (param : String) (offset : Int64) : Prop :=
  mem.address state = some (entry param + BitVec.ofInt 64 offset.toInt) ∧
    ∀ access ∈ outcome.accesses, access.address = entry param + BitVec.ofInt 64 offset.toInt

/-- Along a straight-line run in which no step takes a branch that goes wrong, an address
recorded as a parameter and an offset is the executed one.

Proof: the facts hold in every reached state, since each step carries them over, and the
lowered operand without an index is the base register and the displacement. -/
theorem riscv_addresses_true_along_runs (program : List LoweredInstr) (contract : CheckedContract)
    (envs : Nat → Environment State) (entry : String → Word) (start : State)
    (agrees : ∀ pair ∈ pointerArgs contract, start.cell pair.1 = entry pair.2)
    (point : StraightLine.Point State)
    (reached : Transitions.Reaches (Transitions.Under (Judged program contract envs)
      (StraightLine.Step program (Continues envs))) ⟨0, start⟩ point)
    (instr : LoweredInstr) (outcome : Outcome State)
    (executed : exec (envs point.position) instr point.state = some outcome)
    (effect : ObservedMemoryAccess)
    (recorded : effect ∈ recordAccesses (affinityAt program contract point.position) instr)
    (param : String) (offset : Int64) (affine : effect.addr = .affine param offset) :
    ∃ mem, .mem mem ∈ instr.operands ∧
      AddressedAt entry point.state outcome mem param offset := by
  have held := affinity_holds program contract envs entry start agrees point reached
  obtain ⟨mem, member, classified⟩ := mem_recordAccesses _ _ effect recorded
  rw [affine] at classified
  obtain ⟨base, named, known, plain, rfl⟩ := classifyAddr_affine mem _ param offset classified.symm
  have located : mem.address point.state = some (entry param + BitVec.ofInt 64 mem.disp.toInt) := by
    have value := held base.storage param known
    simp only [MemOperand.address, named, plain, Option.map_some, value]
    exact congrArg (fun place => some (place + BitVec.ofInt 64 mem.disp.toInt))
      (BitVec.add_zero (entry param))
  refine ⟨mem, member, located, fun access accessed => ?_⟩
  have place := exec_access _ instr point.state outcome executed access accessed mem member
  rw [located] at place
  exact (Option.some.inj place).symm

/-- Every address recorded as a parameter and an offset is the executed one on every run. -/
def AddressesTrue (program : List LoweredInstr) (contract : CheckedContract) : Prop :=
  ∀ (envs : Nat → Environment State) (entry : String → Word) (start : State),
    (∀ pair ∈ pointerArgs contract, start.cell pair.1 = entry pair.2) →
    ∀ point, Transitions.Reaches (StraightLine.Step program (Continues envs)) ⟨0, start⟩ point →
      ∀ instr outcome, program[point.position]? = some instr →
        exec (envs point.position) instr point.state = some outcome →
        ∀ effect ∈ recordAccesses (affinityAt program contract point.position) instr,
          ∀ param offset, effect.addr = .affine param offset →
            ∃ mem, .mem mem ∈ instr.operands ∧
              AddressedAt entry point.state outcome mem param offset

/-- A read of one byte through the first argument. -/
def readFirst : LoweredInstr :=
  ⟨"lbu", .load, .b64, none, [.reg Gpr.a1.full, .mem ⟨some Gpr.a0.full, none, 1, 0, .b64⟩]⟩

/-- The first argument moved by one. -/
def bumpFirst : LoweredInstr :=
  ⟨"addi", .binary, .b64, none, [.reg Gpr.a0.full, .reg Gpr.a0.full, .imm 1]⟩

example : [lower ⟨0, [], "addi", ["a0", "a0", "1"], [], [], [], true⟩,
    lower ⟨4, [], "lbu", ["a1", "0(a0)"], [], [], [], true⟩] =
    [.lowered bumpFirst, .lowered readFirst] := by decide +kernel

/-- Every register holds one address. -/
def sameCells : State := ⟨fun _ => 0x1000, fun _ => 0⟩

def nothingOutside : Environment State := ⟨sameCells, 0, false⟩

theorem readOneByte_agrees :
    ∀ pair ∈ pointerArgs readOneByte, sameCells.cell pair.1 = 0x1000 := by
  decide

/-- The bumped pointer still counts as the parameter. -/
theorem riscv_bumped_pointer_is_recorded_unmoved :
    ¬ AddressesTrue [bumpFirst, readFirst] readOneByte := by
  intro sound
  obtain ⟨_, _, _, accesses⟩ := sound (fun _ => nothingOutside) (fun _ => 0x1000) sameCells
    readOneByte_agrees ⟨1, sameCells.set .a0 0x1001⟩
    (.next .start ⟨rfl, bumpFirst, rfl, _, rfl, rfl, rfl⟩) readFirst _ rfl rfl
    ⟨.load, 8, .affine "p" 0, "lbu", 0⟩ (by decide) "p" 0 rfl
  have place : (0x1001 : Word) = 0x1000 + BitVec.ofInt 64 0 :=
    accesses ⟨.load, 0x1001, 1⟩ (List.mem_singleton.mpr rfl)
  exact absurd place (by decide)

/-- The read through the untouched pointer is recorded truly. -/
theorem riscv_readFirst_address_true :
    ∃ mem, .mem mem ∈ readFirst.operands ∧ AddressedAt (fun _ => 0x1000) sameCells
      ⟨[⟨.load, 0x1000, 1⟩], sameCells.set .a1 0, .goOn⟩ mem "p" 0 :=
  riscv_addresses_true_along_runs [readFirst] readOneByte (fun _ => nothingOutside) (fun _ => 0x1000)
    sameCells readOneByte_agrees ⟨0, sameCells⟩ .start readFirst _ rfl
    ⟨.load, 8, .affine "p" 0, "lbu", 0⟩ (by decide) "p" 0 rfl

end Semasm.Cli.EffectsRiscv
