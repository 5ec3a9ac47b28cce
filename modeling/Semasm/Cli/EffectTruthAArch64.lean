import Semasm.Cli.EffectTruth
import Semasm.Cli.MemoryEffectsAArch64

/-!
# Recorded AArch64 addresses against executed ones

A register fact is true while the register holds the entry value of its parameter. The
facts stay true along a straight-line run as long as no instruction takes one of the
branches that leave a wrong fact, and an address recorded from them is the executed one
where lowering has kept what the text says of the address.
-/

namespace Semasm.Cli.EffectsAArch64

open AArch64 Contract Library Machine

/-- The general-purpose registers of a state. -/
def cells (state : State) (cell : Gp) : Word := state.cell (.gp cell)

/-- The branches that leave a wrong fact. -/
inductive Misleads (affinity : Gp → Option String) (env : Environment State) (state : State)
    (instr : Instr) : Prop
  /-- A sum or difference takes over the fact of its first operand. -/
  | adjusted (target source : Gp) (name : String)
      (mnemonic : Text.asciiLower instr.lowered.mnemonic ∈ adjusts)
      (writes : gpAt instr.lowered.operands 0 = some target)
      (reads : gpAt instr.lowered.operands 1 = some source) (known : affinity source = some name)
  /-- A sum or difference of other operands keeps the fact of its destination. -/
  | stale (target : Gp) (name : String)
      (mnemonic : Text.asciiLower instr.lowered.mnemonic ∈ adjusts)
      (writes : gpAt instr.lowered.operands 0 = some target) (known : affinity target = some name)
  /-- The flag-setting forms and the shifts are not listed and keep the fact of their
  destination. -/
  | unlisted (target : Gp) (name : String)
      (mnemonic : Text.asciiLower instr.lowered.mnemonic ∈ ["adds", "subs", "lsl", "lsr"])
      (writes : gpAt instr.lowered.operands 0 = some target) (known : affinity target = some name)
  /-- A move of the lower half takes over the fact of the register. -/
  | narrowed (target source : Register) (cell : Gp) (name : String)
      (mnemonic : Text.asciiLower instr.lowered.mnemonic = "mov")
      (operands : instr.lowered.operands = [.reg target, .reg source])
      (storage : source.storage = .gp cell) (known : affinity cell = some name)
      (narrow : ¬ (target.width = .b64 ∧ source.width = .b64))
  /-- A callee, an exception handler or an instruction outside the subset changes a register
  with a fact. -/
  | outside (cell : Gp) (name : String)
      (op : instr.op = some .call ∨ instr.op = some .exception ∨ instr.op = none)
      (known : affinity cell = some name) (changed : cells env.returned cell ≠ cells state cell)
  /-- A pre-indexed or post-indexed access moves a base register with a fact. -/
  | rebased (addressing : Addressing) (cell : Gp) (name : String)
      (text : instr.addressing = some addressing) (moves : addressing.Moves (.gp cell))
      (known : affinity cell = some name)

/-- An instruction that computes a register changes no other one. -/
theorem execData_shape (state : State) (compute : Register → List Operand → Option Word)
    (operands : List Operand) (outcome : Outcome State)
    (executed : execData state compute operands = some outcome) :
    ∃ target sources value, operands = .reg target :: sources ∧
      compute target sources = some value ∧ outcome = ⟨[], state.write target value, .goOn⟩ := by
  unfold execData at executed
  split at executed
  next target sources =>
    obtain ⟨value, computed, same⟩ := Option.map_eq_some_iff.mp executed
    exact ⟨target, sources, value, rfl, computed, same.symm⟩
  next => cases executed

/-- A write through a view leaves the other registers alone. -/
theorem cells_write_of_ne (state : State) (target : Register) (value : Word) (cell : Gp)
    (different : target.storage ≠ .gp cell) :
    cells (state.write target value) cell = cells state cell :=
  state.cell_set_of_ne _ _ _ (Ne.symm different)

/-- The register of the first operand. -/
theorem gpAt_zero (target : Register) (sources : List Operand) (cell : Gp)
    (storage : target.storage = .gp cell) : gpAt (.reg target :: sources) 0 = some cell := by
  simp [gpAt, storage]

/-- The operation writes its first operand. -/
def writesTarget : Op → Bool
  | .mov | .movz | .movn | .movk | .load _ _ | .arith _ => true
  | _ => false

/-- How the mnemonics of the operations are taken. -/
theorem mnemonic_arm (mnemonic : String) (op : Op) (known : Op.ofMnemonic mnemonic = some op) :
    (writesTarget op = true → arm mnemonic = .other → mnemonic ∈ ["adds", "subs", "lsl", "lsr"]) ∧
      (writesTarget op = false → arm mnemonic = .other) ∧
      (arm mnemonic = .move → op = .mov ∧ mnemonic = "mov" ∨ op = .movz ∨ op = .movn) ∧
      (arm mnemonic = .adjust → mnemonic ∈ adjusts) :=
  Op.ofMnemonic_forall (fun mnemonic op =>
    (writesTarget op = true → arm mnemonic = .other → mnemonic ∈ ["adds", "subs", "lsl", "lsr"]) ∧
      (writesTarget op = false → arm mnemonic = .other) ∧
      (arm mnemonic = .move → op = .mov ∧ mnemonic = "mov" ∨ op = .movz ∨ op = .movn) ∧
      (arm mnemonic = .adjust → mnemonic ∈ adjusts))
    (by decide) mnemonic op known

/-- A computed register is the only one that changes. -/
theorem execData_cells (state : State) (compute : Register → List Operand → Option Word)
    (operands : List Operand) (outcome : Outcome State)
    (executed : execData state compute operands = some outcome) (cell : Gp)
    (other : gpAt operands 0 ≠ some cell) : cells outcome.after cell = cells state cell := by
  obtain ⟨target, sources, value, rfl, _, rfl⟩ := execData_shape _ _ _ _ executed
  exact cells_write_of_ne state target value cell (fun same => other (gpAt_zero _ _ _ same))

/-- What an instruction of the subset leaves alone. -/
theorem exec_cells (env : Environment State) (instr : Instr) (state : State) (op : Op) (outcome : Outcome State)
    (executed : op.exec env instr state = some outcome) (inside : op ≠ .call ∧ op ≠ .exception)
    (cell : Gp) (other : writesTarget op = true → gpAt instr.lowered.operands 0 ≠ some cell)
    (still : ∀ addressing, instr.addressing = some addressing → ¬ addressing.Moves (.gp cell)) :
    cells outcome.after cell = cells state cell := by
  cases op with
  | mov => exact execData_cells _ _ _ _ executed cell (other rfl)
  | movz => exact execData_cells _ _ _ _ executed cell (other rfl)
  | movn => exact execData_cells _ _ _ _ executed cell (other rfl)
  | movk => exact execData_cells _ _ _ _ executed cell (other rfl)
  | arith operation => exact execData_cells _ _ _ _ executed cell (other rfl)
  | load bytes signed =>
    simp only [Op.exec, execLoad] at executed
    split at executed
    next addressing target mem rest text shape =>
      cases executed
      rw [shape] at other
      have register := cells_write_of_ne (addressing.writeback state) target
        (loaded state.mem (addressing.address state) (bytes.getD (target.width.bits / 8)) signed) cell
        (fun same => other rfl (gpAt_zero _ _ _ same))
      exact register.trans (addressing.cell_writeback state _ (still addressing text))
    next => cases executed
  | store bytes =>
    simp only [Op.exec, execStore] at executed
    split at executed
    next addressing source mem rest text shape =>
      cases executed
      exact addressing.cell_writeback _ _ (still addressing text)
    next => cases executed
  | compare =>
    simp only [Op.exec] at executed
    split_ifs at executed
    cases executed
    rfl
  | branch =>
    simp only [Op.exec] at executed
    split_ifs at executed <;> cases executed <;> rfl
  | call => exact absurd rfl inside.1
  | ret =>
    simp only [Op.exec] at executed
    split_ifs at executed
    cases executed
    rfl
  | exception => exact absurd rfl inside.2

/-- A followed move that meets no branch that goes wrong copies the register. -/
theorem copied_value (affinity : Gp → Option String) (env : Environment State) (instr : Instr)
    (state : State) (op : Op) (outcome : Outcome State) (executed : op.exec env instr state = some outcome)
    (move : op = .mov ∧ Text.asciiLower instr.lowered.mnemonic = "mov" ∨ op = .movz ∨ op = .movn)
    (fine : ¬ Misleads affinity env state instr) (target source : Gp) (name : String)
    (writes : gpAt instr.lowered.operands 0 = some target) (writable : target ≠ .zr)
    (reads : gpAt instr.lowered.operands 1 = some source) (known : affinity source = some name) :
    cells outcome.after target = cells state source := by
  have noImmediate : ∀ compute sources value register,
      immediate env compute sources = some value → gpAt (.reg register :: sources) 1 ≠ some source := by
    intro compute sources value register computed second
    unfold immediate at computed
    split at computed
    · simp [gpAt] at second
    · simp [gpAt] at second
    · cases computed
  rcases move with ⟨rfl, mnemonic⟩ | rfl | rfl
  · obtain ⟨register, sources, value, shape, computed, rfl⟩ := execData_shape _ _ _ _ executed
    rw [shape] at writes reads
    have narrowed := fine
    unfold moved at computed
    split at computed
    next => simp [gpAt] at reads
    next operand =>
      cases operand with
      | reg other =>
        cases computed
        have storage : other.storage = .gp source := by
          unfold gpAt at reads
          simp only [List.getElem?_cons_succ, List.getElem?_cons_zero] at reads
          split at reads
          next cell same =>
            cases reads
            exact same
          next => cases reads
        have first : register.storage = .gp target := by
          unfold gpAt at writes
          simp only [List.getElem?_cons_zero] at writes
          split at writes
          next cell same =>
            cases writes
            exact same
          next => cases writes
        have wide : register.width = .b64 ∧ other.width = .b64 := by
          by_contra narrow
          exact narrowed (.narrowed register other source name mnemonic shape storage known narrow)
        unfold cells State.write State.read
        rw [first, wide.1, wide.2, storage]
        exact State.cell_set_self _ _ _ writable
      | imm value => simp [gpAt] at reads
      | mem operand => simp [gpAt] at reads
    next => cases computed
  · obtain ⟨register, sources, value, shape, computed, _⟩ := execData_shape _ _ _ _ executed
    rw [shape] at reads
    exact absurd reads (noImmediate _ _ _ _ computed)
  · obtain ⟨register, sources, value, shape, computed, _⟩ := execData_shape _ _ _ _ executed
    rw [shape] at reads
    exact absurd reads (noImmediate _ _ _ _ computed)

/-- An instruction of the subset that takes none of the branches that go wrong carries the
facts over. -/
theorem affinity_carried_inside (affinity : Gp → Option String) (env : Environment State) (instr : Instr)
    (state : State) (op : Op) (outcome : Outcome State) (known : instr.op = some op)
    (executed : op.exec env instr state = some outcome) (inside : op ≠ .call ∧ op ≠ .exception)
    (fine : ¬ Misleads affinity env state instr) :
    CopyFacts.Carried affinity (updateAffinity affinity instr.lowered) (cells state)
      (cells outcome.after) := by
  obtain ⟨writing, _, moving, adjusting⟩ := mnemonic_arm _ op known
  have same : ∀ cell name, affinity cell = some name →
      (writesTarget op = true → gpAt instr.lowered.operands 0 ≠ some cell) →
      cells outcome.after cell = cells state cell :=
    fun cell name held other => exec_cells env instr state op outcome executed inside cell other
      (fun addressing text moves => fine (.rebased addressing cell name text moves held))
  refine CopyFacts.follow_carried Gp.zr _ _ _ rfl ?_ ?_ ?_ ?_
  · intro move target source name first writable second held
    exact copied_value affinity env instr state op outcome executed (moving move) fine target source
      name first writable second held
  · intro adjust target first
    constructor
    · cases held : affinity target with
      | none => rfl
      | some name => exact absurd (.stale target name (adjusting adjust) first held) fine
    · intro source second
      cases held : affinity source with
      | none => rfl
      | some name =>
        exact absurd (.adjusted target source name (adjusting adjust) first second held) fine
  · intro other cell name held
    exact same cell name held (fun writes first =>
      fine (.unlisted cell name (writing writes other) first held))
  · intro cell name different held
    exact same cell name held (fun _ => different)

/-- An instruction that takes none of the branches that go wrong carries the facts over. -/
theorem affinity_carried (affinity : Gp → Option String) (env : Environment State) (instr : Instr)
    (state : State) (outcome : Outcome State) (executed : exec env instr state = some outcome)
    (fine : ¬ Misleads affinity env state instr) :
    CopyFacts.Carried affinity (updateAffinity affinity instr.lowered) (cells state)
      (cells outcome.after) := by
  have outsideKept : (instr.op = some .call ∨ instr.op = some .exception ∨ instr.op = none) →
      CopyFacts.Carried affinity affinity (cells state) (cells env.returned) := by
    intro op
    refine CopyFacts.Carried.kept (fun cell name known => ?_)
    by_contra changed
    exact fine (.outside cell name op known changed)
  rcases exec_cases env instr state outcome executed with
    ⟨op, known, ran⟩ | ⟨unknown, empty, rfl⟩
  · by_cases outside : op = .call ∨ op = .exception
    · have silent : writesTarget op = false := by
        rcases outside with rfl | rfl <;> rfl
      have other := (mnemonic_arm _ op known).2.1 silent
      have after : outcome.after = env.returned := by
        rcases outside with rfl | rfl
        all_goals
          simp only [Op.exec] at ran
          split at ran
          · cases ran
          · cases ran
            rfl
      rw [updateAffinity, other, after]
      exact outsideKept (by rcases outside with rfl | rfl <;> simp [known])
    · rw [not_or] at outside
      exact affinity_carried_inside affinity env instr state op outcome known ran outside fine
  · have untouched : updateAffinity affinity instr.lowered = affinity := by
      rw [updateAffinity, empty]
      cases arm (Text.asciiLower instr.lowered.mnemonic) <;> rfl
    rw [untouched]
    exact outsideKept (Or.inr (Or.inr unknown))

/-- The facts before the instruction at a position. -/
def affinityAt (program : List Instr) (contract : CheckedContract) (position : Nat) :
    Gp → Option String :=
  StraightLine.accAt (fun affinity instr => updateAffinity affinity instr.lowered)
    (seedParamAffinity contract) program position

/-- The effects are recorded instruction by instruction. -/
theorem mem_collectMemoryEffects_iff (program : List Instr) (contract : CheckedContract)
    (effect : ObservedMemoryAccess) :
    effect ∈ collectMemoryEffects (program.map Instr.lowered) contract ↔
      ∃ position instr, program[position]? = some instr ∧
        effect ∈ recordAccesses (affinityAt program contract position) instr.lowered := by
  have same : ∀ position, StraightLine.accAt updateAffinity (seedParamAffinity contract)
      (program.map Instr.lowered) position = affinityAt program contract position := by
    intro position
    rw [affinityAt, StraightLine.accAt, StraightLine.accAt, ← List.map_take, List.foldl_map]
  rw [collectMemoryEffects, StraightLine.mem_collect_iff]
  simp only [same, List.getElem?_map, Option.map_eq_some_iff]
  constructor
  · rintro ⟨position, _, ⟨instr, found, rfl⟩, recorded⟩
    exact ⟨position, instr, found, recorded⟩
  · rintro ⟨position, instr, found, recorded⟩
    exact ⟨position, instr.lowered, ⟨instr, found, rfl⟩, recorded⟩

/-- The operand says what the text says of an address without an index. -/
structure KeepsAddress (mem : MemOperand) (addressing : Addressing) : Prop where
  base : mem.base.map Register.storage = some addressing.base
  index : addressing.index = none
  disp : mem.disp = if addressing.indexing = .post then 0 else addressing.disp

/-- The step from a point takes none of the branches that go wrong. -/
def Judged (program : List Instr) (contract : CheckedContract) (envs : Nat → Environment State)
    (point : StraightLine.Point State) : Prop :=
  ∀ instr, program[point.position]? = some instr →
    ¬ Misleads (affinityAt program contract point.position) (envs point.position) point.state instr ∧
      ∀ mem addressing param offset, .mem mem ∈ instr.lowered.operands →
        instr.addressing = some addressing →
        classifyAddr mem (affinityAt program contract point.position) = .affine param offset →
        KeepsAddress mem addressing

/-- The facts stay true along a run. -/
theorem affinity_holds (program : List Instr) (contract : CheckedContract)
    (envs : Nat → Environment State) (entry : String → Word) (start : State)
    (agrees : ∀ pair ∈ pointerArgs contract, cells start pair.1 = entry pair.2)
    (point : StraightLine.Point State)
    (reached : Transitions.Reaches (Transitions.Under (Judged program contract envs)
      (StraightLine.Step program (Continues envs))) ⟨0, start⟩ point) :
    CopyFacts.Hold entry (affinityAt program contract point.position) (cells point.state) := by
  refine StraightLine.holds_along program (Continues envs) _ (seedParamAffinity contract) start
    (Judged program contract envs) (fun affinity state => CopyFacts.Hold entry affinity (cells state))
    (CopyFacts.hold_seeded entry _ _ agrees) ?_ point reached
  rintro point instr _ judged found ⟨outcome, executed, _, rfl⟩ held
  exact held.carried (affinity_carried _ _ instr point.state outcome executed (judged instr found).1)

/-- An offset from a parameter is recorded where the base register has a fact. -/
theorem classifyAddr_affine (mem : MemOperand) (affinity : Gp → Option String) (param : String)
    (offset : Int64) (affine : classifyAddr mem affinity = .affine param offset) :
    ∃ base cell, mem.base = some base ∧ base.storage = .gp cell ∧ affinity cell = some param ∧
      mem.disp = offset := by
  unfold classifyAddr at affine
  split at affine
  · cases affine
  · split at affine
    next => cases affine
    next base named =>
      split at affine
      next cell storage =>
        split at affine
        next => cases affine
        next name known =>
          split at affine
          · cases affine
          · cases affine
            exact ⟨base, cell, named, storage, known, rfl⟩
      all_goals cases affine

/-- An executed instruction with a memory operand accesses the address of its text. -/
theorem exec_access (env : Environment State) (instr : Instr) (state : State) (outcome : Outcome State)
    (executed : exec env instr state = some outcome) (mem : MemOperand)
    (member : .mem mem ∈ instr.lowered.operands) :
    ∃ addressing, instr.addressing = some addressing ∧
      ∃ access ∈ outcome.accesses, access.address = addressing.address state := by
  have isMem : instr.lowered.operands.any Operand.isMem = true :=
    List.any_eq_true.mpr ⟨.mem mem, member, rfl⟩
  have noData : ∀ compute, (∀ target sources value, compute target sources = some value →
      .mem mem ∉ sources) → execData state compute instr.lowered.operands = some outcome → False := by
    intro compute plain ran
    obtain ⟨target, sources, value, shape, computed, _⟩ := execData_shape _ _ _ _ ran
    rw [shape] at member
    rcases List.mem_cons.mp member with first | later
    · cases first
    · exact plain target sources value computed later
  have immediatePlain : ∀ compute sources value,
      immediate env compute sources = some value → .mem mem ∉ sources := by
    intro compute sources value computed
    unfold immediate at computed
    split at computed
    · simp
    · simp
    · cases computed
  rcases exec_cases env instr state outcome executed with ⟨op, _, ran⟩ | ⟨_, empty, _⟩
  · cases op with
    | mov =>
      refine (noData _ (fun _ sources value computed => ?_) ran).elim
      unfold moved at computed
      split at computed
      · simp
      next source =>
        intro listed
        rw [← List.mem_singleton.mp listed] at computed
        cases computed
      · cases computed
    | movz => exact (noData _ (fun _ => immediatePlain _) ran).elim
    | movn => exact (noData _ (fun _ => immediatePlain _) ran).elim
    | movk => exact (noData _ (fun _ => immediatePlain _) ran).elim
    | arith operation =>
      refine (noData _ (fun _ sources value computed => ?_) ran).elim
      unfold combined at computed
      split at computed
      next left right =>
        intro listed
        rcases List.mem_cons.mp listed with first | last
        · rw [← first] at computed
          cases computed
        · rw [← List.mem_singleton.mp last] at computed
          simp only [Operand.value] at computed
          split at computed
          next absent => cases absent
          next => cases computed
      next source =>
        intro listed
        rw [← List.mem_singleton.mp listed] at computed
        cases computed
      · simp
      · cases computed
    | load bytes signed =>
      simp only [Op.exec, execLoad] at ran
      split at ran
      next addressing target other rest text shape =>
        cases ran
        exact ⟨addressing, text, _, List.mem_singleton.mpr rfl, rfl⟩
      next => cases ran
    | store bytes =>
      simp only [Op.exec, execStore] at ran
      split at ran
      next addressing source other rest text shape =>
        cases ran
        exact ⟨addressing, text, _, List.mem_singleton.mpr rfl, rfl⟩
      next => cases ran
    | compare => simp [Op.exec, isMem] at ran
    | branch => simp [Op.exec, isMem] at ran
    | call => simp [Op.exec, isMem] at ran
    | ret => simp [Op.exec, isMem] at ran
    | exception => simp [Op.exec, isMem] at ran
  · rw [empty] at member
    cases member

/-- A recorded effect comes from a memory operand. -/
theorem mem_recordAccesses (affinity : Gp → Option String) (instr : LoweredInstr)
    (effect : ObservedMemoryAccess) (recorded : effect ∈ recordAccesses affinity instr) :
    ∃ mem, .mem mem ∈ instr.operands ∧ effect.addr = classifyAddr mem affinity := by
  obtain ⟨operand, member, made⟩ := List.mem_filterMap.mp recorded
  split at made
  next mem =>
    obtain ⟨mode, _, rfl⟩ := Option.map_eq_some_iff.mp made
    exact ⟨mem, member, rfl⟩
  next => cases made

/-- Along a straight-line run in which no step takes a branch that goes wrong, an address
recorded as a parameter and an offset is the executed one.

Proof: the facts hold in every reached state, since each step carries them over. There the
base register holds the parameter, and the operand has the displacement of the text. -/
theorem aarch64_addresses_true_along_runs (program : List Instr) (contract : CheckedContract)
    (envs : Nat → Environment State) (entry : String → Word) (start : State)
    (agrees : ∀ pair ∈ pointerArgs contract, cells start pair.1 = entry pair.2)
    (point : StraightLine.Point State)
    (reached : Transitions.Reaches (Transitions.Under (Judged program contract envs)
      (StraightLine.Step program (Continues envs))) ⟨0, start⟩ point)
    (judged : Judged program contract envs point) (instr : Instr) (outcome : Outcome State)
    (found : program[point.position]? = some instr)
    (executed : exec (envs point.position) instr point.state = some outcome)
    (effect : ObservedMemoryAccess)
    (recorded : effect ∈ recordAccesses (affinityAt program contract point.position) instr.lowered)
    (param : String) (offset : Int64) (affine : effect.addr = .affine param offset) :
    ∃ access ∈ outcome.accesses, access.address = entry param + BitVec.ofInt 64 offset.toInt := by
  have held := affinity_holds program contract envs entry start agrees point reached
  obtain ⟨mem, member, classified⟩ := mem_recordAccesses _ _ effect recorded
  rw [affine] at classified
  obtain ⟨base, cell, named, storage, known, rfl⟩ :=
    classifyAddr_affine mem _ param offset classified.symm
  obtain ⟨addressing, text, access, accessed, address⟩ :=
    exec_access _ instr point.state outcome executed mem member
  have keeps := (judged instr found).2 mem addressing param mem.disp member text classified.symm
  have baseCell : addressing.base = .gp cell := by
    have same := keeps.base
    rw [named, Option.map_some, storage] at same
    exact (Option.some.inj same).symm
  have value : point.state.cell addressing.base = entry param := by
    rw [baseCell]
    exact held cell param known
  refine ⟨access, accessed, ?_⟩
  have disp := keeps.disp
  rw [address, Addressing.address]
  cases indexing : addressing.indexing with
  | post =>
    rw [if_pos indexing] at disp
    simp only [value, disp]
    exact (BitVec.add_zero _).symm
  | offset =>
    rw [if_neg (by rw [indexing]; decide)] at disp
    simp only [value, keeps.index, disp, Addressing.amount]
    exact congrArg (fun place => place + BitVec.ofInt 64 addressing.disp.toInt)
      (BitVec.add_zero (entry param))
  | pre =>
    rw [if_neg (by rw [indexing]; decide)] at disp
    simp only [value, keeps.index, disp, Addressing.amount]
    exact congrArg (fun place => place + BitVec.ofInt 64 addressing.disp.toInt)
      (BitVec.add_zero (entry param))

/-- Every address recorded as a parameter and an offset is the executed one on every run. -/
def AddressesTrue (program : List Instr) (contract : CheckedContract) : Prop :=
  ∀ (envs : Nat → Environment State) (entry : String → Word) (start : State),
    (∀ pair ∈ pointerArgs contract, cells start pair.1 = entry pair.2) →
    ∀ point, Transitions.Reaches (StraightLine.Step program (Continues envs)) ⟨0, start⟩ point →
      ∀ instr outcome, program[point.position]? = some instr →
        exec (envs point.position) instr point.state = some outcome →
        ∀ effect ∈ recordAccesses (affinityAt program contract point.position) instr.lowered,
          ∀ param offset, effect.addr = .affine param offset →
            ∃ access ∈ outcome.accesses,
              access.address = entry param + BitVec.ofInt 64 offset.toInt

/-- A read of one byte through the first argument. -/
def readFirst : Instr where
  lowered := ⟨"ldrb", .load, .b32, none,
    [.reg Gp.x1.low32, .mem ⟨some Gp.x0.full, none, 1, 0, .b64⟩]⟩
  addressing := some ⟨.gp .x0, none, 0, .offset⟩
  modifier := id

/-- The first argument moved by one. -/
def bumpFirst : Instr where
  lowered := ⟨"add", .binary, .b64, none, [.reg Gp.x0.full, .reg Gp.x0.full, .imm 1]⟩
  addressing := none
  modifier := id

example : [lower ⟨0, [], "add", ["x0", "x0", "#1"], [], [], [], true⟩,
    lower ⟨4, [], "ldrb", ["w1", "[x0]"], [], [], [], true⟩] =
    [.lowered bumpFirst.lowered, .lowered readFirst.lowered] := by decide +kernel

/-- Every register holds one address. -/
def sameCells : State := ⟨fun _ => 0x1000, 0x1000, fun _ => 0⟩

def nothingOutside : Environment State := ⟨sameCells, 0, false⟩

theorem readOneByte_agrees :
    ∀ pair ∈ pointerArgs readOneByte, cells sameCells pair.1 = 0x1000 := by
  decide

/-- The bumped pointer still counts as the parameter. -/
theorem aarch64_bumped_pointer_is_recorded_unmoved :
    ¬ AddressesTrue [bumpFirst, readFirst] readOneByte := by
  intro sound
  obtain ⟨access, accessed, address⟩ := sound (fun _ => nothingOutside) (fun _ => 0x1000) sameCells
    readOneByte_agrees ⟨1, sameCells.write Gp.x0.full 0x1001⟩
    (.next .start ⟨rfl, bumpFirst, rfl, _, rfl, rfl, rfl⟩) readFirst _ rfl rfl
    ⟨.load, 8, .affine "p" 0, "ldrb", 0⟩ (by decide) "p" 0 rfl
  obtain rfl := List.mem_singleton.mp accessed
  have place : (0x1001 : Word) = 0x1000 + BitVec.ofInt 64 0 := address
  exact absurd place (by decide)

/-- The read alone takes none of the branches that go wrong. -/
theorem readFirst_judged :
    Judged [readFirst] readOneByte (fun _ => nothingOutside) ⟨0, sameCells⟩ := by
  intro instr found
  cases found
  constructor
  · intro wrong
    cases wrong with
    | adjusted _ _ _ mnemonic => exact absurd mnemonic (by decide)
    | stale _ _ mnemonic => exact absurd mnemonic (by decide)
    | unlisted _ _ mnemonic => exact absurd mnemonic (by decide)
    | narrowed _ _ _ _ mnemonic => exact absurd mnemonic (by decide)
    | outside _ _ op => exact absurd op (by decide)
    | rebased addressing cell _ text moves =>
      cases text
      exact moves.1 rfl
  · intro mem addressing param offset member text affine
    cases text
    simp only [readFirst, List.mem_cons, List.not_mem_nil, or_false, reduceCtorEq, false_or,
      Operand.mem.injEq] at member
    subst member
    exact ⟨rfl, rfl, rfl⟩

/-- The read through the untouched pointer is recorded truly. -/
theorem aarch64_readFirst_address_true :
    ∃ access ∈ [Access.mk .load 0x1000 1], access.address = 0x1000 + BitVec.ofInt 64 0 :=
  aarch64_addresses_true_along_runs [readFirst] readOneByte (fun _ => nothingOutside) (fun _ => 0x1000)
    sameCells readOneByte_agrees ⟨0, sameCells⟩ .start readFirst_judged readFirst
    ⟨[⟨.load, 0x1000, 1⟩], sameCells.write Gp.x1.low32 0, .goOn⟩ rfl rfl
    ⟨.load, 8, .affine "p" 0, "ldrb", 0⟩ (by decide) "p" 0 rfl

end Semasm.Cli.EffectsAArch64
