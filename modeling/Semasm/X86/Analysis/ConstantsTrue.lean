import Semasm.X86.Analysis.Blocks
import Semasm.X86.Analysis.TransferTruth

/-!
# Recorded constants along runs

The states of the analysis are followed along the runs of a program from its first
instruction. Inside a block the transfer function keeps them true. At the entry of
a block they are true when control came along an edge, to the start of the block,
from a block that has a record of every register recorded by another way in.
-/

namespace Semasm.X86.Analysis

open Decode Library Transitions

/-- The position lies in the block. -/
def BlockRange.Covers (block : BlockRange) (position : Nat) : Prop :=
  block.start ≤ position ∧ position < block.stop

/-- Control passes from the end of a block to a position: the start of a block, along an
edge, and every register that may be recorded at the end of some way into that block is
assigned on this way too. -/
def Enters (lowered : List LoweredInstr) (blocks : List BlockRange) (source position : Nat) : Prop :=
  ∃ (target : Nat) (block : BlockRange), blocks[target]? = some block ∧ block.start = position ∧
    Flows blocks source target ∧
    ∀ (other : Nat) (before : BlockRange) cell, blocks[other]? = some before →
      target ∈ before.successors →
      MayBeConst lowered blocks other (before.body lowered).length cell →
        Assigned lowered blocks cell source

/-- The instruction at a moment of a run, which leaves a state, is judged rightly. -/
def JudgedAt (lowered : List LoweredInstr) (blocks : List BlockRange) (point : RunPoint)
    (after : State) : Prop :=
  ∀ (index : Nat) (block : BlockRange) instr, blocks[index]? = some block →
    block.Covers point.position → lowered[point.position]? = some instr →
    Judged (MayBeConst lowered blocks index (point.position - block.start)) instr point.state after

/-- A step whose instruction is judged rightly, and which goes on in its block, enters a
block rightly or runs off the end. -/
structure SteadyStep (lowered : List LoweredInstr) (physical : List PhysicalInstruction)
    (envs : Nat → Environment) (blocks : List BlockRange) (point after : RunPoint) : Prop where
  step : ProgramStep lowered physical envs point after
  judged : JudgedAt lowered blocks point after.state
  moves : ∀ (index : Nat) (block : BlockRange), blocks[index]? = some block →
    block.Covers point.position →
    (after.position = point.position + 1 ∧ after.position < block.stop) ∨
      Enters lowered blocks index after.position ∨ lowered.length ≤ after.position

/-- No register may be recorded where control comes back to the entry block. -/
def QuietEntry (lowered : List LoweredInstr) (blocks : List BlockRange) : Prop :=
  ∀ (source : Nat) (block : BlockRange) cell, blocks[source]? = some block →
    0 ∈ block.successors → ¬ MayBeConst lowered blocks source (block.body lowered).length cell

/-- States that solve the equations of all blocks and record only what the text says. -/
structure Solution (lowered : List LoweredInstr) (blocks : List BlockRange)
    (entry out : Nat → BlockState) : Prop where
  solved : ∀ (index : Nat) (block : BlockRange), blocks[index]? = some block →
    entry index = joinAll (predecessorOuts blocks out index) ∧
      out index = transferAll (block.body lowered) (entry index)
  justified : ∀ (index : Nat) (block : BlockRange) cell value width, blocks[index]? = some block →
    (out index).regs cell = some ⟨.const value, width⟩ →
      MayBeConst lowered blocks index (block.body lowered).length cell

section Solved

variable {lowered : List LoweredInstr} {blocks : List BlockRange} {entry out : Nat → BlockState}

/-- What is recorded at the entry of a block may be recorded there. -/
theorem Solution.entry_justified (solution : Solution lowered blocks entry out) (index : Nat)
    (block : BlockRange) (found : blocks[index]? = some block) (cell : Gp) (value : Int64)
    (width : Width) (held : (entry index).regs cell = some ⟨.const value, width⟩) :
    MayBeConst lowered blocks index 0 cell := by
  rw [(solution.solved index block found).1] at held
  obtain ⟨all, source, before, record, there, leads, kept⟩ :=
    entry_const blocks out index cell value width held
  have constant : record = ⟨.const value, record.width⟩ := by
    rw [← all source before record there leads kept]
  rw [constant] at kept
  exact .entered source index before cell there leads
    (solution.justified source before cell value record.width there kept)

/-- Entering a block rightly keeps the records true. -/
theorem Solution.holds_entry (solution : Solution lowered blocks entry out) (source position : Nat)
    (enters : Enters lowered blocks source position) (state : State)
    (holds : (out source).Holds state) :
    ∃ (target : Nat) (block : BlockRange), blocks[target]? = some block ∧ block.start = position ∧
      (entry target).Holds state := by
  obtain ⟨target, block, found, start, ⟨own, there, leads⟩, alike⟩ := enters
  refine ⟨target, block, found, start, ?_⟩
  intro cell value width held
  rw [(solution.solved target block found).1] at held
  obtain ⟨all, other, before, record, atOther, into, kept⟩ :=
    entry_const blocks out target cell value width held
  have constant : record = ⟨.const value, record.width⟩ := by
    rw [← all other before record atOther into kept]
  rw [constant] at kept
  have assigned := alike other before cell atOther into
    (solution.justified other before cell value record.width atOther kept)
  have some := assigned.recorded entry out solution.solved (List.getElem?_eq_some_iff.mp there).1
  obtain ⟨mine, recorded⟩ := Option.ne_none_iff_exists'.mp some
  have same : mine = ⟨.const value, mine.width⟩ := by
    rw [← all source own mine there leads recorded]
  rw [same] at recorded
  exact holds cell value mine.width recorded

/-- The records at the moment of a run are true. -/
def HoldsAt (lowered : List LoweredInstr) (blocks : List BlockRange) (entry : Nat → BlockState)
    (point : RunPoint) : Prop :=
  ∀ (index : Nat) (block : BlockRange), blocks[index]? = some block → block.Covers point.position →
    (transferAll ((block.body lowered).take (point.position - block.start)) (entry index)).Holds
      point.state

/-- The instruction of a block at a position. -/
theorem body_at (block : BlockRange) (position : Nat) (covers : block.Covers position) :
    (block.body lowered)[position - block.start]? = lowered[position]? := by
  obtain ⟨above, below⟩ := covers
  unfold BlockRange.body
  rw [List.getElem?_take_of_lt (by omega), List.getElem?_drop, Nat.add_sub_of_le above]

/-- The instruction at a moment keeps the records of its block true. -/
theorem Solution.holds_after (solution : Solution lowered blocks entry out)
    (supported : ∀ instr ∈ lowered, instr.Supported) (envs : Nat → Environment) (point : RunPoint)
    (after : State) (leaves : Leaves lowered envs point after)
    (holds : HoldsAt lowered blocks entry point) (judged : JudgedAt lowered blocks point after)
    (index : Nat) (block : BlockRange) (found : blocks[index]? = some block)
    (covers : block.Covers point.position) :
    (transferAll ((block.body lowered).take (point.position - block.start + 1)) (entry index)).Holds
      after := by
  obtain ⟨instr, here⟩ := leaves.found
  have inBody : (block.body lowered)[point.position - block.start]? = some instr :=
    (body_at block point.position covers).trans here
  have within := (List.getElem?_eq_some_iff.mp inBody).1
  rw [transferAll_succ _ _ _ inBody]
  apply holds_transfer lowered envs point after instr here leaves
    (supported instr (List.mem_of_getElem? here)) _ (holds index block found covers) _ _
    (judged index block instr found covers here)
  intro cell value width held
  exact records_along lowered blocks index block found (entry index)
    (solution.entry_justified index block found) _ (Nat.le_of_lt within) cell value width held

/-- An instruction that hands control to an address ends its block. -/
theorem terminal_of_transfers (instr : LoweredInstr) (supported : instr.Supported) (op : Op)
    (known : instr.op = some op) (transfers : op.transfers = true) : terminal instr = true := by
  have kind := supported.kind_eq op known
  unfold terminal
  rw [kind]
  cases op <;> first | rfl | cases transfers

/-- At the last instruction of a block its exit state holds. -/
theorem Solution.holds_out (solution : Solution lowered blocks entry out) (index : Nat)
    (block : BlockRange) (found : blocks[index]? = some block) (position : Nat)
    (last : position + 1 = block.stop) (covers : block.Covers position) (state : State)
    (holds : (transferAll ((block.body lowered).take (position - block.start + 1))
      (entry index)).Holds state) : (out index).Holds state := by
  have whole : (block.body lowered).take (position - block.start + 1) = block.body lowered := by
    apply List.take_of_length_le
    unfold BlockRange.body
    rw [List.length_take]
    have above := covers.1
    omega
  rw [whole] at holds
  rw [(solution.solved index block found).2]
  exact holds

/-- A block is entered only from the last instruction of a block. -/
theorem Cutting.last_of_enters {targetBlock : UInt64 → Option Nat}
    {physical : List PhysicalInstruction} {envs : Nat → Environment} {point after : RunPoint}
    (cutting : Cutting lowered targetBlock blocks) (supported : ∀ instr ∈ lowered, instr.Supported)
    (step : ProgramStep lowered physical envs point after) (index : Nat) (block : BlockRange)
    (found : blocks[index]? = some block) (covers : block.Covers point.position)
    (enters : Enters lowered blocks index after.position) : point.position + 1 = block.stop := by
  obtain ⟨start, first, atStart, starts, _⟩ := enters
  have range := cutting.tiles.within start first atStart
  obtain ⟨above, below⟩ := covers
  by_contra further
  have short : point.position + 1 < block.stop := by omega
  rcases step with falls | transfer
  · have behind : first.start = point.position + 1 := by
      obtain ⟨_, _, _, _, _⟩ := falls
      exact starts
    have both := cutting.tiles.unique (point.position + 1) index start block first found atStart
      ⟨by omega, short⟩ ⟨by omega, by omega⟩
    subst both
    rw [found] at atStart
    cases atStart
    omega
  · obtain ⟨instr, op, here, known, hands⟩ := transfer.source
    have closes := terminal_of_transfers instr (supported instr (List.mem_of_getElem? here)) op
      known hands
    rw [cutting.inner block (List.mem_of_getElem? found) point.position instr above short here]
      at closes
    cases closes

/-- A steady step keeps the records true. -/
theorem SteadyStep.holds {targetBlock : UInt64 → Option Nat} {physical : List PhysicalInstruction}
    {envs : Nat → Environment} {point after : RunPoint}
    (solution : Solution lowered blocks entry out) (cutting : Cutting lowered targetBlock blocks)
    (supported : ∀ instr ∈ lowered, instr.Supported)
    (steady : SteadyStep lowered physical envs blocks point after)
    (holds : HoldsAt lowered blocks entry point) : HoldsAt lowered blocks entry after := by
  have tiles := cutting.tiles
  have leaves := steady.step.leaves
  obtain ⟨instr, here⟩ := leaves.found
  have inside := (List.getElem?_eq_some_iff.mp here).1
  obtain ⟨index, block, found, covers⟩ := tiles.covers point.position (Nat.zero_le _) inside
  have next := solution.holds_after supported envs point after.state leaves holds steady.judged index
    block found covers
  intro target other atTarget reached
  rcases steady.moves index block found covers with ⟨behind, within⟩ | enters | off
  · have own : block.Covers after.position := ⟨by have := covers.1; omega, within⟩
    have same := tiles.unique after.position index target block other found atTarget own reached
    subst same
    rw [found] at atTarget
    cases atTarget
    have count : after.position - block.start = point.position - block.start + 1 := by
      have := covers.1
      omega
    rw [count]
    exact next
  · have last := cutting.last_of_enters supported steady.step index block found covers enters
    have exit := solution.holds_out index block found point.position last covers after.state next
    obtain ⟨goal, arrived, atGoal, begins, trueThere⟩ :=
      solution.holds_entry index after.position enters after.state exit
    have own : arrived.Covers after.position :=
      ⟨by rw [begins], by rw [← begins]; exact (tiles.within goal arrived atGoal).2.1⟩
    have same := tiles.unique after.position goal target arrived other atGoal atTarget own reached
    subst same
    rw [atGoal] at atTarget
    cases atTarget
    have none : after.position - other.start = 0 := by omega
    rw [none]
    exact trueThere
  · have bound := (tiles.within target other atTarget).2.2
    have := reached.2
    omega

end Solved

/-- The states the driver returns, when it converged and kept every change, solve the
equations. -/
theorem analyze_solution (lowered : List LoweredInstr) (blocks : List BlockRange)
    (kept : KeepsChanges lowered blocks) (converged : (analyze lowered blocks).converged = true) :
    Solution lowered blocks (fun index => ((analyze lowered blocks).blockIn[index]?).getD .bottom)
      (fun index => ((analyze lowered blocks).blockOut[index]?).getD .bottom) := by
  obtain ⟨last, stops, sameIn, sameOut, empty⟩ := Driver.loop_stops lowered blocks
    (visitBound blocks + 2) (Driver.initial lowered blocks) .start (Nat.le_add_right _ _)
  have settles : last.Settles lowered blocks := by
    apply stops.1.invariant (fun driver => driver.Settles lowered blocks)
      (Driver.initial_settles lowered blocks)
    intro before after reached holds step
    exact holds.step (kept before reached) step
  have justified := (justified_of_reaches lowered blocks last stops.1).2
  have entries : (fun index => ((analyze lowered blocks).blockIn[index]?).getD .bottom) =
      last.entry := by
    funext index
    exact congrArg (fun list : List BlockState => (list[index]?).getD .bottom) sameIn
  have outs : (fun index => ((analyze lowered blocks).blockOut[index]?).getD .bottom) = last.out := by
    funext index
    exact congrArg (fun list : List BlockState => (list[index]?).getD .bottom) sameOut
  rw [entries, outs]
  exact ⟨settles.solved (empty.mp converged), justified.constant⟩

/-- In every run whose steps are steady a constant recorded at the exit of a block is the
value of the whole register when control leaves the block.

Proof: the records at each moment are true. Inside a block the transfer function keeps
them true, and a block is entered rightly. -/
theorem constants_along_runs (lowered : List LoweredInstr)
    (supported : ∀ instr ∈ lowered, instr.Supported) (targetBlock : UInt64 → Option Nat)
    (physical : List PhysicalInstruction) (envs : Nat → Environment) (initial : State)
    (kept : KeepsChanges lowered (buildBlocks lowered targetBlock))
    (quiet : QuietEntry lowered (buildBlocks lowered targetBlock))
    (converged : (analyze lowered (buildBlocks lowered targetBlock)).converged = true)
    (point : RunPoint)
    (reached : Reaches (SteadyStep lowered physical envs (buildBlocks lowered targetBlock))
      ⟨0, 0, initial⟩ point)
    (after : State) (leaves : Leaves lowered envs point after)
    (judged : JudgedAt lowered (buildBlocks lowered targetBlock) point after)
    (index : Nat) (block : BlockRange)
    (found : (buildBlocks lowered targetBlock)[index]? = some block)
    (last : point.position + 1 = block.stop) (out : BlockState)
    (recorded : (analyze lowered (buildBlocks lowered targetBlock)).blockOut[index]? = some out) :
    out.Holds after := by
  have cutting := buildBlocks_cutting lowered targetBlock
  have solution := analyze_solution lowered (buildBlocks lowered targetBlock) kept converged
  have holds : HoldsAt lowered (buildBlocks lowered targetBlock)
      (fun index => ((analyze lowered (buildBlocks lowered targetBlock)).blockIn[index]?).getD .bottom)
      point := by
    apply reached.invariant (HoldsAt lowered (buildBlocks lowered targetBlock) _)
    · intro first start atFirst covers cell value width held
      have zero := cutting.tiles.first first start atFirst covers.1
      subst zero
      have record : (joinAll (predecessorOuts (buildBlocks lowered targetBlock)
          (fun index => ((analyze lowered (buildBlocks lowered targetBlock)).blockOut[index]?).getD
            .bottom) 0)).regs cell = some ⟨.const value, width⟩ := by
        rw [← (solution.solved 0 start atFirst).1]
        simpa [transferAll] using held
      obtain ⟨all, source, before, kept, there, leads, own⟩ := entry_const _ _ _ _ _ _ record
      have constant : kept = ⟨.const value, kept.width⟩ := by
        rw [← all source before kept there leads own]
      rw [constant] at own
      exact absurd (solution.justified source before cell value kept.width there own)
        (quiet source before cell there leads)
    · intro before next _ trueBefore steady
      exact steady.holds solution cutting supported trueBefore
  have range := cutting.tiles.within index block found
  have covers : block.Covers point.position := ⟨by omega, by omega⟩
  have exit := solution.holds_out index block found point.position last covers after
    (solution.holds_after supported envs point after leaves holds judged index block found covers)
  simp only [recorded, Option.getD_some] at exit
  exact exit

/-- A constant and a return. -/
def constantReturn : List LoweredInstr :=
  [⟨"mov", .store, .b64, none, [.reg Gp.rax.full, .imm 5]⟩, ⟨"ret", .ret, .b64, none, []⟩]

/-- The moment before the return. -/
def constantReturnEnd : RunPoint :=
  ⟨1, 1, { State.clear with regs := Function.update State.clear.regs .rax 5 }⟩

/-- The recorded constant is returned. -/
theorem constantReturn_holds :
    ∃ out after, (analyze constantReturn (buildBlocks constantReturn (fun _ => none))).blockOut[0]? =
        some out ∧ out.regs .rax = some ⟨.const 5, .b64⟩ ∧
      Leaves constantReturn (fun _ => Environment.clear) constantReturnEnd after ∧ out.Holds after := by
  have blocks : buildBlocks constantReturn (fun _ => none) = [⟨0, 2, []⟩] := by decide
  have alone : ∀ (index : Nat) (block : BlockRange), [(⟨0, 2, []⟩ : BlockRange)][index]? = some block →
      index = 0 ∧ block = ⟨0, 2, []⟩ := by
    intro index block found
    cases index with
    | zero => exact ⟨rfl, (Option.some.inj found).symm⟩
    | succ index => cases found
  have untouched : ∀ instr ∈ constantReturn, ¬ Assigns instr .rsp := by decide
  have inBody : ∀ (block : BlockRange) (count : Nat) instr,
      (block.body constantReturn)[count]? = some instr → instr ∈ constantReturn := by
    intro block count instr here
    exact List.mem_of_mem_drop (List.mem_of_mem_take (List.mem_of_getElem? here))
  have never : ∀ count, ¬ MayBeConst constantReturn [⟨0, 2, []⟩] 0 count .rsp := by
    intro count
    induction count with
    | zero =>
      rintro ⟨source, _, block, _, found, flows, _⟩
      rw [(alone source block found).2] at flows
      cases flows
    | succ count inductionHypothesis =>
      intro held
      cases held with
      | kept _ _ _ _ _ _ _ _ earlier => exact inductionHypothesis earlier
      | immediate _ _ block instr _ _ _ here _ assigns =>
        exact untouched instr (inBody block count instr here) assigns
      | copied _ _ block instr _ _ _ _ here _ assigns =>
        exact untouched instr (inBody block count instr here) assigns
  have judged : ∀ point after, JudgedAt constantReturn [⟨0, 2, []⟩] point after := by
    intro point after index block instr found _ here
    obtain ⟨rfl, rfl⟩ := alone index block found
    have member := List.mem_of_getElem? here
    have wide : ∀ instr ∈ constantReturn, ∀ operand ∈ instr.operands, ∀ register,
        operand = .reg register → register.width = .b64 := by
      intro instr inside operand listed register same
      subst same
      rcases List.mem_cons.mp inside with rfl | second
      · simp only [List.mem_cons, Operand.reg.injEq, reduceCtorEq, List.not_mem_nil, or_false] at listed
        rw [listed]
        rfl
      · obtain rfl := List.mem_singleton.mp second
        cases listed
    refine ⟨?_, ?_, fun _ recorded => absurd recorded (never _), ?_⟩
    · intro register value _ shape
      exact Or.inl (wide instr member (.reg register) (by simp [shape]) register rfl)
    · intro register source cell _ shape _ _
      exact Or.inl (wide instr member (.reg register) (by simp [shape]) register rfl)
    · intro calls
      have none : ∀ instr ∈ constantReturn, instr.op ≠ some .call := by decide
      exact absurd calls (none instr member)
  have step : SteadyStep constantReturn [] (fun _ => Environment.clear) [⟨0, 2, []⟩]
      ⟨0, 0, State.clear⟩ constantReturnEnd := by
    refine ⟨Or.inl (RunPoint.falls_of_fall _ _ _ _ rfl), judged _ _, ?_⟩
    intro index block found _
    rw [(alone index block found).2]
    exact Or.inl ⟨rfl, Nat.lt_succ_self 1⟩
  have leaves : Leaves constantReturn (fun _ => Environment.clear) constantReturnEnd
      (constantReturnEnd.state.returned []) :=
    .returned ⟨"ret", .ret, .b64, none, []⟩ rfl (by decide)
  refine ⟨_, _, rfl, rfl, leaves, ?_⟩
  apply constants_along_runs constantReturn (by decide) (fun _ => none) []
    (fun _ => Environment.clear) State.clear _ _ (by decide +kernel) constantReturnEnd _ _ leaves _ 0
    ⟨0, 2, []⟩ rfl rfl _ rfl
  · rintro driver _ ⟨index, rest, block, _, found, _, next, member, _⟩
    rw [blocks] at found
    rw [(alone index block found).2] at member
    cases member
  · intro source block cell found into
    rw [blocks] at found
    rw [(alone source block found).2] at into
    cases into
  · rw [blocks]
    exact .next .start step
  · rw [blocks]
    exact judged _ _

/-- A constant set on one of two ways to a return. -/
def oneSided : List LoweredInstr :=
  [⟨"je", .branch, .b64, none, [.imm 11]⟩,
    ⟨"mov", .store, .b64, none, [.reg Gp.rax.full, .imm 5]⟩,
    ⟨"jmp", .branch, .b64, none, [.imm 11]⟩, ⟨"ret", .ret, .b64, none, []⟩]

/-- The same as decoded instructions. -/
def oneSidedPhysical : List PhysicalInstruction :=
  [⟨0, [0x74, 0x09], "je", ["0xb"], [], [], ["jump"], true⟩,
    ⟨2, [0x48, 0xc7, 0xc0, 5, 0, 0, 0], "mov", ["rax", "5"], [], [], [], true⟩,
    ⟨9, [0xeb, 0x00], "jmp", ["0xb"], [], [], ["jump"], true⟩,
    ⟨11, [0xc3], "ret", [], [], [], ["ret"], true⟩]

/-- The block of the only target. -/
def oneSidedTarget (address : UInt64) : Option Nat := if address = 11 then some 2 else none

/-- A register that is clear when the branch is taken. -/
def branchTaken : State := { State.clear with flags := ⟨false, true, false, false, false⟩ }

/-- When the branch is taken the return is reached without the constant that the analysis
records for it. -/
theorem one_sided_constant_is_recorded :
    (∀ instr ∈ oneSided, instr.Supported) ∧
      (analyze oneSided (buildBlocks oneSided oneSidedTarget)).converged = true ∧
      (buildBlocks oneSided oneSidedTarget)[2]? = some ⟨3, 4, []⟩ ∧
      ∃ out point after,
        (analyze oneSided (buildBlocks oneSided oneSidedTarget)).blockOut[2]? = some out ∧
        out.regs .rax = some ⟨.const 5, .b64⟩ ∧
        Reaches (ProgramStep oneSided oneSidedPhysical (fun _ => Environment.clear))
          ⟨0, 0, branchTaken⟩ point ∧
        point.position + 1 = 4 ∧ Leaves oneSided (fun _ => Environment.clear) point after ∧
        after.regs .rax = 0 := by
  refine ⟨by decide, by decide +kernel, by decide, _, ⟨1, 3, branchTaken⟩,
    branchTaken.returned [], rfl, rfl, ?_, rfl,
    .returned ⟨"ret", .ret, .b64, none, []⟩ rfl (by decide), rfl⟩
  have taken : Transfer oneSided oneSidedPhysical (fun _ => Environment.clear) ⟨0, 0, branchTaken⟩
      ⟨1, 3, branchTaken⟩ :=
    .jump _ (.branch .e) ⟨[], [], branchTaken.flags, .jump⟩ (.imm 11) 11 3 rfl (by decide)
      (Or.inr ⟨.e, rfl⟩) rfl (by simp) rfl rfl ⟨_, rfl, rfl⟩
  exact .next .start (Or.inr taken)

end Semasm.X86.Analysis
