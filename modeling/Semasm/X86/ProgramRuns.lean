import Semasm.Library.Transitions
import Semasm.X86.StraightLine
import Semasm.X86.Values

/-!
# Runs of a program

A program is a list of instructions with their addresses. Control passes to the
next instruction or to any instruction at the address that a jump, a call into
the program or a return names. A call may also return at once, with the state its
callee leaves. What comes from outside is given for each moment of the run.
-/

namespace Semasm.X86

open Decode Library

/-- A moment of a run: the steps made so far, the position and the state before
its instruction. -/
structure RunPoint where
  clock : Nat
  position : Nat
  state : State

/-- The address that the operand of a jump or a call names. -/
def Operand.target (env : Environment) (state : State) : Operand → Option Word
  | .imm value => some (BitVec.ofInt 64 value.toInt)
  | other => (other.read env state .b64).map (fun found => found.1)

/-- The instruction at a position has the address. -/
def LiesAt (physical : List PhysicalInstruction) (address : Word) (position : Nat) : Prop :=
  ∃ instr, physical[position]? = some instr ∧ instr.address.toBitVec = address

/-- The state in which a callee starts. -/
def State.called (state : State) (env : Environment) : State :=
  let top := state.regs .rsp - 8
  { state with
    regs := Function.update state.regs .rsp top
    mem := store state.mem top .b64 env.rip }

/-- The state after a return. -/
def State.returned (state : State) (operands : List Operand) : State :=
  let released : Word := match operands with
    | [.imm count] => BitVec.ofInt 64 count.toInt
    | _ => 0
  state.withRsp (state.regs .rsp + 8 + released)

/-- Control passes to the next instruction. -/
inductive Falls (lowered : List LoweredInstr) (envs : Nat → Environment) (point : RunPoint) :
    RunPoint → Prop
  | next (instr : LoweredInstr) (outcome : Outcome)
      (found : lowered[point.position]? = some instr)
      (executed : exec (envs point.clock) instr point.state = some outcome)
      (through : outcome.next = .goOn) :
      Falls lowered envs point ⟨point.clock + 1, point.position + 1, outcome.result point.state⟩

/-- Control passes to an instruction at a named address. -/
inductive Transfer (lowered : List LoweredInstr) (physical : List PhysicalInstruction)
    (envs : Nat → Environment) (point : RunPoint) : RunPoint → Prop
  /-- A jump is taken, direct or not. -/
  | jump (instr : LoweredInstr) (op : Op) (outcome : Outcome) (operand : Operand) (address : Word)
      (position : Nat) (found : lowered[point.position]? = some instr) (known : instr.op = some op)
      (jumps : op = .jump ∨ ∃ condition, op = .branch condition)
      (executed : exec (envs point.clock) instr point.state = some outcome)
      (taken : outcome.next ≠ .goOn) (shape : instr.operands = [operand])
      (named : operand.target (envs point.clock) point.state = some address)
      (lands : LiesAt physical address position) :
      Transfer lowered physical envs point
        ⟨point.clock + 1, position, outcome.result point.state⟩
  /-- A call enters the program. -/
  | enter (instr : LoweredInstr) (operand : Operand) (address : Word) (position : Nat)
      (found : lowered[point.position]? = some instr) (known : instr.op = some .call)
      (shape : instr.operands = [operand])
      (named : operand.target (envs point.clock) point.state = some address)
      (lands : LiesAt physical address position) :
      Transfer lowered physical envs point
        ⟨point.clock + 1, position, point.state.called (envs point.clock)⟩
  /-- A return goes to the address on the stack. -/
  | back (instr : LoweredInstr) (position : Nat)
      (found : lowered[point.position]? = some instr) (known : instr.op = some .ret)
      (lands : LiesAt physical (load point.state.mem (point.state.regs .rsp) .b64) position) :
      Transfer lowered physical envs point
        ⟨point.clock + 1, position, point.state.returned instr.operands⟩

/-- One step of a program. -/
def ProgramStep (lowered : List LoweredInstr) (physical : List PhysicalInstruction)
    (envs : Nat → Environment) (point after : RunPoint) : Prop :=
  Falls lowered envs point after ∨ Transfer lowered physical envs point after

/-- Operations that hand control to a named address. -/
def Op.transfers : Op → Bool
  | .jump | .branch _ | .call | .ret => true
  | _ => false

/-- Only jumps, calls and returns transfer control. -/
theorem Transfer.source {lowered : List LoweredInstr} {physical : List PhysicalInstruction}
    {envs : Nat → Environment} {point after : RunPoint}
    (transfer : Transfer lowered physical envs point after) :
    ∃ instr op, lowered[point.position]? = some instr ∧ instr.op = some op ∧
      op.transfers = true := by
  cases transfer with
  | jump instr op outcome operand address position found known jumps =>
    refine ⟨instr, op, found, known, ?_⟩
    rcases jumps with rfl | ⟨condition, rfl⟩ <;> rfl
  | enter instr operand address position found known => exact ⟨instr, _, found, known, rfl⟩
  | back instr position found known => exact ⟨instr, _, found, known, rfl⟩

/-- The instruction at a position may change a cell. -/
def MayChange (lowered : List LoweredInstr) (cell : Gp) (position : Nat) : Prop :=
  ∃ instr op, lowered[position]? = some instr ∧ instr.op = some op ∧
    op.changes instr.operands cell

/-- The instruction at a position is a jump, conditional or not. -/
def Jumps (lowered : List LoweredInstr) (position : Nat) : Prop :=
  ∃ instr op, lowered[position]? = some instr ∧ instr.op = some op ∧
    (op = .jump ∨ ∃ condition, op = .branch condition)

/-- Falling through an instruction that does not change a cell. -/
theorem Falls.regs_kept {lowered : List LoweredInstr} {envs : Nat → Environment}
    {point after : RunPoint} (falls : Falls lowered envs point after) (cell : Gp)
    (kept : ¬ MayChange lowered cell point.position) :
    after.state.regs cell = point.state.regs cell := by
  obtain ⟨instr, outcome, found, executed, _⟩ := falls
  obtain ⟨op, known, ran⟩ := op_of_exec _ _ _ _ executed
  apply op.exec_regs _ _ _ outcome ran
  intro changes
  exact kept ⟨instr, op, found, known, changes⟩

/-- A jump or branch changes nothing. -/
theorem jump_unchanged (env : Environment) (state : State) (op : Op) (operands : List Operand)
    (outcome : Outcome) (jumps : op = .jump ∨ ∃ condition, op = .branch condition)
    (executed : op.exec env state operands = some outcome) : outcome.result state = state := by
  rcases jumps with rfl | ⟨condition, rfl⟩
  · simp only [Op.exec, execJump] at executed
    split at executed
    · obtain ⟨reads, _, result⟩ := Option.bind_eq_some_iff.mp executed
      cases result
      rfl
    · cases executed
  · simp only [Op.exec] at executed
    obtain ⟨_, rfl⟩ := exec_branch state condition operands outcome executed
    rfl

/-- A jump that is taken changes nothing but the position. -/
theorem Transfer.jump_state {lowered : List LoweredInstr} {physical : List PhysicalInstruction}
    {envs : Nat → Environment} {point after : RunPoint}
    (transfer : Transfer lowered physical envs point after) (jumps : Jumps lowered point.position) :
    after.state = point.state ∧ ∃ instr outcome, lowered[point.position]? = some instr ∧
      exec (envs point.clock) instr point.state = some outcome ∧ outcome.next ≠ .goOn := by
  obtain ⟨other, op, there, named, isJump⟩ := jumps
  cases transfer with
  | jump instr op outcome operand address position found known jumps executed taken =>
    obtain ⟨_, same, ran⟩ := op_of_exec _ _ _ _ executed
    rw [known] at same
    cases same
    exact ⟨jump_unchanged _ _ op _ outcome jumps ran, instr, outcome, found, executed, taken⟩
  | enter instr operand address position found known =>
    rw [there] at found
    cases found
    rw [named] at known
    cases known
    rcases isJump with impossible | ⟨condition, impossible⟩ <;> cases impossible
  | back instr position found known =>
    rw [there] at found
    cases found
    rw [named] at known
    cases known
    rcases isJump with impossible | ⟨condition, impossible⟩ <;> cases impossible

/-- Transfers move no register but the stack pointer. -/
theorem Transfer.regs_kept {lowered : List LoweredInstr} {physical : List PhysicalInstruction}
    {envs : Nat → Environment} {point after : RunPoint}
    (transfer : Transfer lowered physical envs point after) (cell : Gp) (other : cell ≠ .rsp) :
    after.state.regs cell = point.state.regs cell := by
  cases transfer with
  | jump instr op outcome operand address position found known jumps executed =>
    obtain ⟨_, same, ran⟩ := op_of_exec _ _ _ _ executed
    rw [known] at same
    cases same
    simp only [jump_unchanged _ _ op _ outcome jumps ran]
  | enter instr operand address position found known => exact Function.update_of_ne other _ _
  | back instr position found known => exact Function.update_of_ne other _ _

/-- The next moment when control falls through. -/
def RunPoint.fall (lowered : List LoweredInstr) (envs : Nat → Environment) (point : RunPoint) :
    Option RunPoint := do
  let instr ← lowered[point.position]?
  let outcome ← exec (envs point.clock) instr point.state
  if outcome.next = .goOn then
    some ⟨point.clock + 1, point.position + 1, outcome.result point.state⟩
  else none

theorem RunPoint.falls_of_fall (lowered : List LoweredInstr) (envs : Nat → Environment)
    (point after : RunPoint) (fell : point.fall lowered envs = some after) :
    Falls lowered envs point after := by
  unfold RunPoint.fall at fell
  obtain ⟨instr, found, fell⟩ := Option.bind_eq_some_iff.mp fell
  obtain ⟨outcome, executed, fell⟩ := Option.bind_eq_some_iff.mp fell
  split_ifs at fell with through
  cases fell
  exact .next instr outcome found executed through

/-- The moment after falling through a number of instructions. -/
def RunPoint.fallMany (lowered : List LoweredInstr) (envs : Nat → Environment) :
    Nat → RunPoint → Option RunPoint
  | 0, point => some point
  | count + 1, point => (point.fallMany lowered envs count).bind (RunPoint.fall lowered envs)

/-- Falling through is running. -/
theorem RunPoint.reaches_of_fallMany (lowered : List LoweredInstr)
    (physical : List PhysicalInstruction) (envs : Nat → Environment) (count : Nat)
    (start after : RunPoint) (fell : start.fallMany lowered envs count = some after) :
    Transitions.Reaches (ProgramStep lowered physical envs) start after := by
  induction count generalizing after with
  | zero =>
    cases fell
    exact .start
  | succ count inductionHypothesis =>
    obtain ⟨middle, before, last⟩ := Option.bind_eq_some_iff.mp fell
    exact .next (inductionHypothesis middle before)
      (Or.inl (RunPoint.falls_of_fall lowered envs middle after last))

/-- Registers, memory and flags all clear. -/
def State.clear : State := ⟨fun _ => 0, fun _ => 0, ⟨false, false, false, false, false⟩⟩

/-- An outside from which only zeros come. -/
def Environment.clear : Environment := ⟨0, State.clear, State.clear.flags⟩

end Semasm.X86
