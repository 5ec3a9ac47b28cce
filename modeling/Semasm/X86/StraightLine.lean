import Semasm.Library.Transitions
import Semasm.X86.Values

/-!
# Straight-line runs

A list of instructions is executed from its first one, each handing over to the
next. A jump, a return or an instruction without a meaning ends the run.
-/

namespace Semasm.X86

open Library

/-- A position in a program with the state before its instruction. -/
structure Point where
  position : Nat
  state : State

/-- One instruction of a straight-line run. -/
def StraightStep (program : List LoweredInstr) (envs : Nat → Environment) (point after : Point) :
    Prop :=
  ∃ instr outcome, program[point.position]? = some instr ∧
    exec (envs point.position) instr point.state = some outcome ∧ outcome.next = .goOn ∧
    after = ⟨point.position + 1, outcome.result point.state⟩

/-- An executed instruction has a supported operation. -/
theorem op_of_exec (env : Environment) (instr : LoweredInstr) (state : State) (outcome : Outcome)
    (executed : exec env instr state = some outcome) :
    ∃ op, instr.op = some op ∧ op.exec env state instr.operands = some outcome := by
  unfold exec at executed
  split_ifs at executed
  obtain ⟨op, known, ran⟩ := Option.bind_eq_some_iff.mp executed
  exact ⟨op, known, ran⟩

end Semasm.X86
