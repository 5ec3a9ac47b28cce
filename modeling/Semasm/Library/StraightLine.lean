import Semasm.Library.Transitions
import Mathlib.Data.List.Basic

/-!
# Straight-line runs beside a scan

A program without jumps is executed instruction by instruction, while an analysis scans
its text once in the same order: it records something at each instruction and updates an
accumulator. What relates the accumulator to the state, and is kept by every instruction,
relates them all along a run.
-/

namespace Semasm.Library.StraightLine

open Transitions

universe u v w x
variable {Instr : Type u} {State : Type v} {Acc : Type w} {Out : Type x}

/-- A position in a program with the state before its instruction. -/
structure Point (State : Type v) where
  position : Nat
  state : State

/-- One instruction of a straight-line run. -/
def Step (program : List Instr) (runs : Nat → Instr → State → State → Prop)
    (point after : Point State) : Prop :=
  after.position = point.position + 1 ∧
    ∃ instr, program[point.position]? = some instr ∧
      runs point.position instr point.state after.state

/-- The accumulator of a scan before a position. -/
def accAt (update : Acc → Instr → Acc) (init : Acc) (program : List Instr) (position : Nat) : Acc :=
  (program.take position).foldl update init

theorem accAt_succ (update : Acc → Instr → Acc) (init : Acc) (program : List Instr)
    (position : Nat) (instr : Instr) (found : program[position]? = some instr) :
    accAt update init program (position + 1) = update (accAt update init program position) instr := by
  unfold accAt
  rw [List.take_add_one, found, Option.toList_some, List.foldl_append]
  rfl

/-- What a scan records. -/
def collect (record : Acc → Instr → List Out) (update : Acc → Instr → Acc) :
    Acc → List Instr → List Out
  | _, [] => []
  | acc, instr :: rest => record acc instr ++ collect record update (update acc instr) rest

/-- A scan records at each instruction with the accumulator before it. -/
theorem mem_collect_iff (record : Acc → Instr → List Out) (update : Acc → Instr → Acc) (init : Acc)
    (program : List Instr) (out : Out) :
    out ∈ collect record update init program ↔
      ∃ position instr, program[position]? = some instr ∧
        out ∈ record (accAt update init program position) instr := by
  induction program generalizing init with
  | nil => simp [collect]
  | cons head rest inductionHypothesis =>
    rw [collect, List.mem_append, inductionHypothesis]
    constructor
    · rintro (here | ⟨position, instr, found, later⟩)
      · exact ⟨0, head, rfl, here⟩
      · exact ⟨position + 1, instr, found, later⟩
    · rintro ⟨position, instr, found, member⟩
      cases position with
      | zero =>
        cases found
        exact Or.inl member
      | succ position => exact Or.inr ⟨position, instr, found, member⟩

/-- What every instruction keeps between the accumulator and the state holds all along a
run from where it holds. -/
theorem holds_along (program : List Instr) (runs : Nat → Instr → State → State → Prop)
    (update : Acc → Instr → Acc) (init : Acc) (start : State) (condition : Point State → Prop)
    (holds : Acc → State → Prop) (initially : holds init start)
    (kept : ∀ point instr after, condition point → program[point.position]? = some instr →
      runs point.position instr point.state after →
      holds (accAt update init program point.position) point.state →
      holds (update (accAt update init program point.position) instr) after)
    (point : Point State)
    (reached : Reaches (Under condition (Step program runs)) ⟨0, start⟩ point) :
    holds (accAt update init program point.position) point.state := by
  induction reached with
  | start => exact initially
  | @next point after before taken inductionHypothesis =>
    obtain ⟨fine, next, instr, found, ran⟩ := taken
    rw [next, accAt_succ update init program point.position instr found]
    exact kept point instr after.state fine found ran inductionHypothesis

end Semasm.Library.StraightLine
