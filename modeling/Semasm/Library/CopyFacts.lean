import Mathlib.Data.List.Induction
import Mathlib.Logic.Function.Basic
import Mathlib.Tactic.SplitIfs

/-!
# Facts about copied values

Facts attribute to some cells the name of a value they still hold. A step may keep
the facts, forget one cell or copy the fact of a cell to another. The facts stay true
as long as every fact after a step is one the step carried over: some cell had it before
and the value has come from there.

`follow` is a tracker that sees of a step its first two cells and how it is taken: as a
move, as an adjustment that keeps pointing to the same object, as an overwriting of the
first cell, or as none of these. One cell is the constant zero.
-/

namespace Semasm.Library.CopyFacts

universe u v w
variable {Cell : Type u} {Name : Type v} {Value : Type w}

/-- Every cell with a fact holds the named value. -/
def Hold (entry : Name → Value) (facts : Cell → Option Name) (cells : Cell → Value) : Prop :=
  ∀ cell name, facts cell = some name → cells cell = entry name

/-- Every fact afterwards was the fact of a cell whose value has come here. -/
def Carried (facts later : Cell → Option Name) (before after : Cell → Value) : Prop :=
  ∀ cell name, later cell = some name →
    ∃ source, facts source = some name ∧ after cell = before source

/-- Carried facts stay true. -/
theorem Hold.carried {entry : Name → Value} {facts later : Cell → Option Name}
    {before after : Cell → Value} (held : Hold entry facts before)
    (carried : Carried facts later before after) : Hold entry later after := by
  intro cell name known
  obtain ⟨source, had, moved⟩ := carried cell name known
  rw [moved]
  exact held source name had

/-- Facts are carried over by a step that changes no cell with a fact. -/
theorem Carried.kept {facts : Cell → Option Name} {before after : Cell → Value}
    (same : ∀ cell name, facts cell = some name → after cell = before cell) :
    Carried facts facts before after :=
  fun cell name known => ⟨cell, known, same cell name known⟩

section Updates

variable [DecidableEq Cell]

/-- A changed cell may be forgotten. -/
theorem Carried.forgotten {facts : Cell → Option Name} {before after : Cell → Value} (target : Cell)
    (same : ∀ cell name, cell ≠ target → facts cell = some name → after cell = before cell) :
    Carried facts (Function.update facts target none) before after := by
  intro cell name known
  by_cases written : cell = target
  · subst written
    rw [Function.update_self] at known
    cases known
  · rw [Function.update_of_ne written] at known
    exact ⟨cell, known, same cell name written known⟩

/-- A cell may take over the fact of the cell its value has come from. -/
theorem Carried.copied {facts : Cell → Option Name} {before after : Cell → Value}
    (target source : Cell)
    (moved : ∀ name, facts source = some name → after target = before source)
    (same : ∀ cell name, cell ≠ target → facts cell = some name → after cell = before cell) :
    Carried facts (Function.update facts target (facts source)) before after := by
  intro cell name known
  by_cases written : cell = target
  · subst written
    rw [Function.update_self] at known
    exact ⟨source, known, moved name known⟩
  · rw [Function.update_of_ne written] at known
    exact ⟨cell, known, same cell name written known⟩

/-- How a tracker takes a step. -/
inductive Arm where
  | move | adjust | overwrite | other
deriving DecidableEq, Repr

/-- The facts after a step with these first two cells. -/
def follow (zero : Cell) (arm : Arm) (first second : Option Cell) (facts : Cell → Option Name) :
    Cell → Option Name :=
  match arm, first with
  | .move, some target =>
    if target = zero then facts
    else
      match second with
      | some source =>
        if source = zero then Function.update facts target none
        else Function.update facts target (facts source)
      | none => Function.update facts target none
  | .adjust, some target =>
    match second with
    | some source =>
      match facts source with
      | some name => Function.update facts target (some name)
      | none => facts
    | none => facts
  | .overwrite, some target => if target = zero then facts else Function.update facts target none
  | _, _ => facts

/-- A tracker carries the facts over when moves copy, adjustments concern no cell with a
fact, and every other cell with a fact that is not the first one keeps its value. -/
theorem follow_carried {facts : Cell → Option Name} {before after : Cell → Value} (zero : Cell)
    (arm : Arm) (first second : Option Cell) (constant : after zero = before zero)
    (copies : arm = .move → ∀ target source name, first = some target → target ≠ zero →
      second = some source → facts source = some name → after target = before source)
    (unadjusted : arm = .adjust → ∀ target, first = some target → facts target = none ∧
      ∀ source, second = some source → facts source = none)
    (untouched : arm = .other → ∀ cell name, facts cell = some name → after cell = before cell)
    (others : ∀ cell name, first ≠ some cell → facts cell = some name → after cell = before cell) :
    Carried facts (follow zero arm first second facts) before after := by
  have keptFor : (∀ cell name, facts cell = some name → first = some cell → cell = zero) →
      Carried facts facts before after := by
    intro only
    refine Carried.kept (fun cell name known => ?_)
    by_cases written : first = some cell
    · rw [only cell name known written]
      exact constant
    · exact others cell name written known
  have keptNone : first = none → Carried facts facts before after := by
    rintro rfl
    exact keptFor (fun _ _ _ again => by cases again)
  have apart : ∀ target, first = some target → ∀ cell name, cell ≠ target →
      facts cell = some name → after cell = before cell := by
    rintro target rfl cell name different known
    exact others cell name (fun same => different (Option.some.inj same).symm) known
  cases first with
  | none =>
    have unchanged : follow zero arm none second facts = facts := by cases arm <;> rfl
    rw [unchanged]
    exact keptNone rfl
  | some target =>
    have keptZero : target = zero → Carried facts facts before after := by
      rintro rfl
      exact keptFor (fun cell _ _ again => (Option.some.inj again).symm)
    cases arm with
    | move =>
      simp only [follow]
      split_ifs with isZero
      · exact keptZero isZero
      · cases second with
        | none => exact Carried.forgotten target (apart target rfl)
        | some source =>
          simp only
          split_ifs
          · exact Carried.forgotten target (apart target rfl)
          · exact Carried.copied target source
              (fun name known => copies rfl target source name rfl isZero rfl known)
              (apart target rfl)
    | adjust =>
      obtain ⟨target', sources⟩ := unadjusted rfl target rfl
      have kept : Carried facts facts before after := by
        refine keptFor (fun cell name known again => ?_)
        rw [← Option.some.inj again, target'] at known
        cases known
      cases second with
      | none => exact kept
      | some source =>
        simp only [follow, sources source rfl]
        exact kept
    | overwrite =>
      simp only [follow]
      split_ifs with isZero
      · exact keptZero isZero
      · exact Carried.forgotten target (apart target rfl)
    | other => exact Carried.kept (untouched rfl)

/-- The facts of a list of named cells, the last one of a cell counting. -/
def seeded (named : List (Cell × Name)) : Cell → Option Name :=
  named.foldl (fun facts pair => Function.update facts pair.1 (some pair.2)) (fun _ => none)

/-- A seeded fact comes from the list. -/
theorem mem_of_seeded (named : List (Cell × Name)) (cell : Cell) (name : Name)
    (known : seeded named cell = some name) : (cell, name) ∈ named := by
  induction named using List.reverseRecOn with
  | nil => cases known
  | append_singleton named pair inductionHypothesis =>
    rw [seeded, List.foldl_append, List.foldl_cons, List.foldl_nil] at known
    by_cases written : cell = pair.1
    · subst written
      rw [Function.update_self] at known
      cases known
      simp
    · rw [Function.update_of_ne written] at known
      exact List.mem_append_left _ (inductionHypothesis known)

/-- Seeded facts hold where the named cells hold the named values. -/
theorem hold_seeded (entry : Name → Value) (named : List (Cell × Name)) (cells : Cell → Value)
    (agrees : ∀ pair ∈ named, cells pair.1 = entry pair.2) : Hold entry (seeded named) cells :=
  fun cell name known => agrees (cell, name) (mem_of_seeded named cell name known)

end Updates

end Semasm.Library.CopyFacts
