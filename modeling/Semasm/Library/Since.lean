import Mathlib.Tactic.Common

/-!
# What happened since

Positions of a sequence are marked and stopped. At a position something is marked since
an earlier one that is marked and behind which, up to the position, nothing stops it. One
more position either marks anew or goes on with what was marked before, unless it stops.
-/

namespace Semasm.Library

/-- Some earlier position is marked, and none between it and this one stops. -/
def Since (marks stops : Nat → Prop) (position : Nat) : Prop :=
  ∃ start, start < position ∧ marks start ∧ ∀ between, start < between → between < position →
    ¬ stops between

namespace Since

variable {marks stops : Nat → Prop}

theorem not_zero : ¬ Since marks stops 0 := by
  rintro ⟨start, before, _⟩
  exact Nat.not_lt_zero start before

/-- One position more. -/
theorem succ_iff (marks stops : Nat → Prop) (position : Nat) :
    Since marks stops (position + 1) ↔
      marks position ∨ (Since marks stops position ∧ ¬ stops position) := by
  constructor
  · rintro ⟨start, before, marked, free⟩
    rcases Nat.lt_succ_iff_lt_or_eq.mp before with earlier | rfl
    · refine .inr ⟨⟨start, earlier, marked, fun between after inside => ?_⟩, ?_⟩
      · exact free between after (Nat.lt_succ_of_lt inside)
      · exact free position earlier (Nat.lt_succ_self position)
    · exact .inl marked
  · rintro (marked | ⟨⟨start, earlier, marked, free⟩, goesOn⟩)
    · exact ⟨position, Nat.lt_succ_self position, marked, fun between after inside => by omega⟩
    · refine ⟨start, Nat.lt_succ_of_lt earlier, marked, fun between after inside => ?_⟩
      rcases Nat.lt_succ_iff_lt_or_eq.mp inside with within | rfl
      · exact free between after within
      · exact goesOn

/-- More marks and fewer stops. -/
theorem mono {others fewer : Nat → Prop} {position : Nat} (since : Since marks stops position)
    (more : ∀ start, marks start → others start) (less : ∀ between, fewer between → stops between) :
    Since others fewer position := by
  obtain ⟨start, before, marked, free⟩ := since
  exact ⟨start, before, more start marked,
    fun between after inside stopped => free between after inside (less between stopped)⟩

/-- A mark made since another mark. -/
theorem trans {seconds : Nat → Prop} {position : Nat}
    (since : Since (fun start => seconds start ∧ Since marks stops start ∧ ¬ stops start) stops
      position) : Since marks stops position := by
  obtain ⟨middle, before, ⟨_, ⟨start, earlier, marked, free⟩, goesOn⟩, later⟩ := since
  refine ⟨start, Nat.lt_trans earlier before, marked, fun between after inside => ?_⟩
  rcases Nat.lt_trichotomy between middle with first | rfl | second
  · exact free between after first
  · exact goesOn
  · exact later between second inside

end Since

end Semasm.Library
