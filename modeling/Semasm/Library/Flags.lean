/-!
# Flags raised while reading a list

A loop that reads rows and only ever sets flags leaves each flag set exactly
when it was set before or some row sets it. The order of the rows is irrelevant.
-/

namespace Semasm.Library

universe u v

variable {State : Type u} {Row : Type v}

/-- A flag after the loop, when one round sets it for the rows of a predicate. -/
theorem foldl_flag (round : State → Row → State) (flag : State → Bool) (raises : Row → Bool)
    (step : ∀ state row, flag (round state row) = (flag state || raises row)) (state : State)
    (rows : List Row) :
    flag (rows.foldl round state) = (flag state || rows.any raises) := by
  induction rows generalizing state with
  | nil => simp
  | cons row rest inductionHypothesis =>
    rw [List.foldl_cons, inductionHypothesis, step, List.any_cons, Bool.or_assoc]

/-- A flag that is down before the loop is down after it when no row raises it. -/
theorem foldl_flag_eq_false_iff (round : State → Row → State) (flag : State → Bool)
    (raises : Row → Bool)
    (step : ∀ state row, flag (round state row) = (flag state || raises row)) (state : State)
    (down : flag state = false) (rows : List Row) :
    flag (rows.foldl round state) = false ↔ ∀ row ∈ rows, raises row = false := by
  rw [foldl_flag round flag raises step, down, Bool.false_or, List.any_eq_false]
  constructor
  · intro none_ row member
    exact Bool.eq_false_iff.mpr (none_ row member)
  · intro none_ row member
    exact Bool.eq_false_iff.mp (none_ row member)

end Semasm.Library
