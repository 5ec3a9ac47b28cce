/-!
# Runs of a transition relation

The states a relation reaches from a start, and the rule that carries an
invariant along every run. `Under` restricts a relation to steps taken from
states that meet a condition: what holds of all its runs holds of every run
whose steps all meet the condition.
-/

namespace Semasm.Library.Transitions

universe u
variable {State : Type u}

/-- The states reached from a start. -/
inductive Reaches (step : State → State → Prop) (start : State) : State → Prop
  | start : Reaches step start start
  | next {state after : State} (before : Reaches step start state) (taken : step state after) :
      Reaches step start after

/-- The steps taken from states that meet a condition. -/
def Under (condition : State → Prop) (step : State → State → Prop) (state after : State) : Prop :=
  condition state ∧ step state after

/-- What holds at the start and is kept by every step from a reached state holds
of every reached state. -/
theorem Reaches.invariant {step : State → State → Prop} {start : State}
    (holds : State → Prop) (initially : holds start)
    (kept : ∀ state after, Reaches step start state → holds state → step state after → holds after)
    {state : State} (reached : Reaches step start state) : holds state := by
  induction reached with
  | start => exact initially
  | next before taken inductionHypothesis => exact kept _ _ before inductionHypothesis taken

/-- A run of a relation is one of every relation that allows its steps. -/
theorem Reaches.mono {step other : State → State → Prop} {start : State}
    (allows : ∀ state after, step state after → other state after) {state : State}
    (reached : Reaches step start state) : Reaches other start state := by
  induction reached with
  | start => exact .start
  | next before taken inductionHypothesis => exact .next inductionHypothesis (allows _ _ taken)

end Semasm.Library.Transitions
