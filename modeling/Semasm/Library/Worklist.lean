import Mathlib.Logic.Function.Basic

/-!
# Worklist iteration

Each node has a value, and an equation computes it from the values of all nodes.
A node is settled when its value is what its equation computes. Visiting a node
gives it that value; as long as every node whose equation may see the change is
pending afterwards, the nodes that are not pending stay settled. So when nothing
is pending any more, the equations hold.
-/

namespace Semasm.Library.Worklist

universe u v
variable {Node : Type u} {Value : Type v} [DecidableEq Node]
variable (compute : (Node → Value) → Node → Value)

/-- The value of a node is the computed one. -/
def Settled (values : Node → Value) (node : Node) : Prop := values node = compute values node

/-- A change at one node is not seen by the equation of another. -/
def Ignores (source node : Node) : Prop :=
  ∀ values value, compute (Function.update values source value) node = compute values node

/-- The values after a visit. -/
def visit (values : Node → Value) (node : Node) : Node → Value :=
  Function.update values node (compute values node)

/-- Visiting a node that is settled changes nothing. -/
theorem visit_settled (values : Node → Value) (node : Node) (settled : Settled compute values node) :
    visit compute values node = values := by
  rw [visit, ← settled, Function.update_eq_self]

/-- After a visit the nodes that are not pending are settled. -/
theorem settled_visit (values : Node → Value) (node : Node) (before after : Node → Prop)
    (settled : ∀ other, ¬ before other → Settled compute values other)
    (stays : ∀ other, before other → other = node ∨ after other)
    (pushed : ∀ other, ¬ Settled compute values node → ¬ after other → Ignores compute node other) :
    ∀ other, ¬ after other → Settled compute (visit compute values node) other := by
  intro other done
  by_cases unchanged : Settled compute values node
  · rw [visit_settled compute values node unchanged]
    by_cases same : other = node
    · rw [same]
      exact unchanged
    · exact settled other (fun waits => done ((stays other waits).resolve_left same))
  · have ignored := pushed other unchanged done
    unfold Settled visit
    rw [ignored]
    by_cases same : other = node
    · subst same
      exact Function.update_self _ _ _
    · rw [Function.update_of_ne same]
      exact settled other (fun waits => done ((stays other waits).resolve_left same))

end Semasm.Library.Worklist
