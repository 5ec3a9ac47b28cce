import Mathlib.Data.List.Perm.Subperm
import Semasm.Library.Transitions

/-!
# Breadth-first exploration

The nodes reached from a start are marked by a queue: the first node of the queue
is taken out and those of its successors that are not marked yet are marked and
put at its end. With as much fuel as there are nodes the marked nodes are exactly
the reached ones.
-/

namespace Semasm.Library.Exploration

open Transitions

universe u
variable {Node : Type u} [DecidableEq Node]

/-- The nodes whose successors are still to be marked, and all marked nodes. -/
structure Search (Node : Type u) where
  queue : List Node
  marked : List Node

/-- One successor is marked, unless it is marked already. -/
def Search.mark (search : Search Node) (node : Node) : Search Node :=
  if node ∈ search.marked then search
  else ⟨search.queue ++ [node], search.marked ++ [node]⟩

/-- Exploration along a successor function. -/
def explore (next : Node → List Node) : Nat → Search Node → Search Node
  | 0, search => search
  | fuel + 1, search =>
    match search.queue with
    | [] => search
    | node :: rest => explore next fuel ((next node).foldl Search.mark ⟨rest, search.marked⟩)

/-- The nodes marked from a start. -/
def markedFrom (next : Node → List Node) (fuel : Nat) (start : Node) : List Node :=
  (explore next fuel ⟨[start], [start]⟩).marked

/-- What holds of a search: the marked nodes are those done with and those in the
queue, each is reached, and successors of nodes done with are marked. -/
structure Search.Valid (next : Node → List Node) (start : Node) (done : List Node)
    (search : Search Node) : Prop where
  split : search.marked = done ++ search.queue
  started : start ∈ search.marked
  distinct : search.marked.Nodup
  reached : ∀ node ∈ search.marked, Reaches (fun node after => after ∈ next node) start node
  closed : ∀ node ∈ done, ∀ after ∈ next node, after ∈ search.marked

/-- Marking successors appends the fresh ones to both lists. -/
theorem foldl_mark (nodes : List Node) (search : Search Node) (distinct : search.marked.Nodup) :
    ∃ fresh, nodes.foldl Search.mark search = ⟨search.queue ++ fresh, search.marked ++ fresh⟩ ∧
      (search.marked ++ fresh).Nodup ∧ (∀ node ∈ fresh, node ∈ nodes) ∧
      ∀ node ∈ nodes, node ∈ search.marked ++ fresh := by
  induction nodes generalizing search with
  | nil => exact ⟨[], by simp, by simpa using distinct, by simp, by simp⟩
  | cons node nodes inductionHypothesis =>
    rw [List.foldl_cons]
    unfold Search.mark
    by_cases known : node ∈ search.marked
    · rw [if_pos known]
      obtain ⟨fresh, result, nodup, own, all⟩ := inductionHypothesis search distinct
      refine ⟨fresh, result, nodup, fun other member => List.mem_cons_of_mem _ (own other member), ?_⟩
      intro other member
      rcases List.mem_cons.mp member with rfl | later
      · exact List.mem_append_left _ known
      · exact all other later
    · rw [if_neg known]
      have extended : (search.marked ++ [node]).Nodup := by
        rw [List.nodup_append]
        refine ⟨distinct, by simp, ?_⟩
        rintro other member _ single rfl
        obtain rfl := List.mem_singleton.mp single
        exact known member
      obtain ⟨fresh, result, nodup, own, all⟩ := inductionHypothesis
        ⟨search.queue ++ [node], search.marked ++ [node]⟩ extended
      simp only [List.append_assoc, List.singleton_append] at result nodup all
      refine ⟨node :: fresh, result, nodup, ?_, ?_⟩
      · intro other member
        rcases List.mem_cons.mp member with rfl | later
        · simp
        · exact List.mem_cons_of_mem _ (own other later)
      · intro other member
        rcases List.mem_cons.mp member with rfl | later
        · simp
        · exact all other later

/-- Taking the first node out of the queue keeps a search valid. -/
theorem Search.Valid.visit {next : Node → List Node} {start : Node} {done : List Node}
    {node : Node} {rest marked : List Node}
    (valid : (⟨node :: rest, marked⟩ : Search Node).Valid next start done) :
    ((next node).foldl Search.mark ⟨rest, marked⟩).Valid next start (done ++ [node]) := by
  obtain ⟨fresh, result, nodup, own, all⟩ := foldl_mark (next node) ⟨rest, marked⟩ valid.distinct
  rw [result]
  have split : marked = done ++ node :: rest := valid.split
  have reachedNode := valid.reached node (by simp [split])
  refine ⟨by simp [split], List.mem_append_left _ valid.started, nodup, ?_, ?_⟩
  · intro other member
    rcases List.mem_append.mp member with before | new
    · exact valid.reached other before
    · exact .next reachedNode (own other new)
  · intro other member after follows
    rcases List.mem_append.mp member with before | last
    · exact List.mem_append_left _ (valid.closed other before after follows)
    · obtain rfl := List.mem_singleton.mp last
      exact all after follows

/-- Enough fuel empties the queue of a valid search. -/
theorem explore_valid (next : Node → List Node) (start : Node) (nodes : List Node)
    (member : start ∈ nodes) (stays : ∀ node ∈ nodes, ∀ after ∈ next node, after ∈ nodes)
    (fuel : Nat) (done : List Node) (search : Search Node) (valid : search.Valid next start done)
    (enough : nodes.length ≤ fuel + done.length) :
    (explore next fuel search).queue = [] ∧
      ∃ finished, (explore next fuel search).Valid next start finished := by
  induction fuel generalizing done search with
  | zero =>
    have inside : search.marked ⊆ nodes := by
      intro node marked
      apply (valid.reached node marked).invariant (· ∈ nodes) member
      intro before after _ held follows
      exact stays before held after follows
    have bound := (List.Nodup.subperm valid.distinct inside).length_le
    rw [valid.split, List.length_append] at bound
    have empty : search.queue.length = 0 := by omega
    exact ⟨List.length_eq_zero_iff.mp empty, done, valid⟩
  | succ fuel inductionHypothesis =>
    obtain ⟨queue, marked⟩ := search
    cases queue with
    | nil => exact ⟨rfl, done, valid⟩
    | cons node rest =>
      apply inductionHypothesis (done ++ [node]) _ valid.visit
      rw [List.length_append, List.length_singleton]
      omega

/-- Exploration with enough fuel marks exactly the reached nodes. -/
theorem mem_markedFrom_iff (next : Node → List Node) (start : Node) (nodes : List Node)
    (member : start ∈ nodes) (stays : ∀ node ∈ nodes, ∀ after ∈ next node, after ∈ nodes)
    (fuel : Nat) (enough : nodes.length ≤ fuel) (node : Node) :
    node ∈ markedFrom next fuel start ↔
      Reaches (fun node after => after ∈ next node) start node := by
  have initial : (⟨[start], [start]⟩ : Search Node).Valid next start [] :=
    ⟨rfl, by simp, by simp, by
      intro other single
      obtain rfl := List.mem_singleton.mp single
      exact .start, by simp⟩
  obtain ⟨empty, done, valid⟩ := explore_valid next start nodes member stays fuel [] _ initial
    (by simpa using enough)
  constructor
  · exact valid.reached node
  · intro reached
    apply reached.invariant (· ∈ markedFrom next fuel start) valid.started
    intro before after _ marked follows
    have finished := valid.split
    rw [empty, List.append_nil] at finished
    exact valid.closed before (finished ▸ marked) after follows

end Semasm.Library.Exploration
