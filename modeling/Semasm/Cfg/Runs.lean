import Semasm.Cfg.Resolution
import Semasm.Library.LastMatch
import Semasm.Library.Segments

/-!
# The blocks of the first pass

The first pass cuts the instructions in address order behind each terminator. So
its blocks are the images of the segments of the sorted list, and the two maps of
the builder are read back from the entries that fill them.
-/

namespace Semasm.Cfg

open Decode Library

/-- The instruction closes its block. -/
def terminates (ins : PhysicalInstruction) : Bool := (classify ins).isTerminator

/-- The runs of the instructions: cut, in address order, behind each terminator. -/
def runs (instructions : List PhysicalInstruction) : List (List Indexed) :=
  Segments.segments (fun entry => terminates entry.1) (order instructions)

/-- The edges that one instruction contributes. -/
def entryEdges (lookup : UInt64 → Option Nat) (sorted : List Indexed) (entry : Indexed) : List Edge :=
  instructionEdges lookup sorted entry.2 (classify entry.1)

/-- The block of a run, given its first and its last instruction. -/
def blockOfRun (lookup : UInt64 → Option Nat) (sorted : List Indexed) (run : List Indexed)
    (first last : Indexed) : BlockBuilder :=
  { startInstruction := first.2
    endInstruction := last.2 + 1
    startAddress := first.1.address
    endAddress := last.1.address
    successors := run.flatMap (entryEdges lookup sorted)
    blockEnd := classify last.1 }

/-- The block is the one of the run. -/
def OfRun (lookup : UInt64 → Option Nat) (sorted : List Indexed) (run : List Indexed)
    (block : BlockBuilder) : Prop :=
  ∃ first last, run.head? = some first ∧ run.getLast? = some last ∧
    block = blockOfRun lookup sorted run first last

/-- What holds of the pass before the rest of the instructions: the block being
grown is the one of the open entries. -/
def Pass.Grows (lookup : UInt64 → Option Nat) (sorted : List Indexed) (opened : List Indexed)
    (pass : Pass) : Prop :=
  (∀ entry ∈ opened, terminates entry.1 = false) ∧
    match pass.current with
    | none => opened = []
    | some block => OfRun lookup sorted opened block

/-- One instruction joins the open run. -/
theorem Pass.step_grown (lookup : UInt64 → Option Nat) (sorted opened : List Indexed) (pass : Pass)
    (entry : Indexed) (grows : pass.Grows lookup sorted opened) :
    ∃ block, OfRun lookup sorted (opened ++ [entry]) block ∧
      pass.step lookup sorted entry =
        if terminates entry.1 then ⟨pass.blocks ++ [block], none⟩ else ⟨pass.blocks, some block⟩ := by
  obtain ⟨_, current⟩ := grows
  unfold Pass.step
  cases held : pass.current with
  | none =>
    rw [held] at current
    have empty : opened = [] := current
    subst empty
    refine ⟨blockOfRun lookup sorted [entry] entry entry, ⟨entry, entry, rfl, rfl, rfl⟩, ?_⟩
    simp only [terminates, Option.getD_none, BlockBuilder.new, blockOfRun, entryEdges,
      List.nil_append, List.flatMap_cons, List.flatMap_nil, List.append_nil]
  | some block =>
    rw [held] at current
    obtain ⟨first, last, head, _, rfl⟩ := current
    refine ⟨blockOfRun lookup sorted (opened ++ [entry]) first entry,
      ⟨first, entry, by simp [head], by simp, rfl⟩, ?_⟩
    simp only [terminates, Option.getD_some, blockOfRun, entryEdges, List.flatMap_append,
      List.flatMap_cons, List.flatMap_nil, List.append_nil]

/-- The pass over the rest of the instructions closes the remaining runs. -/
theorem Pass.run_blocks (lookup : UInt64 → Option Nat) (sorted opened rest : List Indexed)
    (pass : Pass) (grows : pass.Grows lookup sorted opened) :
    ∃ closed, List.Forall₂ (OfRun lookup sorted)
        (Segments.segments (fun entry => terminates entry.1) (opened ++ rest)) closed ∧
      (rest.foldl (Pass.step lookup sorted) pass).blocks ++
        (rest.foldl (Pass.step lookup sorted) pass).current.toList = pass.blocks ++ closed := by
  induction rest generalizing opened pass with
  | nil =>
    obtain ⟨stays, current⟩ := grows
    rw [List.append_nil, Segments.segments_open _ opened stays, List.foldl_nil]
    cases held : pass.current with
    | none =>
      rw [held] at current
      have empty : opened = [] := current
      subst empty
      exact ⟨[], .nil, rfl⟩
    | some block =>
      rw [held] at current
      obtain ⟨first, last, head, ends, shape⟩ := current
      have inhabited : opened ≠ [] := by
        rintro rfl
        cases head
      exact ⟨[block], by simpa [inhabited] using ⟨first, last, head, ends, shape⟩, rfl⟩
  | cons entry rest inductionHypothesis =>
    obtain ⟨block, own, stepped⟩ := pass.step_grown lookup sorted opened entry grows
    rw [List.foldl_cons, stepped]
    cases closes : terminates entry.1 with
    | true =>
      obtain ⟨closed, shape, result⟩ := inductionHypothesis [] ⟨pass.blocks ++ [block], none⟩
        ⟨by simp, rfl⟩
      rw [Segments.segments_closed _ opened entry rest grows.1 closes]
      refine ⟨block :: closed, .cons own shape, ?_⟩
      simpa using result
    | false =>
      have stays : ∀ other ∈ opened ++ [entry], terminates other.1 = false := by
        intro other member
        rcases List.mem_append.mp member with before | last
        · exact grows.1 other before
        · obtain rfl := List.mem_singleton.mp last
          exact closes
      obtain ⟨closed, shape, result⟩ := inductionHypothesis (opened ++ [entry])
        ⟨pass.blocks, some block⟩ ⟨stays, own⟩
      rw [List.append_assoc, List.singleton_append] at shape
      exact ⟨closed, shape, by simpa using result⟩

/-- The blocks of the first pass are the blocks of the runs. -/
theorem firstPass_runs (instructions : List PhysicalInstruction) :
    List.Forall₂ (OfRun (addrToInstr instructions) (order instructions)) (runs instructions)
      (firstPass instructions) := by
  obtain ⟨closed, shape, result⟩ := Pass.run_blocks (addrToInstr instructions) (order instructions) []
    (order instructions) ⟨[], none⟩ ⟨by simp, rfl⟩
  have same : firstPass instructions = closed := by simpa [firstPass] using result
  rw [same]
  exact shape

/-- Related lists, place by place. -/
theorem related_at {α β : Type} {related : α → β → Prop} {left : List α} {right : List β}
    (pairs : List.Forall₂ related left right) (index : Nat) :
    (left[index]? = none ∧ right[index]? = none) ∨
      ∃ one two, left[index]? = some one ∧ right[index]? = some two ∧ related one two := by
  induction pairs generalizing index with
  | nil => exact Or.inl ⟨rfl, rfl⟩
  | cons own _ inductionHypothesis =>
    cases index with
    | zero => exact Or.inr ⟨_, _, rfl, rfl, own⟩
    | succ index => exact inductionHypothesis index

/-- A run and its block have one place. -/
theorem firstPass_at (instructions : List PhysicalInstruction) (index : Nat) :
    ((runs instructions)[index]? = none ∧ (firstPass instructions)[index]? = none) ∨
      ∃ run first last, (runs instructions)[index]? = some run ∧ run.head? = some first ∧
        run.getLast? = some last ∧ (firstPass instructions)[index]? = some
          (blockOfRun (addrToInstr instructions) (order instructions) run first last) := by
  rcases related_at (firstPass_runs instructions) index with absent | ⟨run, block, held, built, own⟩
  · exact Or.inl absent
  · obtain ⟨first, last, head, ends, rfl⟩ := own
    exact Or.inr ⟨run, first, last, held, head, ends, built⟩

end Semasm.Cfg
