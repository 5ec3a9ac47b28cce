import Semasm.Cfg.Runs
import Semasm.Library.Exploration

/-!
# Blocks that are not reached

The report follows the resolved edges breadth-first from the entry block and lists
the blocks that were not marked.
-/

namespace Semasm.Cfg

open Decode Library Transitions Exploration

/-- The blocks the resolved edges of a block lead to. -/
def ControlFlowGraph.next (graph : ControlFlowGraph) (index : Nat) : List Nat :=
  match graph.blocks[index]? with
  | some block => block.successors.filterMap Edge.target
  | none => []

/-- `unreachable_blocks`: the indices of blocks not reached from the entry block. -/
def ControlFlowGraph.unreachableBlocks (graph : ControlFlowGraph) : List Nat :=
  let marked := markedFrom graph.next graph.blocks.length graph.entryBlock
  (List.range graph.blocks.length).filter (fun index => !marked.contains index)

/-- Every resolved edge and the entry name blocks of the graph. -/
structure ControlFlowGraph.Closed (graph : ControlFlowGraph) : Prop where
  entry : graph.entryBlock < graph.blocks.length
  edges : ∀ (index : Nat) block, graph.blocks[index]? = some block →
    ∀ edge ∈ block.successors, ∀ target, edge.target = some target → target < graph.blocks.length

/-- The report lists exactly the blocks no path of resolved edges leads to. -/
theorem ControlFlowGraph.Closed.mem_unreachableBlocks_iff {graph : ControlFlowGraph}
    (closed : graph.Closed) (index : Nat) :
    index ∈ graph.unreachableBlocks ↔ index < graph.blocks.length ∧
      ¬ Reaches (fun index after => after ∈ graph.next index) graph.entryBlock index := by
  have stays : ∀ index ∈ List.range graph.blocks.length, ∀ after ∈ graph.next index,
      after ∈ List.range graph.blocks.length := by
    intro index _ after follows
    unfold ControlFlowGraph.next at follows
    cases found : graph.blocks[index]? with
    | none => simp [found] at follows
    | some block =>
      simp only [found] at follows
      obtain ⟨edge, member, leads⟩ := List.mem_filterMap.mp follows
      exact List.mem_range.mpr (closed.edges index block found edge member after leads)
  have marked := mem_markedFrom_iff graph.next graph.entryBlock (List.range graph.blocks.length)
    (List.mem_range.mpr closed.entry) stays graph.blocks.length (by simp) index
  unfold ControlFlowGraph.unreachableBlocks
  simp only [List.mem_filter, List.mem_range, Bool.not_eq_true', List.contains_iff_mem,
    ← Bool.not_eq_true, marked]

/-- The block map names blocks of the list. -/
theorem instrToBlock_bound (blocks : List BlockBuilder) (place index : Nat)
    (found : instrToBlock blocks place = some index) : index < blocks.length := by
  obtain ⟨entry, member, _, rfl⟩ := LastMatch.foldl_found
    (fun (entry : BlockBuilder × Nat) place =>
      entry.1.startInstruction ≤ place ∧ place < entry.1.endInstruction)
    Prod.snd blocks.zipIdx place index found
  exact (List.getElem?_eq_some_iff.mp (List.mem_zipIdx_iff_getElem?.mp member)).1

/-- The entry block is a block of the list. -/
theorem entryBlock_mem (blocks : List Block) (inhabited : blocks ≠ []) :
    ∃ block ∈ blocks, block.index = entryBlock blocks := by
  cases blocks with
  | nil => exact absurd rfl inhabited
  | cons first rest =>
    have chosen : ∀ (rest : List Block) (best : Block),
        (rest.foldl (fun best next => if next.startAddress < best.startAddress then next else best)
          best) ∈ best :: rest := by
      intro rest
      induction rest with
      | nil => simp
      | cons next rest inductionHypothesis =>
        intro best
        have later := inductionHypothesis
          (if next.startAddress < best.startAddress then next else best)
        rw [List.foldl_cons]
        rcases List.mem_cons.mp later with same | inside
        · rw [same]
          split <;> simp
        · simp [inside]
    exact ⟨_, chosen rest first, rfl⟩

/-- The resolved edges and the entry of a built graph name blocks of the graph. -/
theorem build_closed (instructions : List PhysicalInstruction) (graph : ControlFlowGraph)
    (built : build instructions = .ok graph) : graph.Closed := by
  have shape : graph.blocks = (firstPass instructions).zipIdx.map
      (resolveBlock (instrToBlock (firstPass instructions))) ∧
      graph.entryBlock = entryBlock graph.blocks ∧ instructions ≠ [] := by
    unfold build at built
    split at built
    · cases built
    · rename_i inhabited
      cases built
      exact ⟨rfl, rfl, by simpa using inhabited⟩
  obtain ⟨blocks, entry, inhabited⟩ := shape
  have count : graph.blocks.length = (firstPass instructions).length := by
    rw [blocks, List.length_map, List.length_zipIdx]
  have own : ∀ block ∈ graph.blocks, ∃ builder index, (builder, index) ∈ (firstPass instructions).zipIdx ∧
      block = resolveBlock (instrToBlock (firstPass instructions)) (builder, index) := by
    intro block member
    rw [blocks] at member
    obtain ⟨⟨builder, index⟩, inside, rfl⟩ := List.mem_map.mp member
    exact ⟨builder, index, inside, rfl⟩
  constructor
  · have some : graph.blocks ≠ [] := by
      intro none
      have absent : firstPass instructions = [] := by
        rw [← List.length_eq_zero_iff, ← count, none]
        rfl
      have runs_nil : runs instructions = [] := by
        rw [← List.length_eq_zero_iff, (firstPass_runs instructions).length_eq, absent]
        rfl
      have places := congrArg List.length
        (Segments.flatten_segments (fun (entry : Indexed) => terminates entry.1) (order instructions))
      have empty : runs instructions = Segments.segments (fun entry => terminates entry.1)
        (order instructions) := rfl
      rw [← empty, runs_nil, order, List.length_insertionSort, List.length_zipIdx] at places
      exact inhabited (List.length_eq_zero_iff.mp places.symm)
    obtain ⟨block, member, same⟩ := entryBlock_mem graph.blocks some
    obtain ⟨builder, index, inside, rfl⟩ := own block member
    rw [entry, ← same, count]
    exact (List.getElem?_eq_some_iff.mp (List.mem_zipIdx_iff_getElem?.mp inside)).1
  · intro index block found edge member target leads
    obtain ⟨builder, place, _, rfl⟩ := own block (List.mem_of_getElem? found)
    obtain ⟨original, _, rfl⟩ := List.mem_map.mp member
    obtain ⟨reached, _, known⟩ := Option.bind_eq_some_iff.mp leads
    rw [count]
    exact instrToBlock_bound _ reached target known

end Semasm.Cfg
