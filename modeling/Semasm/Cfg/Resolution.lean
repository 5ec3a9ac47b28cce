import Semasm.Cfg.Build
import Semasm.Library.LastMatch

/-!
# Resolved branch targets

Every terminator of the instruction list closes a block, and the end of that
block names the block of the instruction at the printed target, when there is
one. The edges a block collects before its terminator all come from calls, so
the target is read back from the right edge.
-/

namespace Semasm.Cfg

open Decode Library

/-- An address at which some instruction of the list starts. -/
def Lands (instructions : List PhysicalInstruction) (address : UInt64) : Prop :=
  ∃ instruction ∈ instructions, instruction.address = address

instance (instructions : List PhysicalInstruction) (address : UInt64) :
    Decidable (Lands instructions address) :=
  inferInstanceAs (Decidable (∃ instruction ∈ instructions, instruction.address = address))

/-- An address found in the map is the address of an instruction. -/
theorem lands_of_addrToInstr (instructions : List PhysicalInstruction) (address : UInt64)
    (index : Nat) (found : addrToInstr instructions address = some index) :
    Lands instructions address := by
  obtain ⟨entry, member, same, _⟩ := LastMatch.foldl_found
    (fun (entry : Indexed) address => address = entry.1.address) Prod.snd instructions.zipIdx address
    index found
  exact ⟨entry.1, List.fst_mem_of_mem_zipIdx member, same.symm⟩

/-- A block that was closed by this instruction, after edges of calls only. -/
def ClosedBy (lookup : UInt64 → Option Nat) (sorted : List Indexed) (block : BlockBuilder)
    (entry : Indexed) : Prop :=
  block.blockEnd = classify entry.1 ∧
    ∃ calls, block.successors =
        calls ++ instructionEdges lookup sorted entry.2 (classify entry.1) ∧
      ∀ edge ∈ calls, edge.kind = .call

/-- What holds of the first pass after the instructions `done`. -/
structure Pass.Valid (lookup : UInt64 → Option Nat) (sorted done : List Indexed)
    (pass : Pass) : Prop where
  closed : ∀ entry ∈ done, (classify entry.1).isTerminator = true →
    ∃ block ∈ pass.blocks, ClosedBy lookup sorted block entry
  growing : ∀ block, pass.current = some block → ∀ edge ∈ block.successors, edge.kind = .call

/-- An instruction that does not end its block contributes edges of calls only. -/
theorem instructionEdges_call (lookup : UInt64 → Option Nat) (sorted : List Indexed) (i : Nat)
    (role : BlockEnd) (continues : role.isTerminator = false) :
    ∀ edge ∈ instructionEdges lookup sorted i role, edge.kind = .call := by
  cases role with
  | fallthrough => simp [instructionEdges]
  | call target address => cases address <;> simp [instructionEdges]
  | unconditionalBranch target address => simp [BlockEnd.isTerminator] at continues
  | conditionalBranch taken takenAddress => simp [BlockEnd.isTerminator] at continues
  | ret => simp [BlockEnd.isTerminator] at continues
  | indirect => simp [BlockEnd.isTerminator] at continues
  | unknown => simp [BlockEnd.isTerminator] at continues

theorem Pass.step_valid (lookup : UInt64 → Option Nat) (sorted done : List Indexed) (pass : Pass)
    (entry : Indexed) (valid : pass.Valid lookup sorted done) :
    (pass.step lookup sorted entry).Valid lookup sorted (done ++ [entry]) := by
  have opened : ∀ edge ∈ (pass.current.getD (.new entry.2 entry.1.address)).successors,
      edge.kind = .call := by
    cases current : pass.current with
    | none => simp [BlockBuilder.new]
    | some block => exact valid.growing block current
  unfold Pass.step
  by_cases terminates : (classify entry.1).isTerminator = true
  · simp only [terminates, if_true]
    constructor
    · intro other member terminator
      rcases List.mem_append.mp member with earlier | last
      · obtain ⟨block, inside, closed⟩ := valid.closed other earlier terminator
        exact ⟨block, List.mem_append_left _ inside, closed⟩
      · obtain rfl := List.mem_singleton.mp last
        exact ⟨_, List.mem_append_right _ (List.mem_singleton.mpr rfl), rfl, _, rfl, opened⟩
    · intro block absurd
      cases absurd
  · simp only [terminates, Bool.false_eq_true, if_false]
    constructor
    · intro other member terminator
      rcases List.mem_append.mp member with earlier | last
      · exact valid.closed other earlier terminator
      · obtain rfl := List.mem_singleton.mp last
        exact absurd terminator terminates
    · intro block grown edge member
      obtain rfl := Option.some.inj grown
      rcases List.mem_append.mp member with before | own
      · exact opened edge before
      · exact instructionEdges_call lookup sorted entry.2 _
          (Bool.not_eq_true _ ▸ terminates) edge own

/-- The pass over a list of instructions. -/
theorem Pass.run_valid (lookup : UInt64 → Option Nat) (sorted done rest : List Indexed)
    (pass : Pass) (valid : pass.Valid lookup sorted done) :
    (rest.foldl (Pass.step lookup sorted) pass).Valid lookup sorted (done ++ rest) := by
  induction rest generalizing done pass with
  | nil => simpa using valid
  | cons entry rest inductionHypothesis =>
    have next := inductionHypothesis (done ++ [entry]) _ (step_valid lookup sorted done pass entry valid)
    simpa using next

/-- Every terminator closes a block of the first pass. -/
theorem firstPass_closes (instructions : List PhysicalInstruction)
    (instruction : PhysicalInstruction) (member : instruction ∈ instructions)
    (terminates : (classify instruction).isTerminator = true) :
    ∃ block ∈ firstPass instructions, ∃ index,
      ClosedBy (addrToInstr instructions) (order instructions) block (instruction, index) := by
  obtain ⟨index, inside, rfl⟩ := List.mem_iff_getElem.mp member
  have indexed : (instructions[index], index) ∈ order instructions := by
    simp only [order, List.mem_insertionSort]
    exact List.mem_zipIdx_iff_getElem?.mpr (by simp)
  have start : (⟨[], none⟩ : Pass).Valid (addrToInstr instructions) (order instructions) [] :=
    ⟨by simp, by simp⟩
  have finished := Pass.run_valid _ _ [] (order instructions) _ start
  obtain ⟨block, closed, closedBy⟩ := finished.closed _ (by simpa using indexed) terminates
  exact ⟨block, List.mem_append_left _ closed, index, closedBy⟩

/-- Edges of calls do not change the target of another kind. -/
theorem lastTarget_after_calls (kind : EdgeKind) (other : kind ≠ .call) (calls rest : List Edge)
    (calling : ∀ edge ∈ calls, edge.kind = .call) :
    lastTarget kind (calls ++ rest) = lastTarget kind rest := by
  unfold lastTarget
  rw [List.foldl_append]
  congr 1
  induction calls with
  | nil => rfl
  | cons edge calls inductionHypothesis =>
    have call := calling edge (by simp)
    rw [List.foldl_cons, call, if_neg (fun same => other same.symm)]
    exact inductionHypothesis (fun edge member => calling edge (by simp [member]))

/-- The end of a block that a branch with this role closes, given the block of
each address. -/
def resolvedEnd (blockAt : UInt64 → Option Nat) : BlockEnd → BlockEnd
  | .unconditionalBranch _ address => .unconditionalBranch (blockAt address) address
  | .conditionalBranch _ takenAddress => .conditionalBranch (blockAt takenAddress) takenAddress
  | other => other

/-- The block that the instruction at an address belongs to. -/
def blockAt (instructions : List PhysicalInstruction) (address : UInt64) : Option Nat :=
  (addrToInstr instructions address).bind (instrToBlock (firstPass instructions))

/-- Every terminator of the list closes a block of the graph, whose end names the
block at the printed target. -/
theorem build_terminator (instructions : List PhysicalInstruction) (graph : ControlFlowGraph)
    (built : build instructions = .ok graph) (instruction : PhysicalInstruction)
    (member : instruction ∈ instructions)
    (terminates : (classify instruction).isTerminator = true) :
    ∃ block ∈ graph.blocks,
      block.blockEnd = resolvedEnd (blockAt instructions) (classify instruction) := by
  obtain ⟨block, inside, index, role, calls, edges, calling⟩ :=
    firstPass_closes instructions instruction member terminates
  obtain ⟨position, bound, rfl⟩ := List.mem_iff_getElem.mp inside
  have blocks : graph.blocks = (firstPass instructions).zipIdx.map
      (resolveBlock (instrToBlock (firstPass instructions))) := by
    unfold build at built
    split at built
    · cases built
    · exact congrArg ControlFlowGraph.blocks (Except.ok.inj built).symm
  refine ⟨resolveBlock (instrToBlock (firstPass instructions))
    ((firstPass instructions)[position], position), ?_, ?_⟩
  · rw [blocks]
    exact List.mem_map_of_mem (List.mem_zipIdx_iff_getElem?.mpr (by simp))
  · have resolvedCalls : ∀ edge ∈ calls.map
        (resolveEdge (instrToBlock (firstPass instructions)) position), edge.kind = .call := by
      intro edge resolved
      obtain ⟨original, collected, rfl⟩ := List.mem_map.mp resolved
      exact calling original collected
    simp only [resolveBlock, role, edges, List.map_append]
    cases classified : classify instruction with
    | unconditionalBranch target address =>
      rw [lastTarget_after_calls .jump (by decide) _ _ resolvedCalls]
      rfl
    | conditionalBranch taken takenAddress =>
      rw [lastTarget_after_calls .conditionalTaken (by decide) _ _ resolvedCalls]
      simp only [instructionEdges]
      split <;> rfl
    | ret => rfl
    | indirect => rfl
    | unknown => rfl
    | call target address => simp [classified, BlockEnd.isTerminator] at terminates
    | fallthrough => simp [classified, BlockEnd.isTerminator] at terminates

end Semasm.Cfg
