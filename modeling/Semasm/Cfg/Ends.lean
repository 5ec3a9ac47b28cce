import Mathlib.Data.List.Induction
import Semasm.Cfg.Graph

/-!
# Ends and edges of a block

The end of a block is rebuilt from the last edge of its kind among all edges of the block. A
jump or branch closes its block, so that edge is its own. A call does not: the last block
may end in a call without an edge after calls that have one, and then shows theirs.
-/

namespace Semasm.Cfg

open Decode Library

/-- The edges in a block that an instruction contributed. -/
def ownEdges (instructions : List PhysicalInstruction) (index : Nat) (entry : Indexed) : List Edge :=
  (entryEdges (addrToInstr instructions) (order instructions) entry).map
    (resolveEdge (instrToBlock (firstPass instructions)) index)

/-- The destination of the edge of a kind among some edges. -/
def destination (kind : EdgeKind) (edges : List Edge) : Option Nat :=
  (edges.find? (fun edge => edge.kind = kind)).bind Edge.target

/-- The role of an instruction with the destination of its own edge. -/
def endFrom (edges : List Edge) : BlockEnd → BlockEnd
  | .unconditionalBranch _ address => .unconditionalBranch (destination .jump edges) address
  | .conditionalBranch _ takenAddress =>
    .conditionalBranch (destination .conditionalTaken edges) takenAddress
  | .call _ address => .call (destination .call edges) address
  | other => other

/-- Every block has the edges of its last instruction last, and shows in its end the role
of that instruction with the destination of its edge. -/
def EndsAgree (instructions : List PhysicalInstruction) (graph : ControlFlowGraph) : Prop :=
  ∀ block ∈ graph.blocks, ∃ ins before,
    instructions[block.endInstruction - 1]? = some ins ∧
    block.successors =
      before ++ ownEdges instructions block.index (ins, block.endInstruction - 1) ∧
    block.blockEnd =
      endFrom (ownEdges instructions block.index (ins, block.endInstruction - 1)) (classify ins)

/-- The target of the last direct call of a run. -/
def lastCalled (run : List Indexed) : Option UInt64 :=
  run.foldl (fun found entry => match classify entry.1 with
    | .call _ (some address) => some address
    | _ => found) none

/-- Some run spans the place of the instruction at an address. -/
def Held (instructions : List PhysicalInstruction) (address : UInt64) : Prop :=
  ∃ place, addrToInstr instructions address = some place ∧ ∃ run ∈ runs instructions,
    ∃ first last, run.head? = some first ∧ run.getLast? = some last ∧
      first.2 ≤ place ∧ place ≤ last.2

/-- A run that ends in an indirect call has no direct call into the list, or at least the
last of them leads out of it. -/
def IndirectCallsAlone (instructions : List PhysicalInstruction) : Prop :=
  ∀ run ∈ runs instructions, ∀ last, run.getLast? = some last → classify last.1 = .call none none →
    ∀ address, lastCalled run = some address → ¬ Held instructions address

/-- A block holds the instruction at an address exactly when a run spans its place. -/
theorem held_iff (instructions : List PhysicalInstruction) (address : UInt64) :
    Held instructions address ↔ blockAt instructions address ≠ none := by
  have covers (place : Nat) : instrToBlock (firstPass instructions) place ≠ none ↔
      ∃ run ∈ runs instructions, ∃ first last, run.head? = some first ∧ run.getLast? = some last ∧
        first.2 ≤ place ∧ place ≤ last.2 := by
    let hits := fun (entry : BlockBuilder × Nat) (place : Nat) =>
      entry.1.startInstruction ≤ place ∧ place < entry.1.endInstruction
    constructor
    · intro covered
      obtain ⟨index, known⟩ := Option.ne_none_iff_exists'.mp covered
      obtain ⟨entry, member, hit, _⟩ :=
        LastMatch.foldl_found hits Prod.snd (firstPass instructions).zipIdx place index known
      have place := List.mem_zipIdx_iff_getElem?.mp member
      rcases firstPass_at instructions entry.2 with
        ⟨_, missing⟩ | ⟨run, first, last, held, head, ends, built⟩
      · rw [missing] at place
        cases place
      · rw [built] at place
        have shape := Option.some.inj place
        have inside : entry.1.startInstruction ≤ _ ∧ _ < entry.1.endInstruction := hit
        rw [← shape] at inside
        exact ⟨run, List.mem_of_getElem? held, first, last, head, ends, inside.1,
          Nat.le_of_lt_succ inside.2⟩
    · rintro ⟨run, member, first, last, head, ends, above, below⟩
      obtain ⟨index, held⟩ := List.mem_iff_getElem?.mp member
      rcases firstPass_at instructions index with
        ⟨absent, _⟩ | ⟨other, start, stop, found, atStart, atStop, built⟩
      · rw [held] at absent
        cases absent
      · rw [held] at found
        cases found
        rw [head] at atStart
        rw [ends] at atStop
        cases atStart
        cases atStop
        have hit : hits (blockOfRun (addrToInstr instructions) (order instructions) run first last,
            index) place := ⟨above, Nat.lt_succ_of_le below⟩
        obtain ⟨entry, _, _, known⟩ := LastMatch.foldl_hit hits Prod.snd
          (firstPass instructions).zipIdx (fun _ => none) place
          ⟨_, List.mem_zipIdx_iff_getElem?.mpr built, hit⟩
        exact Option.ne_none_iff_exists'.mpr ⟨entry.2, known⟩
  unfold Held blockAt
  cases addrToInstr instructions address with
  | none => simp
  | some place => simpa using (covers place).symm

/-- A classified call has no block yet. -/
theorem classify_call_unresolved (ins : PhysicalInstruction) (target : Option Nat)
    (address : Option UInt64) (role : classify ins = .call target address) : target = none := by
  simp only [classify] at role
  repeat' split at role
  all_goals cases role
  all_goals rfl

/-- The target of the last edge of a kind, after one more edge. -/
theorem lastTarget_append (kind : EdgeKind) (before after : List Edge) :
    lastTarget kind (before ++ after) =
      after.foldl (fun found edge => if edge.kind = kind then edge.target else found)
        (lastTarget kind before) :=
  List.foldl_append

/-- Among the edges of a run the last call is the one of the last direct call. -/
theorem lastTarget_call (instructions : List PhysicalInstruction) (index : Nat)
    (run : List Indexed) :
    lastTarget .call (run.flatMap (ownEdges instructions index)) =
      (lastCalled run).bind (blockAt instructions) := by
  induction run using List.reverseRecOn with
  | nil => rfl
  | append_singleton run entry inductionHypothesis =>
    rw [List.flatMap_append, lastTarget_append, inductionHypothesis]
    simp only [lastCalled, List.foldl_append, List.foldl_cons, List.foldl_nil, List.flatMap_cons,
      List.flatMap_nil, List.append_nil, ownEdges, entryEdges]
    cases classify entry.1 with
    | call target address =>
      cases address with
      | none => rfl
      | some address => rfl
    | conditionalBranch taken takenAddress =>
      simp only [instructionEdges]
      split <;> rfl
    | unconditionalBranch target address => rfl
    | fallthrough => rfl
    | ret => rfl
    | indirect => rfl
    | unknown => rfl

/-- A branch or direct call that ends a run is rebuilt from its own edge. -/
theorem rebuiltEnd_own (instructions : List PhysicalInstruction) (index : Nat) (last : Indexed)
    (before : List Edge) (direct : ∀ target, classify last.1 ≠ .call target none) :
    rebuiltEnd (before ++ ownEdges instructions index last) (classify last.1) =
      endFrom (ownEdges instructions index last) (classify last.1) := by
  unfold rebuiltEnd endFrom
  cases role : classify last.1 with
  | call target address =>
    cases address with
    | none => exact absurd role (direct target)
    | some address =>
      simp only [lastTarget_append, ownEdges, entryEdges, role]
      rfl
  | conditionalBranch taken takenAddress =>
    simp only [lastTarget_append, ownEdges, entryEdges, role, instructionEdges]
    split <;> rfl
  | unconditionalBranch target address =>
    simp only [lastTarget_append, ownEdges, entryEdges, role]
    rfl
  | fallthrough => rfl
  | ret => rfl
  | indirect => rfl
  | unknown => rfl

/-- An indirect call that ends a run contributes no edge, so its block agrees when no edge of
an earlier call is resolved last. -/
theorem rebuiltEnd_indirect (instructions : List PhysicalInstruction) (index : Nat)
    (run : List Indexed) (last : Indexed) (target : Option Nat) (indirect : classify last.1 = .call target none) :
    rebuiltEnd (run.flatMap (ownEdges instructions index)) (classify last.1) =
        endFrom (ownEdges instructions index last) (classify last.1) ↔
      ∀ address, lastCalled run = some address → ¬ Held instructions address := by
  have none : endFrom (ownEdges instructions index last) (.call target none) = .call none none := by
    simp only [endFrom, ownEdges, entryEdges, indirect]
    rfl
  rw [indirect, none, rebuiltEnd, lastTarget_call]
  simp only [BlockEnd.call.injEq, and_true, Option.bind_eq_none_iff, held_iff, not_not]

/-- A block of the graph agrees with its last instruction exactly when that one is no
indirect call behind a resolved direct one. -/
theorem block_agrees_iff (instructions : List PhysicalInstruction) (index : Nat)
    (run : List Indexed) (first last : Indexed) (member : run ∈ runs instructions)
    (ends : run.getLast? = some last) (block : Block)
    (built : block = resolveBlock (instrToBlock (firstPass instructions))
      (blockOfRun (addrToInstr instructions) (order instructions) run first last, index)) :
    (∃ ins before, instructions[block.endInstruction - 1]? = some ins ∧
      block.successors =
        before ++ ownEdges instructions block.index (ins, block.endInstruction - 1) ∧
      block.blockEnd =
        endFrom (ownEdges instructions block.index (ins, block.endInstruction - 1))
          (classify ins)) ↔
      (classify last.1 = .call none none →
        ∀ address, lastCalled run = some address → ¬ Held instructions address) := by
  have atEnd : block.endInstruction - 1 = last.2 := by rw [built]; rfl
  have own : block.index = index := by rw [built]; rfl
  have place : instructions[last.2]? = some last.1 := by
    rw [← mem_order, ← flatten_runs]
    exact List.mem_flatten.mpr ⟨run, member, List.mem_of_getLast? ends⟩
  have edges : block.successors = run.flatMap (ownEdges instructions index) := by
    rw [built]
    exact List.map_flatMap
  have rebuilt : block.blockEnd =
      rebuiltEnd (run.flatMap (ownEdges instructions index)) (classify last.1) := by
    rw [← edges, built]
    cases role : classify last.1 <;> simp only [resolveBlock, blockOfRun, rebuiltEnd, role]
  obtain ⟨front, split⟩ : ∃ front, run = front ++ [last] := by
    have shape := List.dropLast_append_getLast? last ends
    exact ⟨run.dropLast, shape.symm⟩
  have suffix : block.successors =
      front.flatMap (ownEdges instructions index) ++ ownEdges instructions index last := by
    rw [edges, split, List.flatMap_append, List.flatMap_cons, List.flatMap_nil, List.append_nil]
  have agrees : (∃ ins before, instructions[block.endInstruction - 1]? = some ins ∧
      block.successors =
        before ++ ownEdges instructions block.index (ins, block.endInstruction - 1) ∧
      block.blockEnd =
        endFrom (ownEdges instructions block.index (ins, block.endInstruction - 1))
          (classify ins)) ↔
      rebuiltEnd (run.flatMap (ownEdges instructions index)) (classify last.1) =
        endFrom (ownEdges instructions index last) (classify last.1) := by
    rw [atEnd, own, place, ← rebuilt]
    constructor
    · rintro ⟨ins, before, same, _, agree⟩
      cases same
      exact agree
    · intro agree
      exact ⟨last.1, _, rfl, suffix, agree⟩
  rw [agrees]
  by_cases indirect : ∃ target, classify last.1 = .call target none
  · obtain ⟨target, indirect⟩ := indirect
    rw [rebuiltEnd_indirect instructions index run last target indirect]
    have unresolved := classify_call_unresolved last.1 target none indirect
    subst unresolved
    exact ⟨fun holds _ => holds, fun holds => holds indirect⟩
  · have direct : ∀ target, classify last.1 ≠ .call target none :=
      fun target role => indirect ⟨target, role⟩
    rw [split, List.flatMap_append, List.flatMap_cons, List.flatMap_nil, List.append_nil]
    exact iff_of_true (rebuiltEnd_own instructions index last _ direct)
      (fun role => absurd role (direct none))

/-- Ends and edges agree exactly when no block shows an earlier call's target as that of an
indirect call at its end.

Proof: the blocks are the runs; what ends a run contributes the last edge of its kind,
unless it is an indirect call, which contributes none. -/
theorem endsAgree_iff (instructions : List PhysicalInstruction) :
    (∀ graph, build instructions = .ok graph → EndsAgree instructions graph) ↔
      IndirectCallsAlone instructions := by
  constructor
  · intro agree run member last ends
    have nonempty : instructions.isEmpty = false := by
      cases instructions with
      | nil => cases member
      | cons => rfl
    obtain ⟨index, held⟩ := List.mem_iff_getElem?.mp member
    rcases firstPass_at instructions index with
      ⟨absent, _⟩ | ⟨other, first, stop, found, _, atStop, built⟩
    · rw [held] at absent
      cases absent
    · rw [held] at found
      cases found
      rw [ends] at atStop
      cases atStop
      have graph := agree _ (by rw [build, nonempty]; rfl) (resolveBlock _ (_, index))
        (List.mem_map_of_mem (List.mem_zipIdx_iff_getElem?.mpr built))
      exact (block_agrees_iff instructions index run first last member ends _ rfl).mp graph
  · intro alone graph built block member
    have blocks : graph.blocks = (firstPass instructions).zipIdx.map
        (resolveBlock (instrToBlock (firstPass instructions))) := by
      unfold build at built
      split at built
      · cases built
      · exact congrArg ControlFlowGraph.blocks (Except.ok.inj built).symm
    rw [blocks] at member
    obtain ⟨⟨builder, index⟩, inside, rfl⟩ := List.mem_map.mp member
    have place := List.mem_zipIdx_iff_getElem?.mp inside
    rcases firstPass_at instructions index with
      ⟨_, missing⟩ | ⟨run, first, last, held, _, ends, shape⟩
    · rw [missing] at place
      cases place
    · rw [shape] at place
      cases place
      have listed := List.mem_of_getElem? held
      exact (block_agrees_iff instructions index run first last listed ends _ rfl).mpr
        (alone run listed last ends)

/-- A direct call to the start and an indirect call behind it. -/
def twoCalls : List PhysicalInstruction :=
  [⟨0, [0xe8, 0xfb, 0xff, 0xff, 0xff], "call", ["0"], [], [], ["call"], true⟩,
    ⟨5, [0xff, 0xd0], "call", ["rax"], [], [], ["call"], true⟩]

/-- The indirect call at the end of the block is given the target of the direct one. -/
theorem indirect_call_is_given_a_target :
    ¬ ∀ graph, build twoCalls = .ok graph → EndsAgree twoCalls graph := by
  intro agree
  have graph := agree ⟨[⟨0, 0, 2, 0, 5, [⟨0, some 0, .call⟩], .call (some 0) none⟩], 0⟩ (by rfl)
  obtain ⟨ins, before, place, _, shown⟩ := graph _ (List.mem_singleton.mpr rfl)
  cases place
  cases shown

end Semasm.Cfg
