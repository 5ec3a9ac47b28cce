import Semasm.Cfg.Graph

/-!
# What an exact graph shows

The instruction set says what an instruction does with control; the builder only
reads the groups, the mnemonic and the operands. An exact graph cuts the
instructions into runs, draws every direct successor that is not simply the next
instruction of the same block, and draws nothing else.
-/

namespace Semasm.Cfg

open Decode Library

/-- What an instruction does with control, by its instruction set. -/
inductive Flow where
  | onward
  | jump (target : UInt64)
  | branch (target : UInt64)
  | call (target : UInt64)
  | indirectCall
  | leaves
deriving DecidableEq, Repr

/-- The target of a direct branch or call. -/
def Flow.target : Flow → Option UInt64
  | .jump target | .branch target | .call target => some target
  | .onward | .indirectCall | .leaves => none

/-- Control can go on to the next instruction, behind a call once it has returned. -/
def Flow.goesOn : Flow → Bool
  | .onward | .branch _ | .call _ | .indirectCall => true
  | .jump _ | .leaves => false

/-- Direct branches and calls print their target as a number. -/
def PrintsTargets (meaning : PhysicalInstruction → Flow) (instructions : List PhysicalInstruction) :
    Prop :=
  ∀ ins ∈ instructions, ∀ target, (meaning ins).target = some target →
    parseTarget ins = some target

/-- The instruction at the second place is a direct successor of the one at the first. -/
def DirectSuccessor (meaning : PhysicalInstruction → Flow) (instructions : List PhysicalInstruction)
    (place next : Nat) : Prop :=
  ∃ ins after, instructions[place]? = some ins ∧ instructions[next]? = some after ∧
    (((meaning ins).goesOn = true ∧ next = place + 1) ∨ (meaning ins).target = some after.address)

/-- The block covers an instruction of the list. -/
def Block.Holds (block : Block) (place : Nat) : Prop :=
  block.startInstruction ≤ place ∧ place < block.endInstruction

/-- The places of a block. -/
def Block.places (block : Block) : List Nat :=
  List.range' block.startInstruction (block.endInstruction - block.startInstruction)

/-- An edge leads from a block to a block. -/
def ControlFlowGraph.Leads (graph : ControlFlowGraph) (source target : Nat) : Prop :=
  ∃ block, graph.blocks[source]? = some block ∧
    ∃ edge ∈ block.successors, edge.source = source ∧ edge.target = some target

/-- The block with this index covers an instruction of the list. -/
def ControlFlowGraph.Covers (graph : ControlFlowGraph) (index place : Nat) : Prop :=
  ∃ block, graph.blocks[index]? = some block ∧ block.Holds place

/-- The graph is exact. -/
structure Exact (meaning : PhysicalInstruction → Flow) (instructions : List PhysicalInstruction)
    (graph : ControlFlowGraph) : Prop where
  /-- The blocks put one after the other are the places of the list. -/
  tiles : graph.blocks.flatMap Block.places = List.range instructions.length
  inhabited : ∀ block ∈ graph.blocks, block.startInstruction < block.endInstruction
  numbered : ∀ (index : Nat) block, graph.blocks[index]? = some block → block.index = index
  addresses : ∀ block ∈ graph.blocks, ∃ first last,
    instructions[block.startInstruction]? = some first ∧ first.address = block.startAddress ∧
      instructions[block.endInstruction - 1]? = some last ∧ last.address = block.endAddress
  /-- Every direct successor is next in its block or has an edge. -/
  successors : ∀ place next, DirectSuccessor meaning instructions place next →
    ∃ source target, graph.Covers source place ∧ graph.Covers target next ∧
      ((next = place + 1 ∧ source = target) ∨ graph.Leads source target)
  /-- Every resolved edge leads to a direct successor of an instruction of its block. -/
  edges : ∀ (source : Nat) block, graph.blocks[source]? = some block →
    ∀ edge ∈ block.successors, ∀ target, edge.target = some target →
      edge.source = source ∧ ∃ place next, block.Holds place ∧ graph.Covers target next ∧
        DirectSuccessor meaning instructions place next

/-- The address a role names. -/
def BlockEnd.named : BlockEnd → Option UInt64
  | .unconditionalBranch _ address | .conditionalBranch _ address => some address
  | .call _ address => address
  | .ret | .indirect | .unknown | .fallthrough => none

/-- The role of a conditional branch. -/
def BlockEnd.isConditional : BlockEnd → Bool
  | .conditionalBranch _ _ => true
  | _ => false

/-- The role the builder reads off an instruction says of its successors what the
instruction set says. A role that neither names an address nor closes the block is
right for an instruction that leaves: no edge is drawn for it. -/
structure ReadRight (flow : Flow) (role : BlockEnd) : Prop where
  target : role.named.isSome = flow.target.isSome
  further : role.isConditional = true → flow.goesOn = true
  goesOn : flow.goesOn = true → role.isTerminator = false ∨ role.isConditional = true

instance (flow : Flow) (role : BlockEnd) : Decidable (ReadRight flow role) :=
  decidable_of_iff
    (role.named.isSome = flow.target.isSome ∧ (role.isConditional = true → flow.goesOn = true) ∧
      (flow.goesOn = true → role.isTerminator = false ∨ role.isConditional = true))
    ⟨fun ⟨target, further, goesOn⟩ => ⟨target, further, goesOn⟩,
      fun ⟨target, further, goesOn⟩ => ⟨target, further, goesOn⟩⟩

/-- The role of the instruction at the first place leads to the second. -/
def DrawnTo (instructions : List PhysicalInstruction) (place next : Nat) : Prop :=
  ∃ ins after, instructions[place]? = some ins ∧ instructions[next]? = some after ∧
    (((classify ins).isConditional = true ∧ next = place + 1) ∨
      (classify ins).named = some after.address)

/-- No instruction between two places closes a block. -/
def SameRun (instructions : List PhysicalInstruction) (place other : Nat) : Prop :=
  ∀ (between : Nat) ins, min place other ≤ between → between < max place other →
    instructions[between]? = some ins → terminates ins = false

/-- A successor is next in its run, or an instruction of its run is read as leading
to the run of the successor. -/
def Shown (instructions : List PhysicalInstruction) (place next : Nat) : Prop :=
  (next = place + 1 ∧ SameRun instructions place next) ∨
    ∃ source target, SameRun instructions place source ∧ SameRun instructions next target ∧
      DrawnTo instructions source target

/-- Some instruction of the same run has a direct successor in the run led to. -/
def Backed (meaning : PhysicalInstruction → Flow) (instructions : List PhysicalInstruction)
    (place next : Nat) : Prop :=
  ∃ source target, SameRun instructions place source ∧ SameRun instructions next target ∧
    DirectSuccessor meaning instructions source target

/-- Where an instruction is misread, the graph is right all the same through other
instructions of the same blocks. -/
def MisreadingsCovered (meaning : PhysicalInstruction → Flow)
    (instructions : List PhysicalInstruction) : Prop :=
  ∀ (place : Nat) ins, instructions[place]? = some ins → ¬ ReadRight (meaning ins) (classify ins) →
    ∀ next, (DirectSuccessor meaning instructions place next → Shown instructions place next) ∧
      (DrawnTo instructions place next → Backed meaning instructions place next)

theorem SameRun.refl (instructions : List PhysicalInstruction) (place : Nat) :
    SameRun instructions place place := by
  intro between ins above below _
  omega

/-- The address a role names is the printed one, when one is printed. -/
theorem named_eq_parseTarget (ins : PhysicalInstruction) (target address : UInt64)
    (printed : parseTarget ins = some target) (named : (classify ins).named = some address) :
    address = target := by
  unfold classify at named
  simp only [printed] at named
  split_ifs at named <;> simp only [BlockEnd.named, Option.some.injEq, reduceCtorEq] at named <;>
    exact named.symm

/-- A direct target of an instruction that is read right is the address its role names. -/
theorem target_eq_named (meaning : PhysicalInstruction → Flow)
    (instructions : List PhysicalInstruction) (prints : PrintsTargets meaning instructions)
    (ins : PhysicalInstruction) (member : ins ∈ instructions)
    (right : ReadRight (meaning ins) (classify ins)) :
    (meaning ins).target = (classify ins).named := by
  have both := right.target
  cases target : (meaning ins).target with
  | none =>
    rw [target] at both
    exact (Option.isSome_eq_false_iff.mp both |> Option.isNone_iff_eq_none.mp).symm
  | some address =>
    rw [target] at both
    obtain ⟨named, known⟩ := Option.isSome_iff_exists.mp both
    rw [known, named_eq_parseTarget ins address named (prints ins member address target) known]

/-- An instruction that is read right has its successors shown. -/
theorem shown_of_readRight (meaning : PhysicalInstruction → Flow)
    (instructions : List PhysicalInstruction) (prints : PrintsTargets meaning instructions)
    (place next : Nat) (ins : PhysicalInstruction) (found : instructions[place]? = some ins)
    (right : ReadRight (meaning ins) (classify ins))
    (successor : DirectSuccessor meaning instructions place next) : Shown instructions place next := by
  obtain ⟨own, after, held, there, cases⟩ := successor
  rw [found] at held
  cases held
  have drawn : ∀ drawn : DrawnTo instructions place next, Shown instructions place next :=
    fun drawn => Or.inr ⟨place, next, SameRun.refl _ _, SameRun.refl _ _, drawn⟩
  rcases cases with ⟨goesOn, rfl⟩ | target
  · rcases right.goesOn goesOn with stays | conditional
    · refine Or.inl ⟨rfl, ?_⟩
      intro between other above below atBetween
      have same : between = place := by omega
      subst same
      rw [found] at atBetween
      cases atBetween
      exact stays
    · exact drawn ⟨ins, after, found, there, Or.inl ⟨conditional, rfl⟩⟩
  · rw [target_eq_named meaning instructions prints ins (List.mem_of_getElem? found) right] at target
    exact drawn ⟨ins, after, found, there, Or.inr target⟩

/-- An instruction that is read right is led from to its successors only. -/
theorem successor_of_readRight (meaning : PhysicalInstruction → Flow)
    (instructions : List PhysicalInstruction) (prints : PrintsTargets meaning instructions)
    (place next : Nat) (ins : PhysicalInstruction) (found : instructions[place]? = some ins)
    (right : ReadRight (meaning ins) (classify ins)) (drawn : DrawnTo instructions place next) :
    DirectSuccessor meaning instructions place next := by
  obtain ⟨own, after, held, there, cases⟩ := drawn
  rw [found] at held
  cases held
  refine ⟨ins, after, found, there, ?_⟩
  rcases cases with ⟨conditional, rfl⟩ | named
  · exact Or.inl ⟨right.further conditional, rfl⟩
  · rw [← target_eq_named meaning instructions prints ins (List.mem_of_getElem? found) right] at named
    exact Or.inr named

end Semasm.Cfg
