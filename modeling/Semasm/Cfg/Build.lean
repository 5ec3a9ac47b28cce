import Mathlib.Data.List.Sort
import Semasm.Cfg.Classify

/-!
# The control-flow graph

Blocks are cut from the instructions in address order. An edge first names the
instruction it leads to and is then resolved to the block that holds it. Two
maps are involved, from addresses to instructions and from instructions to
blocks, and in both the last entry wins where several share a key. A block
covers the instruction indices from its first to its last in the given order,
which is the address order only when the instructions were given sorted.
-/

namespace Semasm.Cfg

open Decode

/-- Kind of a control-flow edge. -/
inductive EdgeKind where
  | fallthrough | jump | conditionalTaken | call | ret
deriving DecidableEq, Repr

/-- A directed edge. -/
structure Edge where
  source : Nat
  target : Option Nat
  kind : EdgeKind
deriving DecidableEq, Repr

/-- A single basic block. -/
structure Block where
  index : Nat
  startInstruction : Nat
  endInstruction : Nat
  startAddress : UInt64
  endAddress : UInt64
  successors : List Edge
  blockEnd : BlockEnd
deriving DecidableEq, Repr

/-- A reconstructed control-flow graph. -/
structure ControlFlowGraph where
  blocks : List Block
  entryBlock : Nat
deriving DecidableEq, Repr

/-- Builder-side block before indices are finalised. -/
structure BlockBuilder where
  startInstruction : Nat
  endInstruction : Nat
  startAddress : UInt64
  endAddress : UInt64
  successors : List Edge
  blockEnd : BlockEnd
deriving DecidableEq, Repr

/-- `BlockBuilder::new`. -/
def BlockBuilder.new (startInstruction : Nat) (startAddress : UInt64) : BlockBuilder :=
  ⟨startInstruction, startInstruction + 1, startAddress, startAddress, [], .fallthrough⟩

/-- An instruction with its index in the given list. -/
abbrev Indexed := PhysicalInstruction × Nat

/-- Address order of indexed instructions. -/
def notAfter (left right : Indexed) : Prop := left.1.address ≤ right.1.address

instance : DecidableRel notAfter := fun _ _ => inferInstanceAs (Decidable (_ ≤ _))

/-- The instructions with their indices, sorted by address. -/
def order (instructions : List PhysicalInstruction) : List Indexed :=
  instructions.zipIdx.insertionSort notAfter

/-- The address map: the last instruction given at an address. -/
def addrToInstr (instructions : List PhysicalInstruction) : UInt64 → Option Nat :=
  instructions.zipIdx.foldl
    (fun known entry address =>
      if address = entry.1.address then some entry.2 else known address)
    (fun _ => none)

/-- Address of the instruction after index `i` in address order. -/
def nextAddress (sorted : List Indexed) (i : Nat) : Option UInt64 :=
  match sorted.findIdx? (fun entry => entry.2 == i) with
  | none => none
  | some position => (sorted[position + 1]?).map (fun entry => entry.1.address)

/-- Outgoing edges contributed by one instruction, to instruction indices. -/
def instructionEdges (lookup : UInt64 → Option Nat) (sorted : List Indexed) (i : Nat) :
    BlockEnd → List Edge
  | .unconditionalBranch _ address => [⟨0, lookup address, .jump⟩]
  | .conditionalBranch _ takenAddress =>
    let fall := match nextAddress sorted i with
      | some following => [⟨0, lookup following, .fallthrough⟩]
      | none => []
    ⟨0, lookup takenAddress, .conditionalTaken⟩ :: fall
  | .call _ (some address) => [⟨0, lookup address, .call⟩]
  | .call _ none | .ret | .indirect | .unknown | .fallthrough => []

/-- Closed blocks and the block being grown. -/
structure Pass where
  blocks : List BlockBuilder
  current : Option BlockBuilder

/-- One instruction of the first pass. -/
def Pass.step (lookup : UInt64 → Option Nat) (sorted : List Indexed) (pass : Pass)
    (entry : Indexed) : Pass :=
  let opened := pass.current.getD (.new entry.2 entry.1.address)
  let role := classify entry.1
  let grown : BlockBuilder :=
    { opened with
      endInstruction := entry.2 + 1
      endAddress := entry.1.address
      blockEnd := role
      successors := opened.successors ++ instructionEdges lookup sorted entry.2 role }
  if role.isTerminator then ⟨pass.blocks ++ [grown], none⟩ else ⟨pass.blocks, some grown⟩

/-- The blocks of the first pass. -/
def firstPass (instructions : List PhysicalInstruction) : List BlockBuilder :=
  let sorted := order instructions
  let pass := sorted.foldl (Pass.step (addrToInstr instructions) sorted) ⟨[], none⟩
  pass.blocks ++ pass.current.toList

/-- The block map: the last block whose index range covers an instruction. -/
def instrToBlock (blocks : List BlockBuilder) : Nat → Option Nat :=
  blocks.zipIdx.foldl
    (fun known entry i =>
      if entry.1.startInstruction ≤ i ∧ i < entry.1.endInstruction then some entry.2 else known i)
    (fun _ => none)

/-- An edge resolved to block indices. -/
def resolveEdge (blockOf : Nat → Option Nat) (blockIndex : Nat) (edge : Edge) : Edge :=
  { edge with source := blockIndex, target := edge.target.bind blockOf }

/-- Target of the last edge of a kind. -/
def lastTarget (kind : EdgeKind) (edges : List Edge) : Option Nat :=
  edges.foldl (fun found edge => if edge.kind = kind then edge.target else found) none

/-- A block with its edges resolved and its end rebuilt from them. -/
def resolveBlock (blockOf : Nat → Option Nat) (entry : BlockBuilder × Nat) : Block :=
  let resolved := entry.1.successors.map (resolveEdge blockOf entry.2)
  { index := entry.2
    startInstruction := entry.1.startInstruction
    endInstruction := entry.1.endInstruction
    startAddress := entry.1.startAddress
    endAddress := entry.1.endAddress
    successors := resolved
    blockEnd := match entry.1.blockEnd with
      | .unconditionalBranch _ address =>
        .unconditionalBranch (lastTarget .jump resolved) address
      | .conditionalBranch _ takenAddress =>
        .conditionalBranch (lastTarget .conditionalTaken resolved) takenAddress
      | .call _ address => .call (lastTarget .call resolved) address
      | other => other }

/-- Index of the first block with the lowest start address. -/
def entryBlock : List Block → Nat
  | [] => 0
  | block :: rest =>
    (rest.foldl (fun best next => if next.startAddress < best.startAddress then next else best)
      block).index

/-- `build`. -/
def build (instructions : List PhysicalInstruction) : Except String ControlFlowGraph :=
  if instructions.isEmpty then .error "cannot build a CFG from zero instructions"
  else
    let blocks := firstPass instructions
    let out := blocks.zipIdx.map (resolveBlock (instrToBlock blocks))
    .ok ⟨out, entryBlock out⟩

end Semasm.Cfg
