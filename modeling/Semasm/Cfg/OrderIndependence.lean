import Semasm.Cfg.Exactness
import Semasm.Cfg.Unreachable

/-!
# What the graph says, whatever the order of the instructions

A graph names blocks and instructions by index. Its view names both by address:
the sets of addresses the blocks cover, the edges between start addresses, the
ends of the blocks and the start addresses of the blocks not reached. The order
in which the instructions are given changes only the indices, as long as every
block keeps its instructions together; then it leaves the view alone.
-/

namespace Semasm.Cfg

open Decode Library

/-- The addresses of the instructions a block covers. -/
def Block.addressSet (instructions : List PhysicalInstruction) (block : Block) : Set UInt64 :=
  {address | ∃ place ins, block.Holds place ∧ instructions[place]? = some ins ∧ ins.address = address}

/-- The start address of the block with an index. -/
def ControlFlowGraph.startOf (graph : ControlFlowGraph) (index : Nat) : Option UInt64 :=
  (graph.blocks[index]?).map Block.startAddress

/-- The block a block end names. -/
def BlockEnd.target : BlockEnd → Option Nat
  | .unconditionalBranch target _ | .conditionalBranch target _ | .call target _ => target
  | .fallthrough | .ret | .indirect | .unknown => none

/-- A block end without the block it names. -/
def BlockEnd.untargeted : BlockEnd → BlockEnd
  | .unconditionalBranch _ address => .unconditionalBranch none address
  | .conditionalBranch _ address => .conditionalBranch none address
  | .call _ address => .call none address
  | other => other

/-- A graph told by addresses. -/
@[ext] structure GraphView where
  blocks : Set (Set UInt64)
  edges : Set (Option UInt64 × EdgeKind × Option UInt64)
  ends : Set (UInt64 × BlockEnd × Option UInt64)
  unreachable : Set UInt64

/-- The view of the graph of some instructions. -/
def ControlFlowGraph.view (instructions : List PhysicalInstruction) (graph : ControlFlowGraph) :
    GraphView where
  blocks := {set | ∃ block ∈ graph.blocks, set = block.addressSet instructions}
  edges := {edge | ∃ block ∈ graph.blocks, ∃ own ∈ block.successors,
    edge = (graph.startOf own.source, own.kind, own.target.bind graph.startOf)}
  ends := {shown | ∃ block ∈ graph.blocks, shown =
    (block.startAddress, block.blockEnd.untargeted, block.blockEnd.target.bind graph.startOf)}
  unreachable := {address | ∃ index ∈ graph.unreachableBlocks, graph.startOf index = some address}

/-- The graph of some instructions, told by addresses. -/
def buildView (instructions : List PhysicalInstruction) : Except String GraphView :=
  (build instructions).map (ControlFlowGraph.view instructions)

/-! ## A graph without its places -/

/-- A block without its places in the given list. -/
def Block.unplaced (block : Block) : Block :=
  { block with startInstruction := 0, endInstruction := 0 }

/-- A graph whose blocks have no places in the given list. -/
def ControlFlowGraph.unplaced (graph : ControlFlowGraph) : ControlFlowGraph :=
  ⟨graph.blocks.map Block.unplaced, graph.entryBlock⟩

@[simp] theorem ControlFlowGraph.startOf_unplaced (graph : ControlFlowGraph) :
    graph.unplaced.startOf = graph.startOf := by
  funext index
  unfold startOf unplaced
  rw [List.getElem?_map, Option.map_map]
  rfl

@[simp] theorem ControlFlowGraph.unreachableBlocks_unplaced (graph : ControlFlowGraph) :
    graph.unplaced.unreachableBlocks = graph.unreachableBlocks := by
  have next : graph.unplaced.next = graph.next := by
    funext index
    unfold ControlFlowGraph.next ControlFlowGraph.unplaced
    rw [List.getElem?_map]
    cases graph.blocks[index]? <;> rfl
  unfold unreachableBlocks
  rw [next]
  simp only [unplaced, List.length_map]

/-- Graphs that differ in places only show the same edges, ends and blocks not reached. -/
theorem view_eq_of_unplaced (one two : List PhysicalInstruction) (first second : ControlFlowGraph)
    (same : first.unplaced = second.unplaced)
    (blocks : (first.view one).blocks = (second.view two).blocks) :
    first.view one = second.view two := by
  have starts : first.startOf = second.startOf := by
    rw [← first.startOf_unplaced, same, second.startOf_unplaced]
  have unreachable : first.unreachableBlocks = second.unreachableBlocks := by
    rw [← first.unreachableBlocks_unplaced, same, second.unreachableBlocks_unplaced]
  have members : first.blocks.map Block.unplaced = second.blocks.map Block.unplaced :=
    congrArg ControlFlowGraph.blocks same
  -- A statement on unplaced blocks holds of a block of one graph as of one of the other.
  have moved : ∀ holds : Block → Prop,
      (∃ block ∈ first.blocks, holds block.unplaced) ↔ ∃ block ∈ second.blocks, holds block.unplaced := by
    intro holds
    have through : ∀ blocks : List Block, (∃ block ∈ blocks, holds block.unplaced) ↔
        ∃ block ∈ blocks.map Block.unplaced, holds block := by simp
    rw [through, through, members]
  apply GraphView.ext
  · exact blocks
  · ext edge
    have edges := moved (fun block => ∃ own ∈ block.successors,
      edge = (first.startOf own.source, own.kind, own.target.bind first.startOf))
    simp only [ControlFlowGraph.view, starts, Set.mem_ofPred_eq]
    rw [starts] at edges
    exact edges
  · ext shown
    have ends := moved (fun block => shown =
      (block.startAddress, block.blockEnd.untargeted, block.blockEnd.target.bind first.startOf))
    simp only [ControlFlowGraph.view, starts, Set.mem_ofPred_eq]
    rw [starts] at ends
    exact ends
  · unfold ControlFlowGraph.view
    simp only [starts, unreachable]

/-! ## Permuted instructions -/

/-- The address order does not depend on the order of the instructions. -/
theorem order_perm (one two : List PhysicalInstruction) (distinct : DistinctAddresses one)
    (permuted : one.Perm two) : (order one).map Prod.fst = (order two).map Prod.fst := by
  have distinctTwo : DistinctAddresses two :=
    (permuted.map PhysicalInstruction.address).nodup_iff.mp distinct
  have rising : ∀ list, DistinctAddresses list → ((order list).map Prod.fst).Pairwise
      (fun left right => left.address < right.address) := by
    intro list distinct
    exact List.pairwise_map.mpr (order_addresses list distinct)
  have own : ∀ list, ((order list).map Prod.fst).Perm list := by
    intro list
    have indexed := (List.perm_insertionSort notAfter list.zipIdx).map Prod.fst
    rwa [List.zipIdx_map_fst] at indexed
  apply List.Perm.eq_of_pairwise _ (rising one distinct) (rising two distinctTwo)
    (((own one).trans permuted).trans (own two).symm)
  intro left right _ _ below above
  exact absurd (UInt64.lt_trans below above) (UInt64.lt_irrefl _)

/-- The runs without their places are cut from the address order. -/
theorem orderedRuns_segments (instructions : List PhysicalInstruction) :
    orderedRuns instructions =
      Segments.segments terminates ((order instructions).map Prod.fst) := by
  rw [Segments.segments_map]
  rfl

theorem orderedRuns_perm (one two : List PhysicalInstruction) (distinct : DistinctAddresses one)
    (permuted : one.Perm two) : orderedRuns one = orderedRuns two := by
  rw [orderedRuns_segments, orderedRuns_segments, order_perm one two distinct permuted]

/-- Where runs are consecutive, an address belongs to the run that holds it. -/
theorem blockAt_orderedRuns (instructions : List PhysicalInstruction)
    (distinct : DistinctAddresses instructions) (consecutive : Consecutive instructions)
    (address : UInt64) (index : Nat) :
    blockAt instructions address = some index ↔
      ∃ run, (orderedRuns instructions)[index]? = some run ∧ ∃ ins ∈ run, ins.address = address := by
  rw [blockAt_eq_some_iff instructions distinct consecutive]
  unfold orderedRuns
  rw [List.getElem?_map]
  cases (runs instructions)[index]? <;> simp

/-- Permuted instructions with consecutive runs have the same edges. -/
theorem runEdges_perm (one two : List PhysicalInstruction) (distinct : DistinctAddresses one)
    (permuted : one.Perm two) (first : Consecutive one) (second : Consecutive two) (index : Nat)
    (run : List PhysicalInstruction) : runEdges one index run = runEdges two index run := by
  have distinctTwo : DistinctAddresses two :=
    (permuted.map PhysicalInstruction.address).nodup_iff.mp distinct
  have behind : following one = following two := by
    funext address
    unfold following
    rw [order_perm one two distinct permuted]
  have located : blockAt one = blockAt two := by
    funext address
    apply Option.ext
    intro found
    rw [blockAt_orderedRuns one distinct first, blockAt_orderedRuns two distinctTwo second,
      orderedRuns_perm one two distinct permuted]
  unfold runEdges
  rw [behind, located]

/-- A block without its places, from its run without places. -/
theorem unplaced_orderedBlock (one two : List PhysicalInstruction) (distinct : DistinctAddresses one)
    (permuted : one.Perm two) (consecutiveOne : Consecutive one) (consecutiveTwo : Consecutive two)
    (index : Nat) (run other : List Indexed) (first last firstOther lastOther : Indexed)
    (same : run.map Prod.fst = other.map Prod.fst)
    (head : run.head? = some first) (ends : run.getLast? = some last)
    (headOther : other.head? = some firstOther) (endsOther : other.getLast? = some lastOther) :
    (orderedBlock one index run first last).unplaced =
      (orderedBlock two index other firstOther lastOther).unplaced := by
  have heads := congrArg List.head? same
  have lasts := congrArg List.getLast? same
  rw [List.head?_map, List.head?_map, head, headOther] at heads
  rw [List.getLast?_map, List.getLast?_map, ends, endsOther] at lasts
  have firsts : first.1 = firstOther.1 := Option.some.inj heads
  have lastIns : last.1 = lastOther.1 := Option.some.inj lasts
  unfold orderedBlock Block.unplaced
  simp only [same, firsts, lastIns,
    runEdges_perm one two distinct permuted consecutiveOne consecutiveTwo]

/-- The entry block is found without the places. -/
theorem entryBlock_unplaced (blocks : List Block) :
    entryBlock (blocks.map Block.unplaced) = entryBlock blocks := by
  cases blocks with
  | nil => rfl
  | cons first rest =>
    have chosen : ∀ best : Block,
        (rest.map Block.unplaced).foldl
            (fun best next => if next.startAddress < best.startAddress then next else best)
            best.unplaced =
          (rest.foldl (fun best next => if next.startAddress < best.startAddress then next else best)
            best).unplaced := by
      induction rest with
      | nil => intro best; rfl
      | cons next rest inductionHypothesis =>
        intro best
        rw [List.map_cons, List.foldl_cons, List.foldl_cons, ← inductionHypothesis]
        congr 1
        have starts : ∀ block : Block, block.unplaced.startAddress = block.startAddress := fun _ => rfl
        rw [starts, starts]
        split <;> rfl
    exact (congrArg Block.index (chosen first)).trans rfl

/-- A built graph holds its blocks and the entry found among them. -/
theorem build_entry (instructions : List PhysicalInstruction) (graph : ControlFlowGraph)
    (built : build instructions = .ok graph) : graph.entryBlock = entryBlock graph.blocks := by
  unfold build at built
  split at built
  · cases built
  · cases built
    rfl

/-- Permuted instructions with consecutive runs have one graph but for the places. -/
theorem unplaced_perm (one two : List PhysicalInstruction) (distinct : DistinctAddresses one)
    (permuted : one.Perm two) (consecutiveOne : Consecutive one) (consecutiveTwo : Consecutive two)
    (first second : ControlFlowGraph) (builtOne : build one = .ok first)
    (builtTwo : build two = .ok second) : first.unplaced = second.unplaced := by
  have distinctTwo : DistinctAddresses two :=
    (permuted.map PhysicalInstruction.address).nodup_iff.mp distinct
  have sameRuns := orderedRuns_perm one two distinct permuted
  have blocks : first.blocks.map Block.unplaced = second.blocks.map Block.unplaced := by
    apply List.ext_getElem?
    intro index
    have atIndex := congrArg (fun list => list[index]?) sameRuns
    simp only [orderedRuns, List.getElem?_map] at atIndex
    rw [List.getElem?_map, List.getElem?_map]
    rcases graph_block_at one distinct first builtOne index with
      ⟨absent, missing⟩ | ⟨run, head, last, held, atHead, atEnd, found⟩
    · rcases graph_block_at two distinctTwo second builtTwo index with
        ⟨_, gone⟩ | ⟨_, _, _, there, _, _, _⟩
      · rw [missing, gone]
      · rw [absent, there] at atIndex
        cases atIndex
    · rcases graph_block_at two distinctTwo second builtTwo index with
        ⟨gone, _⟩ | ⟨other, headOther, lastOther, there, atHeadOther, atEndOther, foundOther⟩
      · rw [held, gone] at atIndex
        cases atIndex
      · rw [held, there] at atIndex
        rw [found, foundOther, Option.map_some, Option.map_some,
          unplaced_orderedBlock one two distinct permuted consecutiveOne consecutiveTwo index run
            other head last headOther lastOther (Option.some.inj atIndex) atHead atEnd atHeadOther
            atEndOther]
  unfold ControlFlowGraph.unplaced
  rw [blocks, build_entry one first builtOne, build_entry two second builtTwo,
    ← entryBlock_unplaced first.blocks, blocks, entryBlock_unplaced]

/-- The addresses of a run. -/
def runAddresses (run : List PhysicalInstruction) : Set UInt64 :=
  {address | ∃ ins ∈ run, ins.address = address}

/-- The range of places of a block covers the addresses of its run exactly when it is
the places of the run. -/
theorem addressSet_iff (instructions : List PhysicalInstruction)
    (distinct : DistinctAddresses instructions) (index : Nat) (run : List Indexed)
    (first last : Indexed) (held : (runs instructions)[index]? = some run)
    (ends : run.getLast? = some last) :
    (orderedBlock instructions index run first last).addressSet instructions =
        runAddresses (run.map Prod.fst) ↔
      ∀ place, (first.2 ≤ place ∧ place ≤ last.2) ↔ place ∈ run.map Prod.snd := by
  have holds : ∀ place, (orderedBlock instructions index run first last).Holds place ↔
      first.2 ≤ place ∧ place ≤ last.2 := by
    intro place
    exact and_congr Iff.rfl Nat.lt_succ_iff
  have entry := run_entry instructions index run held
  have inside : last.2 < instructions.length :=
    (List.getElem?_eq_some_iff.mp (entry last (List.mem_of_getLast? ends))).1
  constructor
  · intro same place
    constructor
    · intro range
      have found : instructions[place]? = some instructions[place] :=
        List.getElem?_eq_getElem (by omega)
      have member : instructions[place].address ∈
          (orderedBlock instructions index run first last).addressSet instructions :=
        ⟨place, instructions[place], (holds place).mpr range, found, rfl⟩
      rw [same] at member
      obtain ⟨ins, own, equal⟩ := member
      obtain ⟨other, listed, rfl⟩ := List.mem_map.mp own
      have unique := index_unique instructions distinct other.2 place other.1 _ (entry other listed)
        found equal
      exact List.mem_map.mpr ⟨other, listed, unique⟩
    · intro member
      obtain ⟨other, listed, rfl⟩ := List.mem_map.mp member
      have shown : other.1.address ∈ runAddresses (run.map Prod.fst) :=
        ⟨other.1, List.mem_map_of_mem listed, rfl⟩
      rw [← same] at shown
      obtain ⟨place, ins, covered, found, equal⟩ := shown
      have unique := index_unique instructions distinct place other.2 ins other.1 found
        (entry other listed) equal
      rw [← unique]
      exact (holds place).mp covered
  · intro range
    ext address
    constructor
    · rintro ⟨place, ins, covered, found, rfl⟩
      obtain ⟨other, listed, rfl⟩ := List.mem_map.mp ((range place).mp ((holds place).mp covered))
      rw [entry other listed] at found
      cases found
      exact ⟨_, List.mem_map_of_mem listed, rfl⟩
    · rintro ⟨ins, own, rfl⟩
      obtain ⟨other, listed, rfl⟩ := List.mem_map.mp own
      exact ⟨other.2, other.1, (holds other.2).mpr ((range other.2).mpr (List.mem_map_of_mem listed)),
        entry other listed, rfl⟩

/-- Where runs are consecutive, the blocks cover the addresses of the runs. -/
theorem view_blocks_of_consecutive (instructions : List PhysicalInstruction)
    (distinct : DistinctAddresses instructions) (consecutive : Consecutive instructions)
    (graph : ControlFlowGraph) (built : build instructions = .ok graph) :
    (graph.view instructions).blocks =
      {set | ∃ run ∈ orderedRuns instructions, set = runAddresses run} := by
  have covered : ∀ (index : Nat) run first last, (runs instructions)[index]? = some run →
      run.head? = some first → run.getLast? = some last →
      (orderedBlock instructions index run first last).addressSet instructions =
        runAddresses (run.map Prod.fst) := by
    intro index run first last held head ends
    exact (addressSet_iff instructions distinct index run first last held ends).mpr
      (consecutive run (List.mem_of_getElem? held) first last head ends)
  ext set
  constructor
  · rintro ⟨block, member, rfl⟩
    obtain ⟨index, found⟩ := List.mem_iff_getElem?.mp member
    obtain ⟨run, first, last, held, head, ends, rfl⟩ :=
      (graph_block_iff instructions distinct graph built index block).mp found
    exact ⟨run.map Prod.fst, List.mem_map_of_mem (List.mem_of_getElem? held),
      covered index run first last held head ends⟩
  · rintro ⟨plain, member, rfl⟩
    obtain ⟨run, listed, rfl⟩ := List.mem_map.mp member
    obtain ⟨index, held⟩ := List.mem_iff_getElem?.mp listed
    rcases graph_block_at instructions distinct graph built index with
      ⟨absent, _⟩ | ⟨other, first, last, there, head, ends, found⟩
    · rw [absent] at held
      cases held
    · rw [there] at held
      cases held
      exact ⟨_, List.mem_of_getElem? found, (covered index run first last there head ends).symm⟩

/-- Two runs that share an address are one run. -/
theorem run_of_address (instructions : List PhysicalInstruction)
    (distinct : DistinctAddresses instructions) (one two : List PhysicalInstruction)
    (first : one ∈ orderedRuns instructions) (second : two ∈ orderedRuns instructions)
    (address : UInt64) (inOne : address ∈ runAddresses one) (inTwo : address ∈ runAddresses two) :
    one = two := by
  obtain ⟨left, leftRun, rfl⟩ := List.mem_map.mp first
  obtain ⟨right, rightRun, rfl⟩ := List.mem_map.mp second
  obtain ⟨ins, own, rfl⟩ := inOne
  obtain ⟨other, there, same⟩ := inTwo
  obtain ⟨entry, listed, rfl⟩ := List.mem_map.mp own
  obtain ⟨mirror, shown, rfl⟩ := List.mem_map.mp there
  obtain ⟨index, held⟩ := List.mem_iff_getElem?.mp leftRun
  obtain ⟨second, found⟩ := List.mem_iff_getElem?.mp rightRun
  have place := index_unique instructions distinct mirror.2 entry.2 mirror.1 entry.1
    (run_entry instructions second right found mirror shown)
    (run_entry instructions index left held entry listed) same
  have equal := run_unique instructions index second left right held found entry.2
    (List.mem_map_of_mem listed) (place ▸ List.mem_map_of_mem shown)
  subst equal
  rw [held] at found
  cases found
  rfl

/-- A graph whose blocks cover the addresses of the runs was built from consecutive runs.

Proof: a block that covers any address covers the one of its first instruction, so it
covers its own run; and no run is empty. -/
theorem consecutive_of_view_blocks (instructions : List PhysicalInstruction)
    (distinct : DistinctAddresses instructions) (graph : ControlFlowGraph)
    (built : build instructions = .ok graph)
    (blocks : (graph.view instructions).blocks =
      {set | ∃ run ∈ orderedRuns instructions, set = runAddresses run}) :
    Consecutive instructions := by
  intro run member first last head ends
  obtain ⟨index, held⟩ := List.mem_iff_getElem?.mp member
  have found := (graph_block_iff instructions distinct graph built index _).mpr
    ⟨run, first, last, held, head, ends, rfl⟩
  have own : (orderedBlock instructions index run first last).addressSet instructions ∈
      (graph.view instructions).blocks := ⟨_, List.mem_of_getElem? found, rfl⟩
  rw [blocks] at own
  obtain ⟨plain, listed, same⟩ := own
  have inhabited : ∃ address, address ∈ runAddresses plain := by
    obtain ⟨entries, inside, rfl⟩ := List.mem_map.mp listed
    have some : entries ≠ [] := Segments.segments_ne_nil _ _ _ inside
    exact ⟨_, _, List.mem_map_of_mem (List.head_mem some), rfl⟩
  have range : first.2 ≤ last.2 := by
    obtain ⟨address, covered⟩ := inhabited
    rw [← same] at covered
    obtain ⟨place, _, ⟨above, below⟩, _⟩ := covered
    have lower : first.2 ≤ place := above
    have upper : place < last.2 + 1 := below
    omega
  have start : first.1.address ∈
      (orderedBlock instructions index run first last).addressSet instructions :=
    ⟨first.2, first.1, ⟨le_rfl, Nat.lt_succ_of_le range⟩,
      run_entry instructions index run held first (List.mem_of_head? head), rfl⟩
  rw [same] at start
  have equal := run_of_address instructions distinct plain (run.map Prod.fst) listed
    (List.mem_map_of_mem member) first.1.address start
    ⟨first.1, List.mem_map_of_mem (List.mem_of_head? head), rfl⟩
  rw [equal] at same
  exact (addressSet_iff instructions distinct index run first last held ends).mp same

/-- Some instructions have a graph unless there are none. -/
theorem build_ok (instructions : List PhysicalInstruction) (inhabited : instructions ≠ []) :
    ∃ graph, build instructions = .ok graph := by
  unfold build
  rw [if_neg (by simpa using inhabited)]
  exact ⟨_, rfl⟩

/-- Against instructions with consecutive runs, permuted ones have the same view exactly
when their runs are consecutive too. -/
theorem buildView_eq_iff (one two : List PhysicalInstruction) (distinct : DistinctAddresses one)
    (permuted : one.Perm two) (consecutive : Consecutive two) :
    buildView one = buildView two ↔ Consecutive one := by
  have distinctTwo : DistinctAddresses two :=
    (permuted.map PhysicalInstruction.address).nodup_iff.mp distinct
  by_cases empty : two = []
  · subst empty
    obtain rfl := List.perm_nil.mp permuted
    exact ⟨fun _ => consecutive, fun _ => rfl⟩
  · have some : one ≠ [] := by
      rintro rfl
      exact empty (List.nil_perm.mp permuted)
    obtain ⟨first, builtOne⟩ := build_ok one some
    obtain ⟨second, builtTwo⟩ := build_ok two empty
    have blocksTwo := view_blocks_of_consecutive two distinctTwo consecutive second builtTwo
    rw [← orderedRuns_perm one two distinct permuted] at blocksTwo
    unfold buildView
    rw [builtOne, builtTwo]
    constructor
    · intro same
      have views : first.view one = second.view two := Except.ok.inj same
      apply consecutive_of_view_blocks one distinct first builtOne
      rw [views, blocksTwo]
    · intro own
      have blocksOne := view_blocks_of_consecutive one distinct own first builtOne
      have views := view_eq_of_unplaced one two first second
        (unplaced_perm one two distinct permuted own consecutive first second builtOne builtTwo)
        (blocksOne.trans blocksTwo.symm)
      exact congrArg Except.ok views

/-- The instructions in address order. -/
def sortedInstructions (instructions : List PhysicalInstruction) : List PhysicalInstruction :=
  (order instructions).map Prod.fst

theorem sortedInstructions_perm (instructions : List PhysicalInstruction) :
    instructions.Perm (sortedInstructions instructions) := by
  have indexed := (List.perm_insertionSort notAfter instructions.zipIdx).map Prod.fst
  rw [List.zipIdx_map_fst] at indexed
  exact indexed.symm

theorem sortedInstructions_order (instructions : List PhysicalInstruction)
    (distinct : DistinctAddresses instructions) : AddressOrder (sortedInstructions instructions) :=
  List.pairwise_map.mpr (order_addresses instructions distinct)

/-- The view of a graph does not depend on the order of the instructions exactly when
every order keeps the runs consecutive; and an order that does not is told from every
order that does.

Proof: the instructions in address order have consecutive runs, so each permutation is
compared with them. -/
theorem buildView_perm_iff (instructions : List PhysicalInstruction)
    (distinct : DistinctAddresses instructions) :
    ((∀ permuted, instructions.Perm permuted → buildView permuted = buildView instructions) ↔
        ∀ permuted, instructions.Perm permuted → Consecutive permuted) ∧
      ∀ one two, instructions.Perm one → instructions.Perm two → Consecutive two →
        (buildView one = buildView two ↔ Consecutive one) := by
  have moved : ∀ permuted, instructions.Perm permuted → DistinctAddresses permuted := by
    intro permuted order
    exact (order.map PhysicalInstruction.address).nodup_iff.mp distinct
  have pairs : ∀ one two, instructions.Perm one → instructions.Perm two → Consecutive two →
      (buildView one = buildView two ↔ Consecutive one) := by
    intro one two first second consecutive
    exact buildView_eq_iff one two (moved one first) (first.symm.trans second) consecutive
  have order := sortedInstructions_perm instructions
  have sorted := (sortedInstructions_order instructions distinct).consecutive
  refine ⟨⟨?_, ?_⟩, pairs⟩
  · intro same permuted permutation
    apply (pairs permuted _ permutation order sorted).mp
    rw [same permuted permutation, same _ order]
  · intro all permuted permutation
    exact (pairs permuted instructions permutation (List.Perm.refl _) (all _ (List.Perm.refl _))).mpr
      (all permuted permutation)

/-- An instruction and a jump back to it. -/
def spin : List PhysicalInstruction :=
  [⟨0, [0x90], "nop", [], [], [], [], true⟩,
    ⟨1, [0xeb, 0xfd], "jmp", ["0"], [], [], ["jump", "branch_relative"], true⟩]

/-- Given backwards the two instructions show the same graph exactly if their block
keeps them together. -/
theorem spin_backwards :
    buildView spin.reverse = buildView spin ↔ Consecutive spin.reverse := by
  have distinct : DistinctAddresses spin := by
    unfold DistinctAddresses
    decide
  have sorted : AddressOrder spin := by
    unfold AddressOrder
    decide
  exact (buildView_perm_iff spin distinct).2 spin.reverse spin (List.reverse_perm spin).symm
    (List.Perm.refl spin) sorted.consecutive

/-- Given backwards the block covers no instruction, and the jump leads nowhere. -/
theorem jump_lost_backwards :
    DistinctAddresses spin ∧ spin.Perm spin.reverse ∧ buildView spin.reverse ≠ buildView spin := by
  refine ⟨by unfold DistinctAddresses; decide, (List.reverse_perm spin).symm, ?_⟩
  intro same
  have views : ControlFlowGraph.view spin.reverse
      ⟨[⟨0, 1, 1, 0, 1, [⟨0, none, .jump⟩], .unconditionalBranch none 0⟩], 0⟩ =
      ControlFlowGraph.view spin
        ⟨[⟨0, 0, 2, 0, 1, [⟨0, some 0, .jump⟩], .unconditionalBranch (some 0) 0⟩], 0⟩ :=
    Except.ok.inj same
  have resolved : (some 0, EdgeKind.jump, some 0) ∈ (ControlFlowGraph.view spin
      ⟨[⟨0, 0, 2, 0, 1, [⟨0, some 0, .jump⟩], .unconditionalBranch (some 0) 0⟩], 0⟩).edges :=
    ⟨_, List.mem_singleton.mpr rfl, _, List.mem_singleton.mpr rfl, rfl⟩
  rw [← views] at resolved
  obtain ⟨block, member, edge, own, equal⟩ := resolved
  obtain rfl := List.mem_singleton.mp member
  obtain rfl := List.mem_singleton.mp own
  cases equal

end Semasm.Cfg
