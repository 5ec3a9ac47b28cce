import Semasm.Cfg.Lookup

/-!
# The graph as a function of the address order

A block of the graph is the one of a run, its edges lead to the runs that hold
the printed addresses and the address behind it. Apart from the places in the
given list nothing in the graph depends on more than the address order.
-/

namespace Semasm.Cfg

open Decode Library

/-- The runs as instructions, without their places in the given list. -/
def orderedRuns (instructions : List PhysicalInstruction) : List (List PhysicalInstruction) :=
  (runs instructions).map (List.map Prod.fst)

/-- The address behind an address, in address order. -/
def following (instructions : List PhysicalInstruction) (address : UInt64) : Option UInt64 :=
  (((order instructions).map Prod.fst).find? (fun ins => address < ins.address)).map
    PhysicalInstruction.address

/-- Addresses rise along the address order. -/
theorem order_addresses (instructions : List PhysicalInstruction)
    (distinct : DistinctAddresses instructions) :
    (order instructions).Pairwise (fun one two => one.1.address < two.1.address) := by
  have total : Std.Total notAfter := ⟨fun one two => UInt64.le_total one.1.address two.1.address⟩
  have trans : IsTrans Indexed notAfter := ⟨fun _ _ _ first second => UInt64.le_trans first second⟩
  have sorted : (order instructions).Pairwise notAfter :=
    List.pairwise_insertionSort notAfter instructions.zipIdx
  have differ : (order instructions).Pairwise
      (fun one two => one.1.address ≠ two.1.address) := by
    have addresses : (instructions.zipIdx.map (fun entry => entry.1.address)).Nodup := by
      have same : instructions.zipIdx.map (fun entry => entry.1.address) =
          (instructions.zipIdx.map Prod.fst).map PhysicalInstruction.address := by
        rw [List.map_map]
        rfl
      rw [same, List.zipIdx_map_fst]
      exact distinct
    have sortedAddresses : ((order instructions).map
        (fun (entry : Indexed) => entry.1.address)).Nodup :=
      ((List.perm_insertionSort notAfter instructions.zipIdx).map _).nodup_iff.mpr addresses
    exact List.pairwise_map.mp sortedAddresses
  refine (sorted.and differ).imp ?_
  rintro one two ⟨notAbove, unequal⟩
  exact UInt64.lt_of_le_of_ne notAbove unequal

/-- The address behind an instruction is the following one. -/
theorem nextAddress_following (instructions : List PhysicalInstruction)
    (distinct : DistinctAddresses instructions) (entry : Indexed)
    (member : entry ∈ order instructions) :
    nextAddress (order instructions) entry.2 = following instructions entry.1.address := by
  have places := order_places instructions
  have rising := order_addresses instructions distinct
  unfold nextAddress following
  obtain ⟨before, after, split⟩ := List.append_of_mem member
  rw [split] at places rising ⊢
  obtain ⟨_, _, below⟩ := List.pairwise_append.mp rising
  obtain ⟨above, _⟩ := List.pairwise_cons.mp (List.pairwise_append.mp rising).2.1
  have fresh : ∀ other ∈ before, other.2 ≠ entry.2 := by
    intro other earlier same
    rw [List.map_append, List.map_cons] at places
    exact (List.nodup_append.mp places).2.2 _ (List.mem_map_of_mem earlier) _ (by simp) same
  have own : (before ++ entry :: after).findIdx? (fun other => other.2 == entry.2) =
      some before.length := by
    rw [List.findIdx?_append, List.findIdx?_eq_none_iff.mpr (by simpa using fresh),
      List.findIdx?_cons]
    simp
  have next : ((before ++ entry :: after).map Prod.fst).find?
      (fun ins => entry.1.address < ins.address) = (after.map Prod.fst).head? := by
    rw [List.map_append, List.find?_append, List.find?_eq_none.mpr, Option.none_or, List.map_cons,
      List.find?_cons_of_neg (by simp)]
    · cases after with
      | nil => rfl
      | cons second after =>
        rw [List.map_cons, List.find?_cons_of_pos (by simpa using above second (by simp)),
          List.head?_cons]
    · intro ins earlier
      obtain ⟨other, inside, rfl⟩ := List.mem_map.mp earlier
      have order := below other inside entry (by simp)
      simpa using UInt64.le_of_lt order
  have second : (before ++ entry :: after)[before.length + 1]? = after.head? := by
    rw [List.getElem?_append_right (by omega), Nat.add_sub_cancel_left, List.getElem?_cons_succ,
      List.head?_eq_getElem?]
  simp only [own, next, second, List.head?_map, Option.map_map]
  rfl

/-- The edges of an instruction, by the addresses they lead to. -/
def addressEdges (behind : Option UInt64) (ins : PhysicalInstruction) : List (EdgeKind × UInt64) :=
  match classify ins with
  | .unconditionalBranch _ address => [(.jump, address)]
  | .conditionalBranch _ takenAddress =>
    (.conditionalTaken, takenAddress) :: behind.toList.map (fun address => (.fallthrough, address))
  | .call _ (some address) => [(.call, address)]
  | .call _ none | .ret | .indirect | .unknown | .fallthrough => []

/-- An instruction contributes the edges to the instructions at these addresses. -/
theorem entryEdges_addresses (instructions : List PhysicalInstruction)
    (distinct : DistinctAddresses instructions) (entry : Indexed)
    (member : entry ∈ order instructions) :
    entryEdges (addrToInstr instructions) (order instructions) entry =
      (addressEdges (following instructions entry.1.address) entry.1).map
        (fun edge => ⟨0, addrToInstr instructions edge.2, edge.1⟩) := by
  have next := nextAddress_following instructions distinct entry member
  unfold entryEdges addressEdges
  cases classified : classify entry.1 with
  | conditionalBranch taken takenAddress =>
    simp only [instructionEdges, next]
    cases following instructions entry.1.address <;> rfl
  | call target address => cases address <;> rfl
  | fallthrough => rfl
  | unconditionalBranch target address => rfl
  | ret => rfl
  | indirect => rfl
  | unknown => rfl

/-- The resolved edges of a run. -/
def runEdges (instructions : List PhysicalInstruction) (index : Nat)
    (run : List PhysicalInstruction) : List Edge :=
  run.flatMap (fun ins => (addressEdges (following instructions ins.address) ins).map
    (fun edge => ⟨index, blockAt instructions edge.2, edge.1⟩))

/-- The end of a block rebuilt from its resolved edges. -/
def rebuiltEnd (resolved : List Edge) : BlockEnd → BlockEnd
  | .unconditionalBranch _ address => .unconditionalBranch (lastTarget .jump resolved) address
  | .conditionalBranch _ takenAddress =>
    .conditionalBranch (lastTarget .conditionalTaken resolved) takenAddress
  | .call _ address => .call (lastTarget .call resolved) address
  | other => other

/-- The block of a run in the graph. -/
def orderedBlock (instructions : List PhysicalInstruction) (index : Nat) (run : List Indexed)
    (first last : Indexed) : Block :=
  let edges := runEdges instructions index (run.map Prod.fst)
  { index := index
    startInstruction := first.2
    endInstruction := last.2 + 1
    startAddress := first.1.address
    endAddress := last.1.address
    successors := edges
    blockEnd := rebuiltEnd edges (classify last.1) }

/-- Resolving the block of a run. -/
theorem resolveBlock_run (instructions : List PhysicalInstruction)
    (distinct : DistinctAddresses instructions) (index : Nat) (run : List Indexed)
    (first last : Indexed) (inside : ∀ entry ∈ run, entry ∈ order instructions) :
    resolveBlock (instrToBlock (firstPass instructions))
        (blockOfRun (addrToInstr instructions) (order instructions) run first last, index) =
      orderedBlock instructions index run first last := by
  have edges : (run.flatMap (entryEdges (addrToInstr instructions) (order instructions))).map
        (resolveEdge (instrToBlock (firstPass instructions)) index) =
      runEdges instructions index (run.map Prod.fst) := by
    rw [runEdges, List.map_flatMap, List.flatMap_map]
    apply List.flatMap_congr
    intro entry member
    rw [entryEdges_addresses instructions distinct entry (inside entry member), List.map_map]
    rfl
  cases kind : classify last.1 <;>
    simp only [resolveBlock, blockOfRun, edges, orderedBlock, rebuiltEnd, kind]

/-- The blocks of the graph are the blocks of the runs. -/
theorem graph_block_iff (instructions : List PhysicalInstruction)
    (distinct : DistinctAddresses instructions) (graph : ControlFlowGraph)
    (built : build instructions = .ok graph) (index : Nat) (block : Block) :
    graph.blocks[index]? = some block ↔
      ∃ run first last, (runs instructions)[index]? = some run ∧ run.head? = some first ∧
        run.getLast? = some last ∧ block = orderedBlock instructions index run first last := by
  have blocks : graph.blocks = (firstPass instructions).zipIdx.map
      (resolveBlock (instrToBlock (firstPass instructions))) := by
    unfold build at built
    split at built
    · cases built
    · exact congrArg ControlFlowGraph.blocks (Except.ok.inj built).symm
  have inside : ∀ run, (runs instructions)[index]? = some run →
      ∀ entry ∈ run, entry ∈ order instructions := by
    intro run found entry member
    rw [← flatten_runs]
    exact List.mem_flatten.mpr ⟨run, List.mem_of_getElem? found, member⟩
  rw [blocks, List.getElem?_map, List.getElem?_zipIdx]
  rcases firstPass_at instructions index with
    ⟨absent, missing⟩ | ⟨run, first, last, held, head, ends, found⟩
  · simp [absent, missing]
  · have resolved := resolveBlock_run instructions distinct index run first last (inside run held)
    simp only [found, held, Option.map_some, Nat.zero_add, resolved, Option.some.injEq]
    constructor
    · rintro rfl
      exact ⟨run, first, last, rfl, head, ends, rfl⟩
    · rintro ⟨_, _, _, rfl, atHead, atEnd, rfl⟩
      rw [head] at atHead
      rw [ends] at atEnd
      cases atHead
      cases atEnd
      rfl

/-- A run and its block have one place in the graph. -/
theorem graph_block_at (instructions : List PhysicalInstruction)
    (distinct : DistinctAddresses instructions) (graph : ControlFlowGraph)
    (built : build instructions = .ok graph) (index : Nat) :
    ((runs instructions)[index]? = none ∧ graph.blocks[index]? = none) ∨
      ∃ run first last, (runs instructions)[index]? = some run ∧ run.head? = some first ∧
        run.getLast? = some last ∧
        graph.blocks[index]? = some (orderedBlock instructions index run first last) := by
  have blocks := graph_block_iff instructions distinct graph built index
  cases held : (runs instructions)[index]? with
  | none =>
    refine Or.inl ⟨rfl, ?_⟩
    cases found : graph.blocks[index]? with
    | none => rfl
    | some block =>
      obtain ⟨run, _, _, there, _⟩ := (blocks block).mp found
      rw [held] at there
      cases there
  | some run =>
    have inhabited : run ≠ [] := Segments.segments_ne_nil _ _ _ (List.mem_of_getElem? held)
    have head := List.head?_eq_some_head inhabited
    have atEnd := List.getLast?_eq_some_getLast inhabited
    exact Or.inr ⟨run, _, _, rfl, head, atEnd, (blocks _).mpr ⟨run, _, _, held, head, atEnd, rfl⟩⟩

/-- The entries of a run are instructions of the list. -/
theorem run_entry (instructions : List PhysicalInstruction) (index : Nat) (run : List Indexed)
    (held : (runs instructions)[index]? = some run) (entry : Indexed) (member : entry ∈ run) :
    instructions[entry.2]? = some entry.1 := by
  rw [← mem_order, ← flatten_runs]
  exact List.mem_flatten.mpr ⟨run, List.mem_of_getElem? held, member⟩

/-- Where runs are consecutive, a block covers the places of its run. -/
theorem instrToBlock_run (instructions : List PhysicalInstruction)
    (consecutive : Consecutive instructions) (place index : Nat) :
    instrToBlock (firstPass instructions) place = some index ↔
      ∃ run, (runs instructions)[index]? = some run ∧ place ∈ run.map Prod.snd := by
  have covers : ∀ (index : Nat) block, (firstPass instructions)[index]? = some block →
      ∃ run, (runs instructions)[index]? = some run ∧
        (block.Covers place ↔ place ∈ run.map Prod.snd) := by
    intro index block found
    rcases firstPass_at instructions index with
      ⟨_, missing⟩ | ⟨run, first, last, held, head, ends, own⟩
    · rw [missing] at found
      cases found
    · rw [own] at found
      cases found
      refine ⟨run, held, ?_⟩
      rw [← consecutive run (List.mem_of_getElem? held) first last head ends place]
      exact and_congr Iff.rfl Nat.lt_succ_iff
  rw [instrToBlock_eq_some_iff]
  · constructor
    · rintro ⟨block, found, inside⟩
      obtain ⟨run, held, same⟩ := covers index block found
      exact ⟨run, held, same.mp inside⟩
    · rintro ⟨run, held, inside⟩
      rcases firstPass_at instructions index with ⟨absent, _⟩ | ⟨_, _, _, _, _, _, found⟩
      · rw [absent] at held
        cases held
      · obtain ⟨other, there, same⟩ := covers index _ found
        rw [held] at there
        cases there
        exact ⟨_, found, same.mpr inside⟩
  · intro first second one two atFirst atSecond inFirst inSecond
    obtain ⟨run, held, same⟩ := covers first one atFirst
    obtain ⟨other, there, again⟩ := covers second two atSecond
    exact run_unique instructions first second run other held there place (same.mp inFirst)
      (again.mp inSecond)

/-- Where runs are consecutive, an address belongs to the run that holds it. -/
theorem blockAt_eq_some_iff (instructions : List PhysicalInstruction)
    (distinct : DistinctAddresses instructions) (consecutive : Consecutive instructions)
    (address : UInt64) (index : Nat) :
    blockAt instructions address = some index ↔
      ∃ run, (runs instructions)[index]? = some run ∧ ∃ entry ∈ run, entry.1.address = address := by
  unfold blockAt
  constructor
  · intro found
    obtain ⟨place, located, known⟩ := Option.bind_eq_some_iff.mp found
    obtain ⟨run, held, inside⟩ := (instrToBlock_run instructions consecutive place index).mp known
    obtain ⟨ins, atPlace, same⟩ :=
      (addrToInstr_eq_some_iff instructions distinct address place).mp located
    obtain ⟨entry, member, rfl⟩ := List.mem_map.mp inside
    have own := run_entry instructions index run held entry member
    rw [own] at atPlace
    cases atPlace
    exact ⟨run, held, entry, member, same⟩
  · rintro ⟨run, held, entry, member, same⟩
    rw [(addrToInstr_eq_some_iff instructions distinct address entry.2).mpr
      ⟨entry.1, run_entry instructions index run held entry member, same⟩, Option.bind_some]
    exact (instrToBlock_run instructions consecutive entry.2 index).mpr
      ⟨run, held, List.mem_map_of_mem member⟩

/-- The instructions are given in address order. -/
def AddressOrder (instructions : List PhysicalInstruction) : Prop :=
  instructions.Pairwise (fun one two => one.address < two.address)

theorem AddressOrder.distinct {instructions : List PhysicalInstruction}
    (sorted : AddressOrder instructions) : DistinctAddresses instructions := by
  apply List.pairwise_map.mpr
  refine sorted.imp ?_
  intro one two below same
  rw [same] at below
  exact absurd below (UInt64.lt_irrefl _)

/-- Instructions in address order are left as they are given. -/
theorem order_of_sorted (instructions : List PhysicalInstruction)
    (sorted : AddressOrder instructions) : order instructions = instructions.zipIdx := by
  apply List.Pairwise.insertionSort_eq
  have rising : (instructions.zipIdx.map Prod.fst).Pairwise
      (fun one two => one.address < two.address) := by
    rw [List.zipIdx_map_fst]
    exact sorted
  exact (List.pairwise_map.mp rising).imp (fun below => UInt64.le_of_lt below)

/-- A part of a list of consecutive numbers is a list of consecutive numbers. -/
theorem parts_range (parts : List (List Nat)) (start count : Nat)
    (whole : parts.flatten = List.range' start count) (index : Nat) (part : List Nat)
    (found : parts[index]? = some part) :
    part = List.range' (start + (parts.take index).flatten.length) part.length := by
  induction parts generalizing start count index with
  | nil => cases found
  | cons first rest inductionHypothesis =>
    rw [List.flatten_cons] at whole
    have lengths := congrArg List.length whole
    rw [List.length_append, List.length_range'] at lengths
    have split := congrArg (List.take first.length) whole
    have others := congrArg (List.drop first.length) whole
    rw [List.take_left, List.take_range'_of_length_ge (by omega)] at split
    rw [List.drop_left, List.drop_range'] at others
    cases index with
    | zero =>
      cases found
      simpa using split
    | succ index =>
      rw [inductionHypothesis _ _ others index found]
      simp [Nat.add_assoc]

/-- In address order the places of a run are consecutive numbers. -/
theorem run_places (instructions : List PhysicalInstruction) (sorted : AddressOrder instructions)
    (index : Nat) (run : List Indexed) (held : (runs instructions)[index]? = some run) :
    run.map Prod.snd =
      List.range' ((runs instructions).take index).flatten.length run.length := by
  have whole : ((runs instructions).map (List.map Prod.snd)).flatten =
      List.range' 0 instructions.length := by
    rw [← List.map_flatten, flatten_runs, order_of_sorted instructions sorted, List.zipIdx_map_snd]
  have part := parts_range _ 0 instructions.length whole index (run.map Prod.snd)
    (by rw [List.getElem?_map, held]; rfl)
  rw [part]
  simp [← List.map_take, ← List.map_flatten]

/-- The first and the last place of consecutive numbers. -/
theorem ends_of_places (run : List Indexed) (start : Nat) (first last : Indexed)
    (places : run.map Prod.snd = List.range' start run.length) (head : run.head? = some first)
    (ends : run.getLast? = some last) : first.2 = start ∧ last.2 + 1 = start + run.length := by
  have inhabited : 0 < run.length := by
    cases run with
    | nil => cases head
    | cons entry rest => simp
  constructor
  · have same := congrArg List.head? places
    rw [List.head?_map, head, List.head?_range', if_neg (by omega)] at same
    simpa using same
  · have same := congrArg List.getLast? places
    rw [List.getLast?_map, ends, List.getLast?_range', if_neg (by omega)] at same
    simp at same
    omega

/-- Instructions in address order have consecutive runs. -/
theorem AddressOrder.consecutive {instructions : List PhysicalInstruction}
    (sorted : AddressOrder instructions) : Consecutive instructions := by
  intro run member first last head ends place
  obtain ⟨index, held⟩ := List.mem_iff_getElem?.mp member
  have places := run_places instructions sorted index run held
  obtain ⟨start, stop⟩ := ends_of_places run _ first last places head ends
  rw [places, List.mem_range'_1, ← start]
  omega

end Semasm.Cfg
