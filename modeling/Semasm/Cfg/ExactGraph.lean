import Semasm.Cfg.Exactness
import Semasm.Cfg.Transfers

/-!
# Where the graph is exact

In address order the runs are intervals of places, and two places are in one run
exactly when nothing between them closes a block. So the graph can be compared
with the direct successors place by place.
-/

namespace Semasm.Cfg

open Decode Library

/-- The place belongs to the run with this index. -/
def InRun (instructions : List PhysicalInstruction) (index place : Nat) : Prop :=
  ∃ run, (runs instructions)[index]? = some run ∧ place ∈ run.map Prod.snd

/-- The first place of a run, in address order. -/
def runStart (instructions : List PhysicalInstruction) (index : Nat) : Nat :=
  ((runs instructions).take index).flatten.length

theorem runStart_succ (instructions : List PhysicalInstruction) (index : Nat) (run : List Indexed)
    (held : (runs instructions)[index]? = some run) :
    runStart instructions (index + 1) = runStart instructions index + run.length := by
  unfold runStart
  rw [List.take_add_one, held, List.flatten_append, List.length_append]
  simp

/-- Behind the last run nothing starts any more. -/
theorem runStart_after (instructions : List PhysicalInstruction) (index : Nat)
    (held : (runs instructions)[index]? = none) :
    runStart instructions (index + 1) = runStart instructions index := by
  have out : (runs instructions).length ≤ index := List.getElem?_eq_none_iff.mp held
  unfold runStart
  rw [List.take_of_length_le out, List.take_of_length_le (by omega)]

theorem runStart_mono (instructions : List PhysicalInstruction) :
    Monotone (runStart instructions) := by
  apply monotone_nat_of_le_succ
  intro index
  cases held : (runs instructions)[index]? with
  | none => exact (runStart_after instructions index held).ge
  | some run =>
    rw [runStart_succ instructions index run held]
    exact Nat.le_add_right _ _

/-- In address order a run is an interval of places. -/
theorem inRun_iff (instructions : List PhysicalInstruction) (sorted : AddressOrder instructions)
    (index place : Nat) : InRun instructions index place ↔
      runStart instructions index ≤ place ∧ place < runStart instructions (index + 1) := by
  cases held : (runs instructions)[index]? with
  | none =>
    have same := runStart_after instructions index held
    constructor
    · rintro ⟨run, found, _⟩
      rw [held] at found
      cases found
    · omega
  | some run =>
    have interval : InRun instructions index place ↔ place ∈ run.map Prod.snd := by
      unfold InRun
      simp [held]
    rw [interval, run_places instructions sorted index run held, List.mem_range'_1,
      runStart_succ instructions index run held]
    rfl

/-- Every place belongs to a run. -/
theorem inRun_of_place (instructions : List PhysicalInstruction) (place : Nat)
    (ins : PhysicalInstruction) (found : instructions[place]? = some ins) :
    ∃ index, InRun instructions index place := by
  have member : (ins, place) ∈ order instructions := (mem_order instructions (ins, place)).mpr found
  rw [← flatten_runs] at member
  obtain ⟨run, inside, own⟩ := List.mem_flatten.mp member
  obtain ⟨index, held⟩ := List.mem_iff_getElem?.mp inside
  exact ⟨index, run, held, List.mem_map_of_mem own⟩

theorem InRun.place {instructions : List PhysicalInstruction} {index place : Nat}
    (inside : InRun instructions index place) : ∃ ins, instructions[place]? = some ins := by
  obtain ⟨run, held, member⟩ := inside
  obtain ⟨entry, own, rfl⟩ := List.mem_map.mp member
  exact ⟨entry.1, run_entry instructions index run held entry own⟩

/-- An instruction behind which its run goes on does not close a block. -/
theorem inner_stays (instructions : List PhysicalInstruction) (sorted : AddressOrder instructions)
    (index place : Nat) (above : runStart instructions index ≤ place)
    (below : place + 1 < runStart instructions (index + 1)) (ins : PhysicalInstruction)
    (found : instructions[place]? = some ins) : terminates ins = false := by
  obtain ⟨run, held, member⟩ := (inRun_iff instructions sorted index place).mpr ⟨above, by omega⟩
  obtain ⟨entry, own, rfl⟩ := List.mem_map.mp member
  rw [run_entry instructions index run held entry own] at found
  cases found
  have inhabited : run ≠ [] := List.ne_nil_of_mem own
  have places := run_places instructions sorted index run held
  obtain ⟨first, head⟩ : ∃ first, run.head? = some first := ⟨_, List.head?_eq_some_head inhabited⟩
  have atEnd := List.getLast?_eq_some_getLast inhabited
  obtain ⟨_, stop⟩ := ends_of_places run _ first _ places head atEnd
  rw [runStart_succ instructions index run held] at below
  have inner : entry ∈ run.dropLast := by
    rw [← List.dropLast_append_getLast inhabited] at own
    rcases List.mem_append.mp own with before | last
    · exact before
    · obtain rfl := List.mem_singleton.mp last
      unfold runStart at below
      omega
  exact Segments.segments_inner (fun entry => terminates entry.1) (order instructions) run
    (List.mem_of_getElem? held) entry inner

/-- The last instruction of a run that another run follows closes a block. -/
theorem last_closes (instructions : List PhysicalInstruction) (sorted : AddressOrder instructions)
    (index : Nat) (more : index + 1 < (runs instructions).length) (place : Nat)
    (last : place + 1 = runStart instructions (index + 1)) (ins : PhysicalInstruction)
    (found : instructions[place]? = some ins) : terminates ins = true := by
  have held : (runs instructions)[index]? = some ((runs instructions)[index]) :=
    List.getElem?_eq_getElem (by omega)
  have inhabited : (runs instructions)[index] ≠ [] :=
    Segments.segments_ne_nil _ _ _ (List.mem_of_getElem? held)
  obtain ⟨first, head⟩ : ∃ first, ((runs instructions)[index]).head? = some first :=
    ⟨_, List.head?_eq_some_head inhabited⟩
  have atEnd := List.getLast?_eq_some_getLast inhabited
  obtain ⟨_, stop⟩ := ends_of_places _ _ first _ (run_places instructions sorted index _ held) head atEnd
  have entry := run_entry instructions index _ held _ (List.getLast_mem inhabited)
  rw [runStart_succ instructions index _ held] at last
  unfold runStart at last
  have same : place = ((runs instructions)[index].getLast inhabited).2 := by omega
  rw [same, entry] at found
  cases found
  exact Segments.segments_last (fun (entry : Indexed) => terminates entry.1) (order instructions) index
    _ held more _ atEnd

/-- Two places are in one run exactly when nothing between them closes a block. -/
theorem sameRun_iff (instructions : List PhysicalInstruction) (sorted : AddressOrder instructions)
    (index place other : Nat) (inside : InRun instructions index place)
    (ins : PhysicalInstruction) (found : instructions[other]? = some ins) :
    SameRun instructions place other ↔ InRun instructions index other := by
  have own := (inRun_iff instructions sorted index place).mp inside
  constructor
  · intro same
    obtain ⟨second, there⟩ := inRun_of_place instructions other ins found
    have apart := (inRun_iff instructions sorted second other).mp there
    -- The end of the lower of two different runs would lie between the places.
    have closed : ∀ lower place other, lower + 1 < (runs instructions).length →
        place < runStart instructions (lower + 1) → runStart instructions lower ≤ place →
        runStart instructions (lower + 1) ≤ other →
        ¬ SameRun instructions place other := by
      intro lower place other more below above behind same
      obtain ⟨last, atLast⟩ := ((inRun_iff instructions sorted lower
        (runStart instructions (lower + 1) - 1)).mpr (by omega)).place
      have closes := last_closes instructions sorted lower more
        (runStart instructions (lower + 1) - 1) (by omega) last atLast
      have stays := same (runStart instructions (lower + 1) - 1) last (by omega) (by omega) atLast
      rw [closes] at stays
      cases stays
    have mirrored : SameRun instructions other place := by
      intro between ins above below
      exact same between ins (by omega) (by omega)
    have bound : ∀ index place, InRun instructions index place → index < (runs instructions).length := by
      rintro index place ⟨run, held, _⟩
      exact (List.getElem?_eq_some_iff.mp held).1
    rcases Nat.lt_trichotomy index second with before | equal | after
    · have mono := runStart_mono instructions (show index + 1 ≤ second from before)
      exact absurd same (closed index place other
        (by have := bound second other there; omega) own.2 own.1 (by omega))
    · rw [equal]
      exact there
    · have mono := runStart_mono instructions (show second + 1 ≤ index from after)
      exact absurd mirrored (closed second other place
        (by have := bound index place inside; omega) apart.2 apart.1 (by omega))
  · intro there between ins above below atBetween
    have far := (inRun_iff instructions sorted index other).mp there
    exact inner_stays instructions sorted index between (by omega) (by omega) ins atBetween

/-- In address order the following address is the one at the next place. -/
theorem following_place (instructions : List PhysicalInstruction) (sorted : AddressOrder instructions)
    (place : Nat) (ins : PhysicalInstruction) (found : instructions[place]? = some ins) :
    following instructions ins.address =
      (instructions[place + 1]?).map PhysicalInstruction.address := by
  have bound := (List.getElem?_eq_some_iff.mp found).1
  have member : (ins, place) ∈ order instructions := (mem_order instructions (ins, place)).mpr found
  have next := nextAddress_following instructions sorted.distinct (ins, place) member
  rw [← next, nextAddress, order_of_sorted instructions sorted]
  have position : instructions.zipIdx.findIdx? (fun entry => entry.2 == place) = some place := by
    rw [List.findIdx?_eq_some_iff_getElem]
    refine ⟨by simpa using bound, by simp, ?_⟩
    intro earlier below
    simp
    omega
  rw [position]
  simp only [List.getElem?_zipIdx, Option.map_map]
  rfl

/-- The addresses an instruction has edges to. -/
theorem mem_addressEdges_iff (behind : Option UInt64) (ins : PhysicalInstruction) (address : UInt64) :
    (∃ kind, (kind, address) ∈ addressEdges behind ins) ↔
      ((classify ins).isConditional = true ∧ behind = some address) ∨
        (classify ins).named = some address := by
  unfold addressEdges
  cases classify ins with
  | conditionalBranch taken takenAddress =>
    cases behind <;> simp [BlockEnd.isConditional, BlockEnd.named, exists_or, eq_comm, or_comm]
  | call target printed => cases printed <;> simp [BlockEnd.isConditional, BlockEnd.named, eq_comm]
  | fallthrough => simp [BlockEnd.isConditional, BlockEnd.named]
  | unconditionalBranch target printed => simp [BlockEnd.isConditional, BlockEnd.named, eq_comm]
  | ret => simp [BlockEnd.isConditional, BlockEnd.named]
  | indirect => simp [BlockEnd.isConditional, BlockEnd.named]
  | unknown => simp [BlockEnd.isConditional, BlockEnd.named]

/-- An instruction has an edge to the address at a place exactly when its role leads there. -/
theorem drawnTo_iff (instructions : List PhysicalInstruction) (sorted : AddressOrder instructions)
    (place next : Nat) (ins after : PhysicalInstruction) (found : instructions[place]? = some ins)
    (there : instructions[next]? = some after) :
    DrawnTo instructions place next ↔
      ∃ kind, (kind, after.address) ∈ addressEdges (following instructions ins.address) ins := by
  rw [mem_addressEdges_iff, following_place instructions sorted place ins found]
  have adjacent : (instructions[place + 1]?).map PhysicalInstruction.address = some after.address ↔
      next = place + 1 := by
    constructor
    · intro same
      obtain ⟨second, atNext, equal⟩ := Option.map_eq_some_iff.mp same
      exact (index_unique instructions sorted.distinct (place + 1) next second after atNext there
        equal).symm
    · rintro rfl
      rw [there, Option.map_some]
  rw [adjacent]
  constructor
  · rintro ⟨_, _, held, other, leads⟩
    rw [found] at held
    rw [there] at other
    cases held
    cases other
    exact leads
  · intro leads
    exact ⟨ins, after, found, there, leads⟩

/-- The edges of a block lead from its index to the runs its instructions lead to. -/
theorem block_edges (instructions : List PhysicalInstruction) (sorted : AddressOrder instructions)
    (graph : ControlFlowGraph) (built : build instructions = .ok graph) (index : Nat) (block : Block)
    (held : graph.blocks[index]? = some block) (target : Nat) :
    (∃ edge ∈ block.successors, edge.target = some target) ↔
      ∃ place next, InRun instructions index place ∧ InRun instructions target next ∧
        DrawnTo instructions place next := by
  obtain ⟨run, first, last, found, _, _, rfl⟩ :=
    (graph_block_iff instructions sorted.distinct graph built index block).mp held
  have resolved := blockAt_eq_some_iff instructions sorted.distinct sorted.consecutive
  constructor
  · rintro ⟨edge, member, leads⟩
    obtain ⟨ins, own, inside⟩ := List.mem_flatMap.mp member
    obtain ⟨entry, there, rfl⟩ := List.mem_map.mp own
    obtain ⟨⟨kind, address⟩, printed, rfl⟩ := List.mem_map.mp inside
    obtain ⟨other, goal, reached, arrives, rfl⟩ := (resolved address target).mp leads
    refine ⟨entry.2, reached.2, ⟨run, found, List.mem_map_of_mem there⟩,
      ⟨other, goal, List.mem_map_of_mem arrives⟩, ?_⟩
    exact (drawnTo_iff instructions sorted entry.2 reached.2 entry.1 reached.1
      (run_entry instructions index run found entry there)
      (run_entry instructions target other goal reached arrives)).mpr ⟨kind, printed⟩
  · rintro ⟨place, next, ⟨own, atIndex, member⟩, ⟨other, goal, arrives⟩, drawn⟩
    rw [found] at atIndex
    cases atIndex
    obtain ⟨entry, there, rfl⟩ := List.mem_map.mp member
    obtain ⟨reached, lies, rfl⟩ := List.mem_map.mp arrives
    obtain ⟨kind, printed⟩ := (drawnTo_iff instructions sorted entry.2 reached.2 entry.1 reached.1
      (run_entry instructions index run found entry there)
      (run_entry instructions target other goal reached lies)).mp drawn
    refine ⟨⟨index, blockAt instructions reached.1.address, kind⟩, ?_,
      (resolved _ target).mpr ⟨other, goal, reached, lies, rfl⟩⟩
    refine List.mem_flatMap.mpr ⟨entry.1, List.mem_map_of_mem there, ?_⟩
    exact List.mem_map.mpr ⟨(kind, reached.1.address), printed, rfl⟩

/-- Every edge of a block starts there. -/
theorem edge_source (instructions : List PhysicalInstruction) (sorted : AddressOrder instructions)
    (graph : ControlFlowGraph) (built : build instructions = .ok graph) (index : Nat) (block : Block)
    (held : graph.blocks[index]? = some block) : ∀ edge ∈ block.successors, edge.source = index := by
  obtain ⟨run, first, last, _, _, _, rfl⟩ :=
    (graph_block_iff instructions sorted.distinct graph built index block).mp held
  intro edge member
  obtain ⟨ins, _, inside⟩ := List.mem_flatMap.mp member
  obtain ⟨_, _, rfl⟩ := List.mem_map.mp inside
  rfl

/-- A block of the graph covers the places of its run. -/
theorem covers_iff (instructions : List PhysicalInstruction) (sorted : AddressOrder instructions)
    (graph : ControlFlowGraph) (built : build instructions = .ok graph) (index place : Nat) :
    graph.Covers index place ↔ InRun instructions index place := by
  unfold ControlFlowGraph.Covers InRun
  rcases graph_block_at instructions sorted.distinct graph built index with
    ⟨absent, missing⟩ | ⟨run, first, last, held, head, ends, found⟩
  · simp [absent, missing]
  · have interval := sorted.consecutive run (List.mem_of_getElem? held) first last head ends place
    simp only [found, held, Option.some.injEq, exists_eq_left', Block.Holds, orderedBlock,
      ← interval, Nat.lt_succ_iff]

/-- The block of a run lists its places. -/
theorem block_places (instructions : List PhysicalInstruction) (sorted : AddressOrder instructions)
    (index : Nat) (run : List Indexed) (first last : Indexed)
    (held : (runs instructions)[index]? = some run) (head : run.head? = some first)
    (ends : run.getLast? = some last) :
    (orderedBlock instructions index run first last).places = run.map Prod.snd := by
  have places := run_places instructions sorted index run held
  obtain ⟨start, stop⟩ := ends_of_places run _ first last places head ends
  unfold Block.places orderedBlock
  rw [places, stop, start, Nat.add_sub_cancel_left]

/-- The blocks put one after the other are the places of the list. -/
theorem blocks_tile (instructions : List PhysicalInstruction) (sorted : AddressOrder instructions)
    (graph : ControlFlowGraph) (built : build instructions = .ok graph) :
    graph.blocks.flatMap Block.places = List.range instructions.length := by
  have same : graph.blocks.map Block.places = (runs instructions).map (List.map Prod.snd) := by
    apply List.ext_getElem?
    intro index
    rw [List.getElem?_map, List.getElem?_map]
    rcases graph_block_at instructions sorted.distinct graph built index with
      ⟨absent, missing⟩ | ⟨run, first, last, held, head, ends, found⟩
    · rw [absent, missing]
      rfl
    · rw [held, found, Option.map_some, Option.map_some,
        block_places instructions sorted index run first last held head ends]
  rw [List.flatMap_def, same, ← List.map_flatten, flatten_runs, order_of_sorted instructions sorted,
    List.zipIdx_map_snd, List.range_eq_range']

/-- Without a word on the edges the graph is right for every stream. -/
theorem blocks_right (instructions : List PhysicalInstruction) (sorted : AddressOrder instructions)
    (graph : ControlFlowGraph) (built : build instructions = .ok graph) (index : Nat) (block : Block)
    (found : graph.blocks[index]? = some block) :
    block.index = index ∧ block.startInstruction < block.endInstruction ∧ ∃ first last,
      instructions[block.startInstruction]? = some first ∧ first.address = block.startAddress ∧
        instructions[block.endInstruction - 1]? = some last ∧ last.address = block.endAddress := by
  obtain ⟨run, first, last, held, head, ends, rfl⟩ :=
    (graph_block_iff instructions sorted.distinct graph built index block).mp found
  have inhabited : 0 < run.length := by
    cases run with
    | nil => cases head
    | cons entry rest => simp
  obtain ⟨start, stop⟩ := ends_of_places run _ first last
    (run_places instructions sorted index run held) head ends
  refine ⟨rfl, ?_, first.1, last.1, ?_, rfl, ?_, rfl⟩
  · simp only [orderedBlock]
    omega
  · exact run_entry instructions index run held first (List.mem_of_head? head)
  · exact run_entry instructions index run held last (List.mem_of_getLast? ends)

/-- Moving both ends inside their runs keeps the runs. -/
theorem sameRun_moves (instructions : List PhysicalInstruction) (sorted : AddressOrder instructions)
    (index target place next : Nat) (own : InRun instructions index place)
    (there : InRun instructions target next) (related : Nat → Nat → Prop)
    (inside : ∀ source goal, related source goal →
      (∃ ins, instructions[source]? = some ins) ∧ ∃ after, instructions[goal]? = some after) :
    (∃ source goal, SameRun instructions place source ∧ SameRun instructions next goal ∧
        related source goal) ↔
      ∃ source goal, InRun instructions index source ∧ InRun instructions target goal ∧
        related source goal := by
  have moved : ∀ source goal, related source goal →
      ((SameRun instructions place source ∧ SameRun instructions next goal) ↔
        (InRun instructions index source ∧ InRun instructions target goal)) := by
    intro source goal leads
    obtain ⟨⟨ins, atSource⟩, after, atGoal⟩ := inside source goal leads
    rw [sameRun_iff instructions sorted index place source own ins atSource,
      sameRun_iff instructions sorted target next goal there after atGoal]
  constructor
  · rintro ⟨source, goal, first, second, leads⟩
    obtain ⟨fromRun, toRun⟩ := (moved source goal leads).mp ⟨first, second⟩
    exact ⟨source, goal, fromRun, toRun, leads⟩
  · rintro ⟨source, goal, fromRun, toRun, leads⟩
    obtain ⟨first, second⟩ := (moved source goal leads).mpr ⟨fromRun, toRun⟩
    exact ⟨source, goal, first, second, leads⟩

/-- Two places are joined in the graph exactly when the text shows it. -/
theorem joined_iff_shown (instructions : List PhysicalInstruction)
    (sorted : AddressOrder instructions) (graph : ControlFlowGraph)
    (built : build instructions = .ok graph) (place next : Nat) (ins after : PhysicalInstruction)
    (found : instructions[place]? = some ins) (there : instructions[next]? = some after) :
    (∃ source target, graph.Covers source place ∧ graph.Covers target next ∧
      ((next = place + 1 ∧ source = target) ∨ graph.Leads source target)) ↔
      Shown instructions place next := by
  have covers := covers_iff instructions sorted graph built
  obtain ⟨index, own⟩ := inRun_of_place instructions place ins found
  obtain ⟨target, goal⟩ := inRun_of_place instructions next after there
  have unique : ∀ first second place, InRun instructions first place →
      InRun instructions second place → first = second := by
    rintro first second place ⟨one, atFirst, inFirst⟩ ⟨two, atSecond, inSecond⟩
    exact run_unique instructions first second one two atFirst atSecond place inFirst inSecond
  have leads : graph.Leads index target ↔
      ∃ source goal, InRun instructions index source ∧ InRun instructions target goal ∧
        DrawnTo instructions source goal := by
    rcases graph_block_at instructions sorted.distinct graph built index with
      ⟨absent, _⟩ | ⟨run, first, last, _, _, _, atIndex⟩
    · obtain ⟨run, held, _⟩ := own
      rw [absent] at held
      cases held
    · rw [← block_edges instructions sorted graph built index _ atIndex target]
      constructor
      · rintro ⟨block, held, edge, member, _, arrives⟩
        rw [atIndex] at held
        cases held
        exact ⟨edge, member, arrives⟩
      · rintro ⟨edge, member, arrives⟩
        exact ⟨_, atIndex, edge, member,
          edge_source instructions sorted graph built index _ atIndex edge member, arrives⟩
  have drawn := sameRun_moves instructions sorted index target place next own goal
    (DrawnTo instructions) (by
      rintro source goal ⟨ins, after, atSource, atGoal, _⟩
      exact ⟨⟨ins, atSource⟩, after, atGoal⟩)
  have neighbour : SameRun instructions place next ↔ index = target := by
    rw [sameRun_iff instructions sorted index place next own after there]
    constructor
    · intro inside
      exact unique index target next inside goal
    · rintro rfl
      exact goal
  unfold Shown
  rw [drawn, ← leads, neighbour]
  constructor
  · rintro ⟨source, other, inSource, inOther, joined⟩
    obtain rfl := unique source index place ((covers source place).mp inSource) own
    obtain rfl := unique other target next ((covers other next).mp inOther) goal
    exact joined
  · intro joined
    exact ⟨index, target, (covers index place).mpr own, (covers target next).mpr goal, joined⟩

/-- The edges of the graph lead to successors exactly when every place led to is backed. -/
theorem edges_iff_backed (meaning : PhysicalInstruction → Flow)
    (instructions : List PhysicalInstruction) (sorted : AddressOrder instructions)
    (graph : ControlFlowGraph) (built : build instructions = .ok graph) :
    (∀ (source : Nat) block, graph.blocks[source]? = some block →
      ∀ edge ∈ block.successors, ∀ target, edge.target = some target →
        edge.source = source ∧ ∃ place next, block.Holds place ∧ graph.Covers target next ∧
          DirectSuccessor meaning instructions place next) ↔
      ∀ place next, DrawnTo instructions place next → Backed meaning instructions place next := by
  have covers := covers_iff instructions sorted graph built
  have backed : ∀ index target place next, InRun instructions index place →
      InRun instructions target next → (Backed meaning instructions place next ↔
        ∃ source goal, InRun instructions index source ∧ InRun instructions target goal ∧
          DirectSuccessor meaning instructions source goal) := by
    intro index target place next own goal
    apply sameRun_moves instructions sorted index target place next own goal
    rintro source goal ⟨ins, after, atSource, atGoal, _⟩
    exact ⟨⟨ins, atSource⟩, after, atGoal⟩
  constructor
  · intro right place next drawn
    obtain ⟨ins, after, found, there, _⟩ := id drawn
    obtain ⟨index, own⟩ := inRun_of_place instructions place ins found
    obtain ⟨target, goal⟩ := inRun_of_place instructions next after there
    obtain ⟨block, held, _⟩ := (covers index place).mpr own
    obtain ⟨edge, member, arrives⟩ := (block_edges instructions sorted graph built index block held
      target).mpr ⟨place, next, own, goal, drawn⟩
    obtain ⟨_, source, reached, holds, covered, successor⟩ :=
      right index block held edge member target arrives
    exact (backed index target place next own goal).mpr ⟨source, reached,
      (covers index source).mp ⟨block, held, holds⟩, (covers target reached).mp covered, successor⟩
  · intro all index block held edge member target arrives
    refine ⟨edge_source instructions sorted graph built index block held edge member, ?_⟩
    obtain ⟨place, next, own, goal, drawn⟩ := (block_edges instructions sorted graph built index block
      held target).mp ⟨edge, member, arrives⟩
    obtain ⟨source, reached, fromRun, toRun, successor⟩ :=
      (backed index target place next own goal).mp (all place next drawn)
    obtain ⟨other, found, holds⟩ := (covers index source).mpr fromRun
    rw [held] at found
    cases found
    exact ⟨source, reached, holds, (covers target reached).mpr toRun, successor⟩

/-- The graph of instructions in address order is exact if and only if what is
misread is right all the same through other instructions of the same blocks.

Proof: both clauses on edges are statements about places. An instruction that is
read right satisfies them by itself, so only the misread ones are left. -/
theorem exact_iff_misreadings_covered (meaning : PhysicalInstruction → Flow)
    (instructions : List PhysicalInstruction) (sorted : AddressOrder instructions)
    (prints : PrintsTargets meaning instructions) (graph : ControlFlowGraph)
    (built : build instructions = .ok graph) :
    Exact meaning instructions graph ↔ MisreadingsCovered meaning instructions := by
  have edges := edges_iff_backed meaning instructions sorted graph built
  constructor
  · intro exact place ins found misread next
    constructor
    · intro successor
      obtain ⟨_, after, _, there, _⟩ := id successor
      exact (joined_iff_shown instructions sorted graph built place next ins after found there).mp
        (exact.successors place next successor)
    · exact edges.mp exact.edges place next
  · intro covered
    have right := blocks_right instructions sorted graph built
    refine ⟨blocks_tile instructions sorted graph built, ?_, ?_, ?_, ?_, edges.mpr ?_⟩
    · intro block member
      obtain ⟨index, found⟩ := List.mem_iff_getElem?.mp member
      exact (right index block found).2.1
    · intro index block found
      exact (right index block found).1
    · intro block member
      obtain ⟨index, found⟩ := List.mem_iff_getElem?.mp member
      exact (right index block found).2.2
    · intro place next successor
      obtain ⟨ins, after, found, there, _⟩ := id successor
      apply (joined_iff_shown instructions sorted graph built place next ins after found there).mpr
      by_cases read : ReadRight (meaning ins) (classify ins)
      · exact shown_of_readRight meaning instructions prints place next ins found read successor
      · exact (covered place ins found read next).1 successor
    · intro place next drawn
      obtain ⟨ins, after, found, there, _⟩ := id drawn
      by_cases read : ReadRight (meaning ins) (classify ins)
      · exact ⟨place, next, SameRun.refl _ _, SameRun.refl _ _,
          successor_of_readRight meaning instructions prints place next ins found read drawn⟩
      · exact (covered place ins found read next).2 drawn

/-- The flow of a few short x86 encodings: a jump with and without the bound prefix,
a branch on equality and a return. -/
def shortFlow (ins : PhysicalInstruction) : Flow :=
  let displaced (rel : UInt8) : UInt64 :=
    endAddress ins + UInt64.ofNat rel.toNat - (if rel < 0x80 then 0 else 0x100)
  match ins.bytes with
  | [0xf2, 0xeb, rel] => .jump (displaced rel)
  | [0xeb, rel] => .jump (displaced rel)
  | [0x74, rel] => .branch (displaced rel)
  | [0xc3] => .leaves
  | _ => .onward

/-- A branch over one instruction. -/
def branchOver : List PhysicalInstruction :=
  [⟨0, [0x74, 1], "je", ["3"], ["rflags"], [], ["jump", "branch_relative"], true⟩,
    ⟨2, [0x90], "nop", [], [], [], [], true⟩,
    ⟨3, [0xc3], "ret", [], ["rsp"], ["rsp"], ["ret"], true⟩]

/-- The graph of a branch over one instruction is exact. -/
theorem branchOver_exact :
    ∃ graph, build branchOver = .ok graph ∧ Exact shortFlow branchOver graph := by
  refine ⟨_, rfl, (exact_iff_misreadings_covered shortFlow branchOver ?_ ?_ _ rfl).mpr ?_⟩
  · unfold AddressOrder
    decide
  · intro ins member target named
    have printed : ∀ ins ∈ branchOver, (shortFlow ins).target = none ∨
        parseTarget ins = (shortFlow ins).target := by decide
    rcases printed ins member with silent | told
    · rw [silent] at named
      cases named
    · exact told.trans named
  · intro place ins found misread
    have read : ∀ ins ∈ branchOver, ReadRight (shortFlow ins) (classify ins) := by decide
    exact absurd (read ins (List.mem_of_getElem? found)) misread

/-- A jump with the bound prefix over a return. The mnemonic names the prefix. -/
def prefixedJump : List PhysicalInstruction :=
  [⟨0, [0xf2, 0xeb, 2], "bnd jmp", ["5"], [], [], ["jump", "branch_relative"], true⟩,
    ⟨3, [0x90], "nop", [], [], [], [], true⟩,
    ⟨4, [0xc3], "ret", [], ["rsp"], ["rsp"], ["ret"], true⟩,
    ⟨5, [0x90], "nop", [], [], [], [], true⟩,
    ⟨6, [0xc3], "ret", [], ["rsp"], ["rsp"], ["ret"], true⟩]

/-- A jump with a prefix is given a fall-through edge, to an instruction it never
goes on to. -/
theorem prefixed_jump_falls_through :
    Contiguous prefixedJump ∧ AddressOrder prefixedJump ∧ PrintsTargets shortFlow prefixedJump ∧
      ∃ graph, build prefixedJump = .ok graph ∧ ¬ Exact shortFlow prefixedJump graph := by
  refine ⟨⟨rfl, rfl, rfl, rfl, trivial⟩, ?_, ?_, _, rfl, ?_⟩
  · unfold AddressOrder
    decide
  · intro ins member target named
    have printed : ∀ ins ∈ prefixedJump, (shortFlow ins).target = none ∨
        parseTarget ins = (shortFlow ins).target := by decide
    rcases printed ins member with silent | told
    · rw [silent] at named
      cases named
    · exact told.trans named
  · intro exact
    obtain ⟨place, next, ⟨_, below⟩, ⟨block, held, start, stop⟩, ins, after, found, there, leads⟩ :=
      (exact.edges 0 _ rfl ⟨0, some 1, .fallthrough⟩ (by decide) 1 rfl).2
    obtain rfl := Option.some.inj held
    have source : place = 0 := Nat.lt_one_iff.mp below
    have reached : next = 1 ∨ next = 2 := by
      have lower : 1 ≤ next := start
      have upper : next < 3 := stop
      omega
    subst source
    obtain rfl := Option.some.inj found
    rcases reached with rfl | rfl
    · obtain rfl := Option.some.inj there
      revert leads
      decide
    · obtain rfl := Option.some.inj there
      revert leads
      decide

end Semasm.Cfg
