import Semasm.Cfg.ExactGraph
import Semasm.Cfg.OrderIndependence
import Semasm.Cfg.Transfers
import Semasm.Cfg.Unreachable

/-!
# What is executed in an unreachable block

A run of direct transfers starts at the lowest address, goes on, branches, calls and
returns behind the calls it made. While each of its steps is one that the graph shows,
every instruction it executes lies in a block that the report does not list. A step that
the builder does not read off the text leaves no edge, and then the report can list a
block that is executed.
-/

namespace Semasm.Cfg

open Decode Library Transitions

/-- Where control is: an instruction of the list, and the calls not yet returned from. -/
structure Control where
  place : Nat
  callers : List Nat
deriving DecidableEq, Repr

/-- The instruction at a place begins at an address. -/
def StartsAt (instructions : List PhysicalInstruction) (place : Nat) (address : UInt64) : Prop :=
  (instructions[place]?).map PhysicalInstruction.address = some address

/-- The instruction at a place begins at the lowest address. -/
def Lowest (instructions : List PhysicalInstruction) (place : Nat) : Prop :=
  ∃ first, instructions[place]? = some first ∧ ∀ ins ∈ instructions, first.address ≤ ins.address

/-- Control falls through to the end of the instruction. -/
def Flow.fallsThrough : Flow → Bool
  | .onward | .branch _ | .indirectCall => true
  | .jump _ | .call _ | .leaves => false

/-- One direct transfer within the list. The number in the middle is the place of the
instruction whose transfer it is: the call, when control returns behind it. -/
inductive Moves (meaning : PhysicalInstruction → Flow) (instructions : List PhysicalInstruction) :
    Control → Nat → Control → Prop
  | onward {place next : Nat} {callers : List Nat} {ins : PhysicalInstruction}
      (found : instructions[place]? = some ins) (falls : (meaning ins).fallsThrough = true)
      (there : StartsAt instructions next (endAddress ins)) :
      Moves meaning instructions ⟨place, callers⟩ place ⟨next, callers⟩
  | taken {place next : Nat} {callers : List Nat} {ins : PhysicalInstruction} {target : UInt64}
      (found : instructions[place]? = some ins)
      (branches : meaning ins = .jump target ∨ meaning ins = .branch target)
      (there : StartsAt instructions next target) :
      Moves meaning instructions ⟨place, callers⟩ place ⟨next, callers⟩
  | call {place next : Nat} {callers : List Nat} {ins : PhysicalInstruction} {target : UInt64}
      (found : instructions[place]? = some ins) (calls : meaning ins = .call target)
      (there : StartsAt instructions next target) :
      Moves meaning instructions ⟨place, callers⟩ place ⟨next, place :: callers⟩
  | ret {place caller next : Nat} {callers : List Nat} {ins calling : PhysicalInstruction}
      (found : instructions[place]? = some ins) (leaves : meaning ins = .leaves)
      (called : instructions[caller]? = some calling)
      (there : StartsAt instructions next (endAddress calling)) :
      Moves meaning instructions ⟨place, caller :: callers⟩ caller ⟨next, callers⟩

/-- A transfer that the graph shows: it goes on in its block, or an instruction of its
block is read as leading to the block of its target. -/
def ShownMove (meaning : PhysicalInstruction → Flow) (instructions : List PhysicalInstruction)
    (before after : Control) : Prop :=
  ∃ source, Moves meaning instructions before source after ∧ Shown instructions source after.place

/-- The entry block begins at the lowest address of all blocks. -/
theorem entryBlock_least (blocks : List Block) (inhabited : blocks ≠ []) :
    ∃ block ∈ blocks, block.index = entryBlock blocks ∧
      ∀ other ∈ blocks, block.startAddress ≤ other.startAddress := by
  cases blocks with
  | nil => exact absurd rfl inhabited
  | cons first rest =>
    have chosen : ∀ (rest : List Block) (best : Block),
        (rest.foldl (fun best next => if next.startAddress < best.startAddress then next else best)
            best) ∈ best :: rest ∧
          ∀ other ∈ best :: rest, (rest.foldl (fun best next =>
            if next.startAddress < best.startAddress then next else best) best).startAddress ≤
              other.startAddress := by
      intro rest
      induction rest with
      | nil => simp
      | cons next rest inductionHypothesis =>
        intro best
        obtain ⟨member, least⟩ := inductionHypothesis
          (if next.startAddress < best.startAddress then next else best)
        have better := least _ List.mem_cons_self
        rw [List.foldl_cons]
        constructor
        · rcases List.mem_cons.mp member with same | inside
          · rw [same]
            split <;> simp
          · simp [inside]
        · intro other listed
          rcases List.mem_cons.mp listed with rfl | listed
          · refine UInt64.le_trans better ?_
            split
            next below => exact UInt64.le_of_lt below
            next => exact UInt64.le_refl _
          · rcases List.mem_cons.mp listed with rfl | inside
            · refine UInt64.le_trans better ?_
              split
              next => exact UInt64.le_refl _
              next above => exact UInt64.not_lt.mp above
            · exact least other (List.mem_cons_of_mem _ inside)
    exact ⟨_, (chosen rest first).1, rfl, (chosen rest first).2⟩

/-- The entry block holds the instruction with the lowest address. -/
theorem entry_covers_lowest (instructions : List PhysicalInstruction)
    (sorted : AddressOrder instructions) (graph : ControlFlowGraph)
    (built : build instructions = .ok graph) (start : Nat) (lowest : Lowest instructions start) :
    graph.Covers graph.entryBlock start := by
  obtain ⟨first, found, least⟩ := lowest
  have closed := build_closed instructions graph built
  have inhabited : graph.blocks ≠ [] := List.ne_nil_of_length_pos (by have := closed.entry; omega)
  obtain ⟨block, member, index, below⟩ := entryBlock_least graph.blocks inhabited
  rw [← build_entry instructions graph built] at index
  obtain ⟨place, held⟩ := List.mem_iff_getElem?.mp member
  obtain ⟨own, filled, head, _, atHead, same, -⟩ :=
    blocks_right instructions sorted graph built place block held
  obtain ⟨home, inside⟩ := inRun_of_place instructions start first found
  obtain ⟨other, atHome, holds⟩ := (covers_iff instructions sorted graph built home start).mpr inside
  obtain ⟨_, _, firstOf, _, atFirst, address, -⟩ :=
    blocks_right instructions sorted graph built home other atHome
  have lower : firstOf.address ≤ first.address := by
    rcases Nat.lt_or_ge other.startInstruction start with before | after
    · obtain ⟨inFirst, isFirst⟩ := List.getElem?_eq_some_iff.mp atFirst
      obtain ⟨inStart, isStart⟩ := List.getElem?_eq_some_iff.mp found
      have rising := List.pairwise_iff_getElem.mp sorted _ _ inFirst inStart before
      rw [isFirst, isStart] at rising
      exact UInt64.le_of_lt rising
    · have equal : other.startInstruction = start := Nat.le_antisymm holds.1 after
      rw [equal, found] at atFirst
      cases atFirst
      exact UInt64.le_refl _
  have address : head.address = first.address := by
    apply UInt64.le_antisymm
    · rw [same]
      exact UInt64.le_trans (below other (List.mem_of_getElem? atHome)) (address ▸ lower)
    · exact least head (List.mem_of_getElem? atHead)
  have here := index_unique instructions sorted.distinct block.startInstruction start head first
    atHead found address
  refine ⟨block, ?_, ?_⟩
  · rw [← index, own]
    exact held
  · rw [← here]
    exact ⟨Nat.le_refl _, filled⟩

/-- A block that is reached from the entry along resolved edges. -/
def ControlFlowGraph.Reached (graph : ControlFlowGraph) (place : Nat) : Prop :=
  ∃ index, Reaches (fun index after => after ∈ graph.next index) graph.entryBlock index ∧
    graph.Covers index place

/-- A shown transfer from a reached block leads to a reached block. -/
theorem ControlFlowGraph.Reached.shown {instructions : List PhysicalInstruction}
    (sorted : AddressOrder instructions) {graph : ControlFlowGraph}
    (built : build instructions = .ok graph) {place next : Nat} (reached : graph.Reached place)
    (after : ∃ ins, instructions[next]? = some ins) (shown : Shown instructions place next) :
    graph.Reached next := by
  obtain ⟨index, path, covered⟩ := reached
  have covers := covers_iff instructions sorted graph built
  obtain ⟨ins, found⟩ := ((covers index place).mp covered).place
  obtain ⟨other, there⟩ := after
  obtain ⟨source, target, own, goal, joined⟩ :=
    (joined_iff_shown instructions sorted graph built place next ins other found there).mpr shown
  have same : source = index := by
    obtain ⟨one, atFirst, inFirst⟩ := (covers source place).mp own
    obtain ⟨two, atSecond, inSecond⟩ := (covers index place).mp covered
    exact run_unique instructions source index one two atFirst atSecond place inFirst inSecond
  subst same
  rcases joined with ⟨-, rfl⟩ | leads
  · exact ⟨source, path, goal⟩
  · obtain ⟨block, held, edge, member, -, arrives⟩ := leads
    refine ⟨target, path.next ?_, goal⟩
    unfold ControlFlowGraph.next
    rw [held]
    exact List.mem_filterMap.mpr ⟨edge, member, arrives⟩

/-- Control and the calls to return from stay in reached blocks. -/
def Sheltered (graph : ControlFlowGraph) (control : Control) : Prop :=
  graph.Reached control.place ∧ ∀ caller ∈ control.callers, graph.Reached caller

/-- One shown transfer. -/
theorem sheltered_step (meaning : PhysicalInstruction → Flow)
    (instructions : List PhysicalInstruction) (sorted : AddressOrder instructions)
    (graph : ControlFlowGraph) (built : build instructions = .ok graph) (before after : Control)
    (sheltered : Sheltered graph before) (move : ShownMove meaning instructions before after) :
    Sheltered graph after := by
  have exists_ (next : Nat) (address : UInt64) (there : StartsAt instructions next address) :
      ∃ ins, instructions[next]? = some ins := by
    obtain ⟨ins, found, -⟩ := Option.map_eq_some_iff.mp there
    exact ⟨ins, found⟩
  obtain ⟨here, callers⟩ := sheltered
  obtain ⟨source, moves, shown⟩ := move
  cases moves with
  | onward _ _ there => exact ⟨here.shown sorted built (exists_ _ _ there) shown, callers⟩
  | taken _ _ there => exact ⟨here.shown sorted built (exists_ _ _ there) shown, callers⟩
  | call _ _ there =>
    refine ⟨here.shown sorted built (exists_ _ _ there) shown, fun caller member => ?_⟩
    rcases List.mem_cons.mp member with rfl | earlier
    · exact here
    · exact callers caller earlier
  | ret _ _ _ there =>
    exact ⟨(callers source List.mem_cons_self).shown sorted built (exists_ _ _ there) shown,
      fun caller member => callers caller (List.mem_cons_of_mem _ member)⟩

/-- In a gap-free stream the transfers of an instruction that is read right are shown, unless
control falls off the end of the stream. -/
theorem shown_of_moves (meaning : PhysicalInstruction → Flow)
    (instructions : List PhysicalInstruction) (sorted : AddressOrder instructions)
    (gapless : Contiguous instructions) (prints : PrintsTargets meaning instructions)
    (before after : Control) (source : Nat) (ins : PhysicalInstruction)
    (moves : Moves meaning instructions before source after)
    (found : instructions[source]? = some ins) (right : ReadRight (meaning ins) (classify ins))
    (calls : ∀ caller ∈ before.callers, ∀ calling, instructions[caller]? = some calling →
      (meaning calling).goesOn = true)
    (inner : (meaning ins).goesOn = true → source + 1 < instructions.length) :
    Shown instructions source after.place := by
  have adjacent : ∀ (part : List PhysicalInstruction) (place : Nat) (one two : PhysicalInstruction),
      Contiguous part → part[place]? = some one → part[place + 1]? = some two →
      two.address = endAddress one := by
    intro part
    induction part with
    | nil => intro place one two _ atOne _; cases atOne
    | cons first rest inductionHypothesis =>
      intro place one two gapless atOne atTwo
      cases rest with
      | nil => cases atTwo
      | cons second others =>
        cases place with
        | zero =>
          cases atOne
          cases atTwo
          exact gapless.1
        | succ place => exact inductionHypothesis place one two gapless.2 atOne atTwo
  have behind (next : Nat) (goesOn : (meaning ins).goesOn = true)
      (there : StartsAt instructions next (endAddress ins)) :
      DirectSuccessor meaning instructions source next := by
    obtain ⟨after, atNext, address⟩ := Option.map_eq_some_iff.mp there
    have atBehind := List.getElem?_eq_getElem (inner goesOn)
    have same := adjacent instructions source ins _ gapless found atBehind
    have here := index_unique instructions sorted.distinct next (source + 1) after _ atNext atBehind
      (address.trans same.symm)
    exact ⟨ins, after, found, atNext, .inl ⟨goesOn, here⟩⟩
  have direct (next : Nat) (target : UInt64) (leads : (meaning ins).target = some target)
      (there : StartsAt instructions next target) :
      DirectSuccessor meaning instructions source next := by
    obtain ⟨after, atNext, address⟩ := Option.map_eq_some_iff.mp there
    exact ⟨ins, after, found, atNext, .inr (address.symm ▸ leads)⟩
  apply shown_of_readRight meaning instructions prints source after.place ins found right
  cases moves with
  | onward own falls there =>
    rw [found] at own
    cases own
    refine behind _ ?_ there
    revert falls
    cases meaning ins <;> simp [Flow.fallsThrough, Flow.goesOn]
  | taken own branches there =>
    rw [found] at own
    cases own
    refine direct _ _ ?_ there
    rcases branches with jumps | branches
    · rw [jumps]
      rfl
    · rw [branches]
      rfl
  | call own isCall there =>
    rw [found] at own
    cases own
    exact direct _ _ (by rw [isCall]; rfl) there
  | ret _ _ called there =>
    rw [found] at called
    cases called
    exact behind _ (calls source List.mem_cons_self ins found) there

/-- The report lists exactly the blocks that no path of resolved edges leads to from the
entry block, and in a run from the lowest address whose transfers are all shown no
instruction of a listed block is executed.

Proof: control and all calls still to be returned from lie in reached blocks; the entry
block holds the lowest address, and a shown transfer follows an edge or stays. -/
theorem unreachable_blocks_along_runs (meaning : PhysicalInstruction → Flow)
    (instructions : List PhysicalInstruction) (sorted : AddressOrder instructions)
    (graph : ControlFlowGraph) (built : build instructions = .ok graph) :
    (∀ index, index ∈ graph.unreachableBlocks ↔ index < graph.blocks.length ∧
      ¬ Reaches (fun index after => after ∈ graph.next index) graph.entryBlock index) ∧
    ∀ start control, Lowest instructions start →
      Reaches (ShownMove meaning instructions) ⟨start, []⟩ control →
      ∀ index ∈ graph.unreachableBlocks, ¬ graph.Covers index control.place := by
  have report := (build_closed instructions graph built).mem_unreachableBlocks_iff
  refine ⟨report, fun start control lowest run index listed covered => ?_⟩
  have entry := entry_covers_lowest instructions sorted graph built start lowest
  have sheltered : Sheltered graph control := by
    refine run.invariant (Sheltered graph) ⟨⟨_, .start, entry⟩, by simp⟩ ?_
    intro before after _ holds move
    exact sheltered_step meaning instructions sorted graph built before after holds move
  obtain ⟨home, path, inside⟩ := sheltered.1
  have covers := covers_iff instructions sorted graph built
  obtain ⟨one, atFirst, inFirst⟩ := (covers home control.place).mp inside
  obtain ⟨two, atSecond, inSecond⟩ := (covers index control.place).mp covered
  have same := run_unique instructions home index one two atFirst atSecond _ inFirst inSecond
  exact ((report index).mp listed).2 (same ▸ path)

/-- A jump over a return. -/
def jumpOver : List PhysicalInstruction :=
  [⟨0, [0xeb, 1], "jmp", ["3"], [], [], ["jump", "branch_relative"], true⟩,
    ⟨2, [0xc3], "ret", [], ["rsp"], ["rsp"], ["ret"], true⟩,
    ⟨3, [0xc3], "ret", [], ["rsp"], ["rsp"], ["ret"], true⟩]

/-- The return that is jumped over is reported, and what is executed lies elsewhere. -/
theorem jumpOver_reported :
    ∃ graph, build jumpOver = .ok graph ∧ 1 ∈ graph.unreachableBlocks ∧ ¬ graph.Covers 1 2 := by
  have sorted : AddressOrder jumpOver := by
    unfold AddressOrder
    decide
  have lowest : Lowest jumpOver 0 := ⟨_, rfl, by decide⟩
  have jumped : Moves shortFlow jumpOver ⟨0, []⟩ 0 ⟨2, []⟩ :=
    @Moves.taken shortFlow jumpOver 0 2 [] _ 3 rfl (.inl (by decide)) (by unfold StartsAt; decide)
  have shown : Shown jumpOver 0 2 :=
    .inr ⟨0, 2, SameRun.refl _ _, SameRun.refl _ _, _, _, rfl, rfl, .inr (by decide)⟩
  have reached : Reaches (ShownMove shortFlow jumpOver) ⟨0, []⟩ ⟨2, []⟩ :=
    .next .start ⟨0, jumped, shown⟩
  refine ⟨_, rfl, by decide, ?_⟩
  exact (unreachable_blocks_along_runs shortFlow jumpOver sorted _ rfl).2 0 ⟨2, []⟩ lowest reached 1
    (by decide)

/-- The flow of two RISC-V encodings: a branch on a negative register to itself, as a
relocatable object has it before the target is filled in, and a return. -/
def relocatableFlow (ins : PhysicalInstruction) : Flow :=
  match ins.bytes with
  | [0x63, 0x40, 0x05, 0x00] => .branch ins.address
  | [0x67, 0x80, 0x00, 0x00] => .leaves
  | _ => .onward

/-- A branch without a printed target before a return. -/
def branchUnprinted : List PhysicalInstruction :=
  [⟨0, [0x63, 0x40, 0x05, 0x00], "bltz", ["a0"], ["a0"], [], ["jump", "branch_relative"], true⟩,
    ⟨4, [0x67, 0x80, 0x00, 0x00], "ret", [], ["ra"], [], ["call"], true⟩]

/-- The instruction behind the branch is reported as unreachable and is executed when the
branch is not taken. -/
theorem return_behind_branch_reported :
    Contiguous branchUnprinted ∧ AddressOrder branchUnprinted ∧ Lowest branchUnprinted 0 ∧
      ∃ graph, build branchUnprinted = .ok graph ∧ 1 ∈ graph.unreachableBlocks ∧
        Moves relocatableFlow branchUnprinted ⟨0, []⟩ 0 ⟨1, []⟩ ∧ graph.Covers 1 1 := by
  refine ⟨⟨rfl, trivial⟩, ?_, ⟨_, rfl, by decide⟩, _, rfl, by decide, ?_, _, rfl, by decide,
    by decide⟩
  · unfold AddressOrder
    decide
  · exact .onward rfl (by decide) (by unfold StartsAt; decide)

end Semasm.Cfg
