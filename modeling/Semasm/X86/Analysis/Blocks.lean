import Semasm.X86.Analysis.Driver

/-!
# Cutting the stream into blocks

A block ends behind a call, a return, a branch or a system call, and behind the last
instruction. Its successors are the block that the target map gives for an
immediate first operand of its last instruction and the block behind it, the
latter not after a return or a system call.
-/

namespace Semasm.X86.Analysis

/-- The instruction ends a block. -/
def terminal (instr : LoweredInstr) : Bool :=
  instr.kind == .call || instr.kind == .ret || instr.kind == .branch ||
    instr.mnemonic == "syscall" || instr.mnemonic == "ret" || instr.mnemonic == "int"

/-- No block follows the instruction. -/
def hardStop (instr : LoweredInstr) : Bool :=
  instr.kind == .ret || instr.mnemonic == "ret" || instr.mnemonic == "syscall" ||
    instr.mnemonic == "int"

/-- `unsigned_abs`. -/
def unsignedAbs (value : Int64) : UInt64 := UInt64.ofNat value.toInt.natAbs

/-- The successors of a block that ends with an instruction, given its position, the index
of its block and the number of instructions. -/
def successorsOf (targetBlock : UInt64 → Option Nat) (count index position : Nat)
    (instr : LoweredInstr) : List Nat :=
  let taken := match instr.operands.head? with
    | some (.imm address) => (targetBlock (unsignedAbs address)).toList
    | _ => []
  taken ++ if !hardStop instr && position + 1 < count then [index + 1] else []

/-- The blocks cut so far and the start of the open one. -/
structure Cut where
  blocks : List BlockRange
  start : Nat
deriving DecidableEq, Repr

/-- One instruction of the walk. -/
def Cut.step (targetBlock : UInt64 → Option Nat) (count : Nat) (cut : Cut)
    (entry : LoweredInstr × Nat) : Cut :=
  if terminal entry.1 || entry.2 + 1 == count then
    ⟨cut.blocks ++ [⟨cut.start, entry.2 + 1,
      successorsOf targetBlock count cut.blocks.length entry.2 entry.1⟩], entry.2 + 1⟩
  else cut

/-- `build_blocks`. -/
def buildBlocks (instrs : List LoweredInstr) (targetBlock : UInt64 → Option Nat) :
    List BlockRange :=
  let cut := instrs.zipIdx.foldl (Cut.step targetBlock instrs.length) ⟨[], 0⟩
  if cut.start < instrs.length then cut.blocks ++ [⟨cut.start, instrs.length, []⟩] else cut.blocks

/-- The blocks lie one behind the other between two positions. -/
def Tiles : Nat → List BlockRange → Nat → Prop
  | start, [], stop => start = stop
  | start, block :: rest, stop =>
    block.start = start ∧ block.start < block.stop ∧ Tiles block.stop rest stop

theorem Tiles.append {start stop : Nat} {blocks : List BlockRange} (tiles : Tiles start blocks stop)
    (block : BlockRange) (behind : block.start = stop) (inhabited : block.start < block.stop) :
    Tiles start (blocks ++ [block]) block.stop := by
  induction blocks generalizing start with
  | nil => exact ⟨behind.trans (Eq.symm tiles), inhabited, rfl⟩
  | cons first rest inductionHypothesis =>
    exact ⟨tiles.1, tiles.2.1, inductionHypothesis tiles.2.2⟩

/-- The last position is not before the first. -/
theorem Tiles.le {start stop : Nat} {blocks : List BlockRange} (tiles : Tiles start blocks stop) :
    start ≤ stop := by
  induction blocks generalizing start with
  | nil => exact Nat.le_of_eq tiles
  | cons first rest inductionHypothesis =>
    obtain ⟨rfl, inhabited, behind⟩ := tiles
    exact Nat.le_trans (Nat.le_of_lt inhabited) (inductionHypothesis behind)

/-- Every position between the ends lies in a block. -/
theorem Tiles.covers {start stop : Nat} {blocks : List BlockRange} (tiles : Tiles start blocks stop)
    (position : Nat) (above : start ≤ position) (below : position < stop) :
    ∃ (index : Nat) (block : BlockRange), blocks[index]? = some block ∧ block.start ≤ position ∧
      position < block.stop := by
  induction blocks generalizing start with
  | nil =>
    have same : start = stop := tiles
    omega
  | cons first rest inductionHypothesis =>
    obtain ⟨rfl, _, behind⟩ := tiles
    by_cases inside : position < first.stop
    · exact ⟨0, first, rfl, above, inside⟩
    · obtain ⟨index, block, found, range⟩ := inductionHypothesis behind (Nat.le_of_not_lt inside)
      exact ⟨index + 1, block, found, range⟩

/-- A block lies between the ends. -/
theorem Tiles.within {start stop : Nat} {blocks : List BlockRange} (tiles : Tiles start blocks stop)
    (index : Nat) (block : BlockRange) (found : blocks[index]? = some block) :
    start ≤ block.start ∧ block.start < block.stop ∧ block.stop ≤ stop := by
  induction blocks generalizing start index with
  | nil => cases found
  | cons first rest inductionHypothesis =>
    obtain ⟨rfl, inhabited, behind⟩ := tiles
    cases index with
    | zero =>
      cases found
      exact ⟨le_rfl, inhabited, behind.le⟩
    | succ index =>
      obtain ⟨lower, own, upper⟩ := inductionHypothesis behind index found
      exact ⟨by omega, own, upper⟩

/-- A position lies in one block only. -/
theorem Tiles.unique {start stop : Nat} {blocks : List BlockRange} (tiles : Tiles start blocks stop)
    (position first second : Nat) (one two : BlockRange) (atFirst : blocks[first]? = some one)
    (atSecond : blocks[second]? = some two) (inOne : one.start ≤ position ∧ position < one.stop)
    (inTwo : two.start ≤ position ∧ position < two.stop) : first = second := by
  induction blocks generalizing start first second with
  | nil => cases atFirst
  | cons block rest inductionHypothesis =>
    obtain ⟨rfl, inhabited, behind⟩ := tiles
    cases first with
    | zero =>
      cases second with
      | zero => rfl
      | succ second =>
        cases atFirst
        have later := behind.within second two atSecond
        omega
    | succ first =>
      cases second with
      | zero =>
        cases atSecond
        have later := behind.within first one atFirst
        omega
      | succ second =>
        rw [inductionHypothesis behind first second atFirst atSecond]

/-- The block behind a block starts where it stops. -/
theorem Tiles.next {start stop : Nat} {blocks : List BlockRange} (tiles : Tiles start blocks stop)
    (index : Nat) (block : BlockRange) (found : blocks[index]? = some block)
    (more : block.stop < stop) :
    ∃ after, blocks[index + 1]? = some after ∧ after.start = block.stop := by
  induction blocks generalizing start index with
  | nil => cases found
  | cons first rest inductionHypothesis =>
    obtain ⟨rfl, _, behind⟩ := tiles
    cases index with
    | zero =>
      cases found
      cases rest with
      | nil =>
        have same : block.stop = stop := behind
        omega
      | cons second others => exact ⟨second, rfl, behind.1⟩
    | succ index => exact inductionHypothesis behind index found

/-- Only the first block starts at the first position. -/
theorem Tiles.first {start stop : Nat} {blocks : List BlockRange} (tiles : Tiles start blocks stop)
    (index : Nat) (block : BlockRange) (found : blocks[index]? = some block)
    (front : block.start ≤ start) : index = 0 := by
  cases blocks with
  | nil => cases found
  | cons first rest =>
    obtain ⟨rfl, _, behind⟩ := tiles
    cases index with
    | zero => rfl
    | succ index =>
      have later := behind.within index block found
      omega

/-- What holds of the cut before a position. -/
structure Cut.Valid (instrs : List LoweredInstr) (targetBlock : UInt64 → Option Nat)
    (position : Nat) (cut : Cut) : Prop where
  tiles : Tiles 0 cut.blocks cut.start
  bounded : cut.start ≤ position
  stays : ∀ (inner : Nat) instr, cut.start ≤ inner → inner < position →
    instrs[inner]? = some instr → terminal instr = false ∧ inner + 1 ≠ instrs.length
  inner : ∀ block ∈ cut.blocks, ∀ (inner : Nat) instr, block.start ≤ inner →
    inner + 1 < block.stop → instrs[inner]? = some instr → terminal instr = false
  successors : ∀ (index : Nat) block, cut.blocks[index]? = some block → ∃ last,
    instrs[block.stop - 1]? = some last ∧
      block.successors = successorsOf targetBlock instrs.length index (block.stop - 1) last

/-- One instruction keeps the cut valid. -/
theorem Cut.Valid.step {instrs : List LoweredInstr} {targetBlock : UInt64 → Option Nat}
    {position : Nat} {cut : Cut} (valid : cut.Valid instrs targetBlock position)
    (instr : LoweredInstr) (found : instrs[position]? = some instr) :
    (cut.step targetBlock instrs.length (instr, position)).Valid instrs targetBlock
      (position + 1) := by
  unfold Cut.step
  by_cases closes : terminal instr || position + 1 == instrs.length
  · rw [if_pos closes]
    refine ⟨valid.tiles.append ⟨cut.start, position + 1, _⟩ rfl (Nat.lt_succ_of_le valid.bounded),
      le_rfl, fun inner _ above below _ => absurd above (Nat.not_le_of_lt below), ?_, ?_⟩
    · intro block member inner other above below atInner
      rcases List.mem_append.mp member with before | last
      · exact valid.inner block before inner other above below atInner
      · obtain rfl := List.mem_singleton.mp last
        exact (valid.stays inner other above (Nat.lt_of_succ_lt_succ below) atInner).1
    · intro index block atIndex
      by_cases old : index < cut.blocks.length
      · rw [List.getElem?_append_left old] at atIndex
        exact valid.successors index block atIndex
      · have place := (List.getElem?_eq_some_iff.mp atIndex).1
        rw [List.length_append, List.length_singleton] at place
        have same : index = cut.blocks.length := by omega
        subst same
        rw [List.getElem?_append_right le_rfl, Nat.sub_self] at atIndex
        cases atIndex
        exact ⟨instr, found, rfl⟩
  · rw [if_neg closes]
    simp only [Bool.or_eq_true, beq_iff_eq, not_or, Bool.not_eq_true] at closes
    refine ⟨valid.tiles, Nat.le_succ_of_le valid.bounded, ?_, valid.inner, valid.successors⟩
    intro inner other above below atInner
    by_cases here : inner = position
    · subst here
      rw [found] at atInner
      cases atInner
      exact closes
    · exact valid.stays inner other above (by omega) atInner

/-- The walk over the rest of the instructions keeps the cut valid. -/
theorem Cut.Valid.run {instrs : List LoweredInstr} {targetBlock : UInt64 → Option Nat}
    (rest : List LoweredInstr) (position : Nat) (cut : Cut)
    (valid : cut.Valid instrs targetBlock position) (own : instrs.drop position = rest) :
    ((rest.zipIdx position).foldl (Cut.step targetBlock instrs.length) cut).Valid instrs targetBlock
      (position + rest.length) := by
  induction rest generalizing position cut with
  | nil => exact valid
  | cons instr rest inductionHypothesis =>
    have found : instrs[position]? = some instr := by
      have head := congrArg (fun list => list[0]?) own
      simpa using head
    have later : instrs.drop (position + 1) = rest := by
      have tail := congrArg List.tail own
      simpa using tail
    rw [List.zipIdx_cons, List.foldl_cons, List.length_cons, ← Nat.add_assoc, Nat.add_right_comm]
    exact inductionHypothesis (position + 1) _ (valid.step instr found) later

/-- What `buildBlocks` guarantees: the blocks lie one behind the other over the whole
stream, only last instructions are terminal, and the successors are those of the last
instruction. -/
structure Cutting (instrs : List LoweredInstr) (targetBlock : UInt64 → Option Nat)
    (blocks : List BlockRange) : Prop where
  tiles : Tiles 0 blocks instrs.length
  inner : ∀ block ∈ blocks, ∀ (inner : Nat) instr, block.start ≤ inner →
    inner + 1 < block.stop → instrs[inner]? = some instr → terminal instr = false
  successors : ∀ (index : Nat) block, blocks[index]? = some block → ∃ last,
    instrs[block.stop - 1]? = some last ∧
      block.successors = successorsOf targetBlock instrs.length index (block.stop - 1) last

/-- The blocks that are built. -/
theorem buildBlocks_cutting (instrs : List LoweredInstr) (targetBlock : UInt64 → Option Nat) :
    Cutting instrs targetBlock (buildBlocks instrs targetBlock) := by
  have start : (⟨[], 0⟩ : Cut).Valid instrs targetBlock 0 :=
    ⟨rfl, le_rfl, fun _ _ _ below => absurd below (Nat.not_lt_zero _), by simp, by simp⟩
  have valid := start.run instrs 0 _ rfl
  rw [Nat.zero_add] at valid
  have closed : (instrs.zipIdx.foldl (Cut.step targetBlock instrs.length) ⟨[], 0⟩).start =
      instrs.length := by
    by_contra different
    have before : (instrs.zipIdx.foldl (Cut.step targetBlock instrs.length) ⟨[], 0⟩).start <
        instrs.length := Nat.lt_of_le_of_ne valid.bounded different
    have last := valid.stays (instrs.length - 1) instrs[instrs.length - 1] (by omega) (by omega)
      (List.getElem?_eq_getElem (by omega))
    omega
  have whole : buildBlocks instrs targetBlock =
      (instrs.zipIdx.foldl (Cut.step targetBlock instrs.length) ⟨[], 0⟩).blocks := by
    unfold buildBlocks
    simp only [closed, Nat.lt_irrefl, if_false]
  have tiles := valid.tiles
  rw [closed] at tiles
  rw [whole]
  exact ⟨tiles, valid.inner, valid.successors⟩

end Semasm.X86.Analysis
