import Semasm.X86.Addresses
import Semasm.X86.Analysis.Recording

/-!
# Where a recorded access goes

The provenance of an access at the stack pointer is decided from its displacement and
the tracked change of the stack pointer since the entry, added up. The address is formed
with the stack pointer at the instruction, so its distance from there is the
displacement alone. The two agree only while the tracked change does not move the
displacement over an end of the red zone.
-/

namespace Semasm.X86.Analysis

/-- A distance from the stack pointer lies in the red zone. -/
def InRedZone (offset : Int) : Prop := -128 ≤ offset ∧ offset < 0

instance (offset : Int) : Decidable (InRedZone offset) :=
  inferInstanceAs (Decidable (_ ∧ _))

/-- The tracked effect of one instruction on the stack pointer. -/
def stackChange (instr : LoweredInstr) : Int64 :=
  match instr.kind with
  | .store => if instr.mnemonic = "push" then 8 else if instr.mnemonic = "pop" then -8 else 0
  | .call => 8
  | _ => 0

/-- The tracked effect of some instructions, up to the first with unknown effects. -/
def trackedChange : List LoweredInstr → Int64
  | [] => 0
  | instr :: rest => if instr.kind = .unknown then 0 else stackChange instr + trackedChange rest

/-- The tracked change of the stack pointer after some instructions. -/
def trackedDelta (inState : BlockState) (instrs : List LoweredInstr) : Int64 :=
  if inState.rspKnown then inState.rspDelta + trackedChange instrs else inState.rspDelta

/-- An access of the instruction at a position is classified as one to the red zone. -/
def ClassifiedRedZone (accesses : List MemAccess) (position : Nat) : Prop :=
  ∃ access ∈ accesses, access.position = position ∧ access.provenance = .redZone

/-- A record is made of the memory operand. -/
def Recorded (instr : LoweredInstr) (operand : MemOperand) : Prop :=
  firstMemory instr = some operand ∧ (instr.kind = .load ∨ instr.kind = .store)

/-- The base is the stack pointer, through any view. -/
def OnStack (operand : MemOperand) : Prop :=
  operand.base.map Register.storage = some (.gp .rsp)

/-- The address is the stack pointer and a displacement. -/
def StackSlot (operand : MemOperand) : Prop :=
  operand.base = some Gp.rsp.full ∧ operand.index = none

/-- The tracked change keeps the displacement of a recorded stack slot on its side of
each end of the red zone, and nothing else gets there by another base or index. -/
structure TrackedRight (instr : LoweredInstr) (operand : MemOperand) (delta : Int64)
    (offset : Int) : Prop where
  slot : Recorded instr operand → StackSlot operand →
    (InRedZone (delta + operand.disp).toInt ↔ InRedZone operand.disp.toInt)
  formed : Recorded instr operand → OnStack operand → ¬ StackSlot operand →
    (InRedZone (delta + operand.disp).toInt ↔ InRedZone offset)
  elsewhere : ¬ (Recorded instr operand ∧ OnStack operand) → ¬ InRedZone offset

/-! ## The tracked change -/

theorem clobberAll_rsp (state : BlockState) (cells : List Gp) :
    (state.clobberAll cells).rspDelta = state.rspDelta ∧
      (state.clobberAll cells).rspKnown = state.rspKnown := by
  unfold BlockState.clobberAll
  induction cells generalizing state with
  | nil => exact ⟨rfl, rfl⟩
  | cons cell cells inductionHypothesis => exact inductionHypothesis _

theorem clobberFirst_rsp (state : BlockState) (operands : List Operand) :
    (state.clobberFirst operands).rspDelta = state.rspDelta ∧
      (state.clobberFirst operands).rspKnown = state.rspKnown := by
  unfold BlockState.clobberFirst
  split <;> exact ⟨rfl, rfl⟩

theorem moved_rsp (state : BlockState) (operands : List Operand) :
    (state.moved operands).rspDelta = state.rspDelta ∧
      (state.moved operands).rspKnown = state.rspKnown := by
  unfold BlockState.moved
  split <;> exact ⟨rfl, rfl⟩

/-- What one instruction does to the tracked change and to whether it is known. -/
theorem transfer_rsp (instr : LoweredInstr) (state : BlockState) :
    (transfer instr state).rspDelta =
        (if state.rspKnown ∧ instr.kind ≠ .unknown then state.rspDelta + stackChange instr
          else state.rspDelta) ∧
      (transfer instr state).rspKnown = (state.rspKnown && decide (instr.kind ≠ .unknown)) := by
  unfold transfer stackChange
  cases kind : instr.kind with
  | store =>
    obtain ⟨delta, known⟩ := moved_rsp state instr.operands
    simp only [BlockState.adjustStack, delta, known]
    cases fact : state.rspKnown with
    | false => simp [delta, known, fact]
    | true =>
      by_cases push : instr.mnemonic = "push"
      · simp [push]
      · by_cases pop : instr.mnemonic = "pop"
        · simp [pop, Int64.sub_eq_add_neg]
        · simp [push, pop, delta, known, fact]
  | load => simpa using clobberFirst_rsp state instr.operands
  | binary => simpa using clobberFirst_rsp state instr.operands
  | select => simpa using clobberFirst_rsp state instr.operands
  | compare => simp
  | call =>
    obtain ⟨delta, known⟩ := clobberAll_rsp state volatileGp
    cases fact : state.rspKnown with
    | false => simp [delta, known, fact]
    | true => simp [delta, known, fact]
  | unknown =>
    obtain ⟨delta, _⟩ := clobberAll_rsp state allGp
    simp [BlockState.invalidateUnknown, delta]
  | branch => simp
  | ret => simp
  | nop => simp

/-- The tracked change after some instructions. -/
theorem transferAll_rspDelta (instrs : List LoweredInstr) (state : BlockState) :
    (transferAll instrs state).rspDelta = trackedDelta state instrs := by
  induction instrs generalizing state with
  | nil => simp [transferAll, trackedDelta, trackedChange]
  | cons instr instrs inductionHypothesis =>
    have step : transferAll (instr :: instrs) state = transferAll instrs (transfer instr state) :=
      rfl
    obtain ⟨delta, known⟩ := transfer_rsp instr state
    rw [step, inductionHypothesis, trackedDelta, delta, known, trackedDelta]
    cases state.rspKnown with
    | false => simp
    | true =>
      by_cases unknown : instr.kind = .unknown
      · simp [unknown, trackedChange]
      · simp [unknown, trackedChange, Int64.add_assoc]

/-! ## The provenance after a visit -/

/-- An access after the visit of one instruction. -/
def reviseOne (instr : LoweredInstr) (position : Nat) (state : BlockState)
    (access : MemAccess) : MemAccess :=
  match firstMemory instr with
  | some operand =>
    if access.position = position then
      { access with provenance := memProvenance operand.base operand.disp state.rspDelta }
    else access
  | none => access

/-- An access after the walk along a block. -/
def revised (instrs : List LoweredInstr) (start : Nat) (inState : BlockState)
    (access : MemAccess) : MemAccess :=
  if access.position < start then access
  else
    match instrs[access.position - start]? with
    | some instr =>
      reviseOne instr access.position
        (transferAll (instrs.take (access.position - start)) inState) access
    | none => access

theorem reviseOne_position (instr : LoweredInstr) (position : Nat) (state : BlockState)
    (access : MemAccess) : (reviseOne instr position state access).position = access.position := by
  unfold reviseOne
  split
  · split <;> rfl
  · rfl

theorem reviseOne_apart (instr : LoweredInstr) (position : Nat) (state : BlockState)
    (access : MemAccess) (apart : access.position ≠ position) :
    reviseOne instr position state access = access := by
  unfold reviseOne
  split
  · rw [if_neg apart]
  · rfl

/-- The walk takes the instructions one by one. -/
theorem reviseAccesses_cons (instr : LoweredInstr) (instrs : List LoweredInstr) (start : Nat)
    (inState : BlockState) (accesses : List MemAccess) :
    reviseAccesses (instr :: instrs) start inState accesses =
      reviseAccesses instrs (start + 1) (transfer instr inState)
        (accesses.map (reviseOne instr start inState)) := by
  unfold reviseAccesses
  rw [List.zipIdx_cons, List.foldl_cons]
  congr 3
  unfold reviseOne firstMemory
  split
  next operand head => simp only [head]
  next other =>
    have none : ∀ operand, instr.operands.head? ≠ some (.mem operand) := other
    cases head : instr.operands.head? with
    | none => simp
    | some operand =>
      cases operand with
      | mem memory => exact absurd head (none memory)
      | reg register => simp
      | imm value => simp

/-- The walk along a block revises each access by itself. -/
theorem reviseAccesses_eq_map (instrs : List LoweredInstr) (start : Nat) (inState : BlockState)
    (accesses : List MemAccess) :
    reviseAccesses instrs start inState accesses = accesses.map (revised instrs start inState) := by
  induction instrs generalizing start inState accesses with
  | nil =>
    have same : revised [] start inState = id := by
      funext access
      simp [revised]
    rw [same, List.map_id]
    rfl
  | cons instr instrs inductionHypothesis =>
    rw [reviseAccesses_cons, inductionHypothesis, List.map_map]
    apply List.map_congr_left
    intro access _
    simp only [Function.comp_apply, revised, reviseOne_position]
    rcases Nat.lt_trichotomy access.position start with before | here | behind
    · rw [if_pos (by omega), if_pos before, reviseOne_apart _ _ _ _ (by omega)]
    · rw [if_pos (by omega), if_neg (by omega), here, Nat.sub_self, List.getElem?_cons_zero]
      rfl
    · obtain ⟨more, place⟩ : ∃ more, access.position - start = more + 1 :=
        ⟨access.position - (start + 1), by omega⟩
      have inner : access.position - (start + 1) = more := by omega
      rw [if_neg (by omega), if_neg (by omega), reviseOne_apart instr _ _ _ (by omega), place,
        inner, List.getElem?_cons_succ, List.take_succ_cons]
      rfl

/-- An access of an instruction after the walk along its block. -/
theorem revised_at (instrs : List LoweredInstr) (start index : Nat) (inState : BlockState)
    (access : MemAccess) (instr : LoweredInstr) (here : instrs[index]? = some instr)
    (operand : MemOperand) (first : firstMemory instr = some operand)
    (placed : access.position = start + index) :
    (revised instrs start inState access).provenance =
      memProvenance operand.base operand.disp (trackedDelta inState (instrs.take index)) := by
  have offset : access.position - start = index := by omega
  simp only [revised, if_neg (by omega : ¬ access.position < start), offset, here, reviseOne, first,
    if_true, transferAll_rspDelta]

/-- The walk keeps the position. -/
theorem revised_position (instrs : List LoweredInstr) (start : Nat) (inState : BlockState)
    (access : MemAccess) : (revised instrs start inState access).position = access.position := by
  unfold revised
  split
  · rfl
  · split
    · exact reviseOne_position _ _ _ _
    · rfl

/-! ## The classification -/

/-- A record stands at a position exactly if one is made of the instruction there. -/
theorem recorded_at (lowered : List LoweredInstr) (accesses : List MemAccess)
    (recorded : accesses.map MemAccess.row =
      (lowered.zipIdx.filterMap recordAccess).map MemAccess.row)
    (position : Nat) (instr : LoweredInstr) (here : lowered[position]? = some instr) :
    (∃ access ∈ accesses, access.position = position) ↔ ∃ operand, Recorded instr operand := by
  have rows : recordsAt accesses position = (recordOf instr).toList := by
    rw [← recordsAt_analyze lowered [] position instr here]
    exact recordsAt_congr (recorded.trans (analyze_rows lowered []).symm) position
  have there : (∃ access ∈ accesses, access.position = position) ↔
      recordsAt accesses position ≠ [] := by
    simp [recordsAt, List.filter_eq_nil_iff]
  rw [there, rows]
  unfold Recorded recordOf
  cases firstMemory instr with
  | none => simp
  | some operand => cases instr.kind <;> simp

/-- What makes the provenance of a memory operand the red zone. -/
theorem memProvenance_redZone (operand : MemOperand) (delta : Int64) :
    memProvenance operand.base operand.disp delta = .redZone ↔
      OnStack operand ∧ InRedZone (delta + operand.disp).toInt := by
  have bounds : (delta + operand.disp < 0 ∧ -128 ≤ delta + operand.disp) ↔
      InRedZone (delta + operand.disp).toInt := by
    rw [Int64.lt_iff_toInt_lt, Int64.le_iff_toInt_le, InRedZone, and_comm]
    exact Iff.rfl
  unfold memProvenance OnStack
  cases operand.base with
  | none => simp
  | some register =>
    rw [Option.map_some]
    by_cases stack : register.storage = .gp .rsp
    · simp only [stack, true_and]
      rw [← bounds]
      split
      next inside => simp [inside]
      next outside => simp [outside]
    · simp only [Option.some.injEq, stack, false_and, iff_false]
      split <;> simp_all

/-- After a visit, an instruction's access is classified as one to the red zone if its
operand is recorded, formed with the stack pointer, and the tracked change and the
displacement add up to a place there. -/
theorem classified_iff (lowered : List LoweredInstr) (block : BlockRange) (inState : BlockState)
    (accesses : List MemAccess)
    (recorded : accesses.map MemAccess.row =
      (lowered.zipIdx.filterMap recordAccess).map MemAccess.row)
    (index : Nat) (instr : LoweredInstr) (here : (block.body lowered)[index]? = some instr) :
    ClassifiedRedZone (reviseAccesses (block.body lowered) block.start inState accesses)
        (block.start + index) ↔
      ∃ operand, Recorded instr operand ∧ OnStack operand ∧
        InRedZone (trackedDelta inState ((block.body lowered).take index) + operand.disp).toInt := by
  have place : lowered[block.start + index]? = some instr := by
    have inside := (List.getElem?_eq_some_iff.mp here).1
    rw [BlockRange.body, List.getElem?_take] at here
    split at here
    · rw [List.getElem?_drop] at here
      exact here
    · cases here
  have made := recorded_at lowered accesses recorded (block.start + index) instr place
  rw [ClassifiedRedZone, reviseAccesses_eq_map]
  constructor
  · rintro ⟨_, listed, placed, zone⟩
    obtain ⟨access, member, rfl⟩ := List.mem_map.mp listed
    rw [revised_position] at placed
    obtain ⟨operand, own⟩ := made.mp ⟨access, member, placed⟩
    rw [revised_at _ _ _ _ _ instr here operand own.1 placed, memProvenance_redZone] at zone
    exact ⟨operand, own, zone⟩
  · rintro ⟨operand, own, zone⟩
    obtain ⟨access, member, placed⟩ := made.mpr ⟨operand, own⟩
    refine ⟨_, List.mem_map_of_mem member, ?_, ?_⟩
    · rw [revised_position, placed]
    · rw [revised_at _ _ _ _ _ instr here operand own.1 placed, memProvenance_redZone]
      exact zone

/-- The distance of a stack slot from the stack pointer is its displacement. -/
theorem offset_of_slot (operand : MemOperand) (slot : StackSlot operand) (env : Environment)
    (regs : Gp → Word) (address : Word) (located : operand.address env regs = some address) :
    (address - regs .rsp).toInt = operand.disp.toInt := by
  have sum := operand.address_base env regs Gp.rsp.full .rsp address slot.1 rfl rfl slot.2 located
  rw [sum, BitVec.add_comm, BitVec.add_sub_cancel]
  exact BitVec.toInt_ofInt_eq_self (by decide) (Int64.le_toInt _) (Int64.toInt_lt _)

/-- The memory operand that is read or written is the one recorded, if any is. -/
theorem Recorded.unique {instr : LoweredInstr} {operand other : MemOperand}
    (recorded : Recorded instr other) (touches : instr.Touches operand)
    (single : (instr.operands.filter Operand.isMem).length ≤ 1) : other = operand := by
  have listed := touches.listed
  obtain ⟨rest, operands⟩ := operands_of_firstMemory instr other recorded.1
  rw [operands] at listed single
  rcases List.mem_cons.mp listed with same | behind
  · exact (Operand.mem.inj same).symm
  · exact absurd behind (not_mem_behind other operand rest single)

/-- An access is classified as one to the red zone exactly when its address lies there
if the tracked change keeps its displacement on its side of each end.

    Proof: the walk along the block revises each record with the change tracked up to its
instruction, and a stack slot lies at its displacement from the stack pointer. -/
theorem red_zone_iff (lowered : List LoweredInstr) (block : BlockRange) (inState : BlockState)
    (accesses : List MemAccess)
    (recorded : accesses.map MemAccess.row =
      (lowered.zipIdx.filterMap recordAccess).map MemAccess.row)
    (index : Nat) (instr : LoweredInstr) (here : (block.body lowered)[index]? = some instr)
    (single : (instr.operands.filter Operand.isMem).length ≤ 1) (operand : MemOperand)
    (touches : instr.Touches operand) (env : Environment) (regs : Gp → Word) (address : Word)
    (located : operand.address env regs = some address) :
    (ClassifiedRedZone (reviseAccesses (block.body lowered) block.start inState accesses)
          (block.start + index) ↔
        InRedZone (address - regs .rsp).toInt) ↔
      TrackedRight instr operand (trackedDelta inState ((block.body lowered).take index))
        (address - regs .rsp).toInt := by
  have classified : ClassifiedRedZone
      (reviseAccesses (block.body lowered) block.start inState accesses) (block.start + index) ↔
        Recorded instr operand ∧ OnStack operand ∧
          InRedZone (trackedDelta inState ((block.body lowered).take index) +
            operand.disp).toInt := by
    rw [classified_iff lowered block inState accesses recorded index instr here]
    constructor
    · rintro ⟨other, own, zone⟩
      have same := own.unique touches single
      subst same
      exact ⟨own, zone⟩
    · rintro ⟨own, zone⟩
      exact ⟨operand, own, zone⟩
  rw [classified]
  constructor
  · intro right
    refine ⟨fun own slot => ?_, fun own stack _ => ?_, fun absent zone => ?_⟩
    · have stack : OnStack operand := by rw [OnStack, slot.1]; rfl
      rw [← offset_of_slot operand slot env regs address located, ← right]
      exact ⟨fun zone => ⟨own, stack, zone⟩, fun zone => zone.2.2⟩
    · rw [← right]
      exact ⟨fun zone => ⟨own, stack, zone⟩, fun zone => zone.2.2⟩
    · obtain ⟨own, stack, _⟩ := right.mpr zone
      exact absent ⟨own, stack⟩
  · intro right
    by_cases both : Recorded instr operand ∧ OnStack operand
    · obtain ⟨own, stack⟩ := both
      have moved : InRedZone (trackedDelta inState ((block.body lowered).take index) +
          operand.disp).toInt ↔ InRedZone (address - regs .rsp).toInt := by
        by_cases slot : StackSlot operand
        · rw [offset_of_slot operand slot env regs address located]
          exact right.slot own slot
        · exact right.formed own stack slot
      rw [← moved]
      exact ⟨fun zone => zone.2.2, fun zone => ⟨own, stack, zone⟩⟩
    · constructor
      · rintro ⟨own, stack, _⟩
        exact absurd ⟨own, stack⟩ both
      · intro zone
        exact absurd zone (right.elsewhere both)

/-- `[rsp - 8]`. -/
def belowStack : MemOperand := ⟨some Gp.rsp.full, none, 1, -8, .b64⟩

/-- `mov [rsp - 8], rax`. -/
def storeBelowStack : LoweredInstr :=
  ⟨"mov", .store, .b64, none, [.mem belowStack, .reg Gp.rax.full]⟩

/-- `push rbx` and a store below the stack pointer. -/
def pushThenStore : List LoweredInstr :=
  [⟨"push", .store, .b64, none, [.reg Gp.rbx.full]⟩, storeBelowStack]

/-- Behind a push the store is not classified as one to the red zone, whatever the
registers hold. -/
theorem push_hides_red_zone :
    (analyze pushThenStore (buildBlocks pushThenStore (fun _ => none))).memAccesses =
        [⟨1, .store, .stackFrame, -8⟩] ∧
      ¬ ∃ (env : Environment) (regs : Gp → Word) (address : Word),
        belowStack.address env regs = some address ∧ ¬ InRedZone (address - regs .rsp).toInt := by
  refine ⟨by decide +kernel, ?_⟩
  rintro ⟨env, regs, address, located, outside⟩
  apply outside
  rw [offset_of_slot belowStack ⟨rfl, rfl⟩ env regs address located]
  decide

/-- Without a change of the stack pointer the store is classified rightly. -/
theorem store_below_stack_classified :
    ¬ ∃ (env : Environment) (regs : Gp → Word) (address : Word),
      belowStack.address env regs = some address ∧
        ¬ (ClassifiedRedZone (reviseAccesses [storeBelowStack] 0 .bottom
            [⟨0, .store, .unknown, -8⟩]) 0 ↔ InRedZone (address - regs .rsp).toInt) := by
  rintro ⟨env, regs, address, located, wrong⟩
  apply wrong
  have right : TrackedRight storeBelowStack belowStack
      (trackedDelta .bottom ((BlockRange.body ⟨0, 1, []⟩ [storeBelowStack]).take 0))
      (address - regs .rsp).toInt := by
    rw [offset_of_slot belowStack ⟨rfl, rfl⟩ env regs address located]
    refine ⟨fun _ _ => by decide, fun _ _ formed => absurd ⟨rfl, rfl⟩ formed, fun absent => ?_⟩
    exact absurd ⟨⟨rfl, .inr rfl⟩, rfl⟩ absent
  exact (red_zone_iff [storeBelowStack] ⟨0, 1, []⟩ .bottom [⟨0, .store, .unknown, -8⟩] rfl 0
    storeBelowStack rfl (by decide) belowStack ⟨.move, .store, by decide, by decide⟩ env regs
    address located).mpr right

end Semasm.X86.Analysis
