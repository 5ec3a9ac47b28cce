import Semasm.Cli.FactsPreserved

/-!
# Spilled pointers and pending comparisons

A stack slot keeps its fact as long as its frame register and its bytes stay as
they are, and a spill makes the new fact true. With the cells this gives the step
of the facts as a whole.
-/

namespace Semasm.Cli

open Contract Library X86

variable {entry : String → Word}

/-- Assigning to a cell leaves the slots alone. -/
theorem assigned_stackSlots (facts : Facts) (cell : Gp) (src : Option Operand) :
    (facts.assigned cell src).stackSlots = facts.stackSlots := by
  unfold Facts.assigned
  split
  · split <;> rfl
  · rfl
  · rfl
  · rfl

/-- Only a spill changes the fact of a slot. -/
theorem updateAffinity_stackSlots (facts : Facts) (instr : LoweredInstr) (op : Op)
    (known : instr.op = some op) (slot : FrameSlot)
    (other : spilledSlot op instr.operands ≠ some slot) :
    (updateAffinity facts instr).stackSlots slot = facts.stackSlots slot := by
  have arm := arm_of_op instr op known
  unfold updateAffinity
  rw [arm]
  cases which : armOf op with
  | cmp => rfl
  | guard =>
    simp only [Facts.guarded]
    split <;> rfl
  | branch => rfl
  | other => rfl
  | clear => cases firstCell instr <;> rfl
  | arithmetic => cases firstCell instr <;> rfl
  | lea =>
    simp only [Facts.leaArm]
    split
    · split <;> rfl
    · rfl
  | xor =>
    simp only [Facts.xorArm]
    split
    · split
      · split_ifs <;> rfl
      · rfl
    · split <;> rfl
    · rfl
  | move =>
    have move := (op_of_arm op).1 which
    subst move
    simp only [Facts.moved]
    split
    next mem src rest shape =>
      split
      next spilled origin named storage =>
        have different : slot ≠ spilled := by
          rintro rfl
          apply other
          simp [spilledSlot, shape, storage, named]
        simp [Function.update_of_ne different, Facts.settle]
      next => rfl
    next =>
      split
      next => rw [assigned_stackSlots, Facts.settle]
      next => rfl
    next => rfl

/-- Only a comparison leaves something pending. -/
theorem updateAffinity_pending (facts : Facts) (instr : LoweredInstr) (cell : Gp) (bound : UInt64)
    (pending : (updateAffinity facts instr).pendingCmp = some (cell, bound)) :
    updateArm (lowerMnemonic instr) = .cmp := by
  unfold updateAffinity at pending
  cases which : updateArm (lowerMnemonic instr) with
  | cmp => rfl
  | guard =>
    simp only [which, Facts.guarded] at pending
    split at pending
    next => cases pending
    next armed =>
      rw [armed] at pending
      cases pending
  | branch => simp [which, Facts.settle] at pending
  | other => simp [which, Facts.settle] at pending
  | clear =>
    simp only [which] at pending
    cases first : firstCell instr <;>
      simp [first, Facts.settle, Facts.forget, Facts.withCell] at pending
  | arithmetic =>
    simp only [which] at pending
    cases first : firstCell instr <;> simp [first, Facts.settle, Facts.withCell] at pending
  | lea =>
    simp only [which, Facts.leaArm] at pending
    split at pending
    · split at pending <;> simp [Facts.settle, Facts.withCell] at pending
    · simp [Facts.settle] at pending
  | xor =>
    simp only [which, Facts.xorArm] at pending
    split at pending
    · split at pending
      · split_ifs at pending <;> simp [Facts.settle, Facts.forget, Facts.withCell] at pending
      · simp [Facts.settle] at pending
    · split at pending <;> simp [Facts.settle, Facts.forget, Facts.withCell] at pending
    · simp [Facts.settle] at pending
  | move =>
    simp only [which, Facts.moved] at pending
    split at pending
    · split at pending <;> simp [Facts.settle] at pending
    · split at pending
      · simp only [Facts.assigned] at pending
        split at pending
        · split at pending <;> simp [Facts.settle, Facts.forget, Facts.withCell] at pending
        · simp [Facts.settle, Facts.withCell] at pending
        · simp [Facts.settle, Facts.withCell] at pending
        · simp [Facts.settle, Facts.forget, Facts.withCell] at pending
      · simp [Facts.settle] at pending
    · simp [Facts.settle] at pending

/-- A pending comparison is the one just made. -/
theorem pending_preserved (facts : Facts) (env : Environment) (state : State) (instr : LoweredInstr)
    (op : Op) (outcome : Outcome) (known : instr.op = some op)
    (executed : op.exec env state instr.operands = some outcome) :
    PendingTrue (updateAffinity facts instr) (some instr) (outcome.result state) := by
  intro cell bound pending
  have arm := updateAffinity_pending facts instr cell bound pending
  have cmp : op = .cmp := (op_of_arm op).2.2.2.1 (by rw [← arm_of_op instr op known, arm])
  subst cmp
  obtain ⟨left, right, width, first, reads, second, others, shape, fixed, read, other, result⟩ :=
    exec_compare env state subFlags instr.operands outcome executed
  simp only [updateAffinity, arm, Facts.compare, shape] at pending
  cases left with
  | reg register =>
    cases right with
    | imm value =>
      cases fixed
      cases storage : register.storage with
      | gp held =>
        simp only [storage] at pending
        obtain ⟨number, made, same⟩ := Option.map_eq_some_iff.mp pending
        cases same
        obtain ⟨seen, -, -⟩ := Operand.read_reg _ _ _ _ _ _ read
        simp only [Operand.read] at other
        split_ifs at other
        cases other
        refine ⟨instr, register, value, first, rfl, shape, storage, made, ?_, ?_⟩
        · rw [result]
          exact seen
        · rw [result]
          rfl
      | rip => simp [storage] at pending
      | rflags => simp [storage] at pending
      | seg index => simp [storage] at pending
      | xmm index => simp [storage] at pending
    | reg other => simp at pending
    | mem other => simp at pending
  | mem mem => simp at pending
  | imm value => cases fixed

section Step

variable (facts : Facts) (previous : Option LoweredInstr) (env : Environment) (state : State)
  (instr : LoweredInstr) (op : Op) (outcome : Outcome)
  (held : facts.Hold entry previous state)
  (judged : ¬ Misjudges facts previous env state instr op)
  (executed : op.exec env state instr.operands = some outcome)

include held judged executed

/-- A slot that is not spilled to keeps its bytes. -/
theorem slotTrue_of_kept (slot : FrameSlot) (other : spilledSlot op instr.operands ≠ some slot) :
    SlotTrue entry facts (outcome.result state) slot := by
  intro param spilled
  have kept : facts.Keeps op instr.operands slot := ⟨by simp [spilled], other⟩
  have base : (outcome.result state).regs slot.cell = state.regs slot.cell := by
    apply op.exec_regs env state instr.operands outcome executed
    intro changed
    exact judged (.slotBase slot kept changed)
  have place : slot.address (outcome.result state).regs = slot.address state.regs := by
    simp only [FrameSlot.address, base]
  rw [place, ← held.slots slot param spilled]
  apply ByteMemory.readBytes_congr _ _ _ _ (by decide)
  intro address covered
  apply op.exec_mem env state instr.operands outcome executed
  · refine ⟨?_, ?_⟩
    · intro call
      exact judged (.called call (Or.inr ⟨slot, kept.1⟩))
    · intro syscall
      exact judged (.kernel syscall (Or.inr ⟨slot, kept.1⟩))
  · intro stored
    exact judged (.slotOverwritten slot outcome address kept executed stored covered)

/-- A spill stores the pointer. -/
theorem slotTrue_of_spill (slot : FrameSlot) (spill : spilledSlot op instr.operands = some slot) :
    SlotTrue entry (facts.settle.moved instr.operands) (outcome.result state) slot := by
  unfold spilledSlot at spill
  split at spill
  next mem src rest shape =>
    split at spill
    next origin storage =>
      have ran := executed
      rw [shape] at ran
      obtain ⟨_, value, reads, address, same, located, read, result⟩ :=
        exec_move_mem env state mem _ outcome ran
      cases same
      obtain ⟨seen, width, -⟩ := Operand.read_reg _ _ _ _ _ _ read
      intro param known
      have holds : facts.affinity origin = some param := by
        simpa [shape, Facts.moved, spill, storage, Facts.settle] using known
      have wide : src.width = .b64 ∧ mem.addressWidth = .b64 := by
        by_contra narrow
        refine judged (.narrowSpill mem src [] slot origin rfl shape spill storage (by simp [holds]) ?_)
        rw [← not_and_or]
        exact narrow
      have place := (frameSlot_address mem slot env state.regs address spill wide.2 located).1
      rw [src.value_full _ origin storage wide.1] at seen
      cases seen
      have memory : (outcome.result state).mem =
          store state.mem address .b64 (state.regs origin) := by
        rw [result, ← width, wide.1]
        rfl
      have registers : (outcome.result state).regs = state.regs := by
        rw [result]
        rfl
      rw [registers, memory, ← place, (held.cells origin).affinity param holds, store]
      have read := ByteMemory.readBytes_written state.mem address
        (ByteMemory.encode 8 (entry param).toNat) (by simp)
      rwa [ByteMemory.encode_length] at read
    next => cases spill
  next => cases spill

/-- An instruction outside the listed branches keeps the facts true.

Proof: the cells, the slots and the pending comparison are kept one by one. A
slot either is the one spilled to, and then holds the pointer just stored, or
has neither its frame register nor its bytes changed. -/
theorem facts_preserved (known : instr.op = some op) (through : outcome.next = .goOn) :
    (updateAffinity facts instr).Hold entry (some instr) (outcome.result state) := by
  constructor
  · exact cells_preserved facts previous env state instr op outcome held judged executed known through
  · intro slot
    by_cases spill : spilledSlot op instr.operands = some slot
    · have move : op = .move := by
        unfold spilledSlot at spill
        split at spill
        · rfl
        · cases spill
      have stored := slotTrue_of_spill facts previous env state instr op outcome held judged executed
        slot spill
      have arm := arm_of_op instr op known
      subst move
      simpa only [updateAffinity, arm, armOf] using stored
    · intro param spilled
      rw [updateAffinity_stackSlots facts instr op known slot spill] at spilled
      exact slotTrue_of_kept facts previous env state instr op outcome held judged executed slot spill
        param spilled
  · exact pending_preserved facts env state instr op outcome known executed

end Step

end Semasm.Cli
