import Semasm.Cli.EffectTruth
import Semasm.Contract.SliceStatus

/-!
# Executed accesses against the record

The collector decides from the mnemonic and the operand position whether a memory
operand is read or written, and sets accesses through the frame registers aside.
An executed access outside the frame of the function should appear in the record
with its direction. `Overlooks` lists the instructions for which one does not.
-/

namespace Semasm.Cli

open Contract Decode Library X86

/-- The stack frame of the function: the addresses from a limit up to the entry
value of the stack pointer. -/
def OwnFrame (limit : Word) (start : State) (address : Word) : Prop :=
  limit ≤ address ∧ address < start.regs .rsp

instance (limit : Word) (start : State) (address : Word) :
    Decidable (OwnFrame limit start address) :=
  inferInstanceAs (Decidable (_ ∧ _))

/-- Some byte lies outside a set of addresses. -/
def Leaves (frame : Word → Prop) (address : Word) (width : Width) : Prop :=
  ∃ byte < width.bytes, ¬ frame (address + BitVec.ofNat 64 byte)

/-- The access appears among the effects, with its direction and width and not
as a frame access. -/
def Recorded (effects : List ObservedMemoryAccess) (access : Access) : Prop :=
  ∃ effect ∈ effects, effect.mode = access.mode ∧ effect.widthBytes = widthBytes access.width ∧
    effect.addr ≠ .stackFrame

/-- The accesses outside the frame that the record misses. -/
inductive Overlooks (frame : Word → Prop) (env : Environment) (state : State)
    (instr : LoweredInstr) (op : Op) : Prop
  /-- A destination in memory that is read and written is recorded as written. -/
  | modified (mem : MemOperand) (rest : List Operand) (address : Word)
      (modifies : op.modifies = true) (shape : instr.operands = .mem mem :: rest)
      (located : mem.address env state.regs = some address)
      (leaves : Leaves frame address mem.width)
  /-- A pushed memory operand is recorded as written. -/
  | pushed (mem : MemOperand) (address : Word) (push : op = .push)
      (shape : instr.operands = [.mem mem]) (located : mem.address env state.regs = some address)
      (leaves : Leaves frame address mem.width)
  /-- A popped memory operand is recorded as read. -/
  | popped (mem : MemOperand) (address : Word) (pop : op = .pop)
      (shape : instr.operands = [.mem mem])
      (located : mem.address env (op.addressRegs state.regs instr.operands) = some address)
      (leaves : Leaves frame address mem.width)
  /-- An operand at a frame register is set aside. -/
  | frameRegister (mem : MemOperand) (address : Word) (notLea : op ≠ .lea)
      (member : .mem mem ∈ instr.operands) (frameBased : isStackFrame mem = true)
      (located : mem.address env (op.addressRegs state.regs instr.operands) = some address)
      (leaves : Leaves frame address mem.width)

/-- The classes of mnemonics, by operation. -/
theorem mnemonic_classes (instr : LoweredInstr) (op : Op) (known : instr.op = some op) :
    (lowerMnemonic instr = "lea" ↔ op = .lea) ∧
      (moveMnemonics.contains (lowerMnemonic instr) = true ↔ op = .move ∨ op = .movzx) ∧
      (storingMnemonics.contains (lowerMnemonic instr) = true ↔ op = .push) ∧
      (modifyingMnemonics.contains (lowerMnemonic instr) = true ↔ op.modifies = true) :=
  Op.ofMnemonic_forall (fun mnemonic op => (mnemonic = "lea" ↔ op = .lea) ∧
    (moveMnemonics.contains mnemonic = true ↔ op = .move ∨ op = .movzx) ∧
    (storingMnemonics.contains mnemonic = true ↔ op = .push) ∧
    (modifyingMnemonics.contains mnemonic = true ↔ op.modifies = true)) (by decide) _ _ known

/-- The recorded direction of a memory operand, by operation. -/
theorem accessMode_mem (instr : LoweredInstr) (op : Op) (known : instr.op = some op)
    (mem : MemOperand) (position : Nat) (small : position ≤ 1)
    (here : instr.operands[position]? = some (.mem mem)) :
    accessMode (lowerMnemonic instr) position instr =
      if op = .lea then none
      else if op = .push then some .store
      else if (op = .move ∨ op = .movzx ∨ op.modifies = true) ∧ position = 0 then some .store
      else some .load := by
  obtain ⟨lea, move, storing, modifying⟩ := mnemonic_classes instr op known
  simp only [accessMode, lea, move, storing, modifying]
  have memory : (.mem mem : Operand).isMem = true := rfl
  have cases : position = 0 ∨ position = 1 := by omega
  rcases cases with rfl | rfl
  · simp only [here, Option.any_some, memory, if_true, and_true]
    cases op <;> simp [Op.modifies]
  · simp only [here, Option.any_some, memory, if_true]
    cases op <;> simp [Op.modifies]

/-- The effect recorded for a memory operand. -/
theorem recorded_of_mode (instr : LoweredInstr) (facts : Facts) (bounded : Option Induction)
    (mem : MemOperand) (position : Nat) (mode : AccessMode)
    (here : instr.operands[position]? = some (.mem mem))
    (moded : accessMode (lowerMnemonic instr) position instr = some mode)
    (notFrame : isStackFrame mem = false) (access : Access) (sameMode : access.mode = mode)
    (width : mem.width = access.width) :
    Recorded (recordAccesses instr facts bounded) access := by
  refine ⟨⟨mode, widthBytes mem.width, classifyAddr mem facts bounded, lowerMnemonic instr, 0⟩, ?_,
    sameMode.symm, by rw [width], ?_⟩
  · apply List.mem_filterMap.mpr
    refine ⟨(.mem mem, position), ?_, by simp [operandEffect, moded]⟩
    rw [List.mem_zipIdx_iff_getElem?]
    exact here
  · intro same
    have frame : classifyAddr mem facts bounded = .stackFrame := same
    unfold classifyAddr at frame
    simp only [notFrame, Bool.false_eq_true, if_false] at frame
    split at frame
    · cases frame
    · split at frame
      · split at frame
        · cases frame
        · split at frame <;> cases frame
      · cases frame

/-- The memory operands that an operation touches, with the direction recorded
for each, unless one of the overlooked instructions is at hand. -/
theorem touched_position (env : Environment) (state : State) (instr : LoweredInstr) (op : Op)
    (outcome : Outcome) (executed : op.exec env state instr.operands = some outcome)
    (mem : MemOperand) (mode : AccessMode) (touched : (.mem mem, mode) ∈ op.touches instr.operands)
    (notPushed : ¬ (op = .push ∧ instr.operands = [.mem mem]))
    (notPopped : ¬ (op = .pop ∧ instr.operands = [.mem mem]))
    (notModified : ¬ (op.modifies = true ∧ ∃ rest, instr.operands = .mem mem :: rest)) :
    ∃ position, position ≤ 1 ∧ instr.operands[position]? = some (.mem mem) ∧
      mode = if (op = .move ∨ op = .movzx ∨ op.modifies = true) ∧ position = 0 then .store
        else .load := by
  unfold Op.touches at touched
  split at touched
  next dst src shape =>
    simp only [List.mem_cons, Prod.mk.injEq, List.not_mem_nil, or_false] at touched
    rcases touched with ⟨rfl, rfl⟩ | ⟨rfl, rfl⟩
    · exact ⟨1, by simp, by simp [shape], by simp⟩
    · exact ⟨0, by simp, by simp [shape], by simp⟩
  next src shape =>
    simp only [List.mem_singleton, Prod.mk.injEq] at touched
    exact absurd ⟨rfl, by rw [shape, touched.1]⟩ notPushed
  next dst shape =>
    simp only [List.mem_singleton, Prod.mk.injEq] at touched
    exact absurd ⟨rfl, by rw [shape, touched.1]⟩ notPopped
  next first src shape =>
    simp only [List.mem_singleton, Prod.mk.injEq] at touched
    exact ⟨1, by simp, by simp [shape, touched.1], by simp [touched.2]⟩
  next condition first src shape =>
    simp only [List.mem_singleton, Prod.mk.injEq] at touched
    exact ⟨1, by simp, by simp [shape, touched.1], by simp [touched.2]⟩
  next operation dst src shape =>
    simp only [List.mem_cons, Prod.mk.injEq, List.not_mem_nil, or_false] at touched
    rcases touched with ⟨rfl, rfl⟩ | ⟨rfl, rfl⟩ | ⟨rfl, rfl⟩
    · exact absurd ⟨rfl, _, shape⟩ notModified
    · exact ⟨1, by simp, by simp [shape], by simp⟩
    · exact absurd ⟨rfl, _, shape⟩ notModified
  next dst shape =>
    have same : .mem mem = dst := by
      simp only [List.mem_cons, Prod.mk.injEq, List.not_mem_nil, or_false] at touched
      rcases touched with ⟨same, _⟩ | ⟨same, _⟩ <;> exact same
    exact absurd ⟨rfl, _, by rw [shape, same]⟩ notModified
  next dst shape =>
    have same : .mem mem = dst := by
      simp only [List.mem_cons, Prod.mk.injEq, List.not_mem_nil, or_false] at touched
      rcases touched with ⟨same, _⟩ | ⟨same, _⟩ <;> exact same
    exact absurd ⟨rfl, _, by rw [shape, same]⟩ notModified
  next dst rest shape =>
    have same : .mem mem = dst := by
      simp only [List.mem_cons, Prod.mk.injEq, List.not_mem_nil, or_false] at touched
      rcases touched with ⟨same, _⟩ | ⟨same, _⟩ <;> exact same
    exact absurd ⟨rfl, _, by rw [shape, same]⟩ notModified
  next dst rest shape =>
    have same : .mem mem = dst := by
      simp only [List.mem_cons, Prod.mk.injEq, List.not_mem_nil, or_false] at touched
      rcases touched with ⟨same, _⟩ | ⟨same, _⟩ <;> exact same
    exact absurd ⟨rfl, _, by rw [shape, same]⟩ notModified
  next left right shape =>
    simp only [List.mem_cons, Prod.mk.injEq, List.not_mem_nil, or_false] at touched
    rcases touched with ⟨rfl, rfl⟩ | ⟨rfl, rfl⟩
    · exact ⟨0, by simp, by simp [shape], by simp [Op.modifies]⟩
    · exact ⟨1, by simp, by simp [shape], by simp⟩
  next left right shape =>
    simp only [List.mem_cons, Prod.mk.injEq, List.not_mem_nil, or_false] at touched
    rcases touched with ⟨rfl, rfl⟩ | ⟨rfl, rfl⟩
    · exact ⟨0, by simp, by simp [shape], by simp [Op.modifies]⟩
    · exact ⟨1, by simp, by simp [shape], by simp⟩
  next target shape =>
    simp only [List.mem_singleton, Prod.mk.injEq] at touched
    exact ⟨0, by simp, by simp [shape, touched.1], by simp [touched.2, Op.modifies]⟩
  next target shape =>
    simp only [List.mem_singleton, Prod.mk.injEq] at touched
    exact ⟨0, by simp, by simp [shape, touched.1], by simp [touched.2, Op.modifies]⟩
  next => cases touched

/-- Two positions with a property give two elements with it. -/
theorem one_lt_length_filter (operands : List Operand) (first second : Nat) (ordered : first < second)
    (mem other : MemOperand) (here : operands[first]? = some (.mem mem))
    (there : operands[second]? = some (.mem other)) :
    1 < (operands.filter Operand.isMem).length := by
  induction operands generalizing first second with
  | nil => cases here
  | cons operand rest inductionHypothesis =>
    obtain ⟨later, rfl⟩ : ∃ later, second = later + 1 := ⟨second - 1, by omega⟩
    rw [List.getElem?_cons_succ] at there
    cases first with
    | zero =>
      rw [List.getElem?_cons_zero] at here
      cases here
      have member : (.mem other : Operand) ∈ rest.filter Operand.isMem :=
        List.mem_filter.mpr ⟨List.mem_of_getElem? there, rfl⟩
      have some_ := List.length_pos_of_mem member
      rw [List.filter_cons_of_pos rfl, List.length_cons]
      omega
    | succ before =>
      rw [List.getElem?_cons_succ] at here
      have more := inductionHypothesis before later (by omega) here there
      rw [List.filter_cons]
      split_ifs
      · rw [List.length_cons]
        omega
      · exact more

/-- Two memory operands of an executed instruction are one. -/
theorem mem_unique (env : Environment) (instr : LoweredInstr) (state : State) (outcome : Outcome)
    (executed : exec env instr state = some outcome) (first second : Nat) (mem other : MemOperand)
    (here : instr.operands[first]? = some (.mem mem))
    (there : instr.operands[second]? = some (.mem other)) : first = second := by
  unfold exec at executed
  split_ifs at executed with many
  by_contra different
  apply many
  rcases Nat.lt_or_gt_of_ne different with before | after
  · exact one_lt_length_filter _ first second before mem other here there
  · exact one_lt_length_filter _ second first after other mem there here

/-- A recorded access comes from the one memory operand, away from the frame
registers. -/
theorem mode_of_recorded (env : Environment) (instr : LoweredInstr) (state : State)
    (outcome : Outcome) (executed : exec env instr state = some outcome) (facts : Facts)
    (bounded : Option Induction) (mem : MemOperand) (position : Nat)
    (here : instr.operands[position]? = some (.mem mem)) (access : Access)
    (recorded : Recorded (recordAccesses instr facts bounded) access) :
    accessMode (lowerMnemonic instr) position instr = some access.mode ∧
      isStackFrame mem = false := by
  obtain ⟨effect, listed, mode, _, notFrame⟩ := recorded
  obtain ⟨other, found, member, moded, _, addressed⟩ := mem_recordAccesses instr facts bounded effect listed
  have there : instr.operands[found]? = some (.mem other) := List.mem_zipIdx_iff_getElem?.mp member
  obtain rfl := mem_unique env instr state outcome executed position found mem other here there
  rw [here] at there
  cases there
  refine ⟨by rw [moded, mode], ?_⟩
  by_contra frameBased
  apply notFrame
  rw [addressed, classifyAddr, if_pos (by simpa using frameBased)]

/-- Every access outside the frame is recorded exactly when the instruction is
none of the overlooked ones.

Proof: an executed instruction has one memory operand, recorded once. Its
direction is the executed one except for the listed operations, and its address
is set aside exactly when it is based on a frame register. -/
theorem accesses_recorded_iff (frame : Word → Prop) (facts : Facts) (bounded : Option Induction)
    (env : Environment) (state : State) (instr : LoweredInstr) (op : Op) (outcome : Outcome)
    (known : instr.op = some op) (executed : exec env instr state = some outcome) :
    (∀ access ∈ outcome.accesses, Leaves frame access.address access.width →
      Recorded (recordAccesses instr facts bounded) access) ↔
      ¬ Overlooks frame env state instr op := by
  obtain ⟨_, same, ran⟩ := op_of_exec _ _ _ _ executed
  rw [known] at same
  cases same
  have touched := op.exec_accesses env state instr.operands outcome ran
  constructor
  · rintro all (⟨mem, rest, address, modifies, shape, located, leaves⟩ |
      ⟨mem, address, push, shape, located, leaves⟩ | ⟨mem, address, pop, shape, located, leaves⟩ |
      ⟨mem, address, notLea, member, frameBased, located, leaves⟩)
    · have notPop : op ≠ .pop := by
        rintro rfl
        cases modifies
      have here : instr.operands[0]? = some (.mem mem) := by simp [shape]
      obtain ⟨place, same, accessed⟩ :=
        touched_address _ _ _ _ touched mem .load (op.modified_loads instr.operands mem rest modifies shape
          env state outcome ran)
      rw [op.addressRegs_of_ne_pop _ _ notPop, located] at same
      cases same
      have moded := (mode_of_recorded env instr state outcome executed facts bounded mem 0 here _
        (all _ accessed leaves)).1
      rw [accessMode_mem instr op known mem 0 (by simp) here] at moded
      cases op <;> simp [Op.modifies] at modifies moded
    · subst push
      have here : instr.operands[0]? = some (.mem mem) := by simp [shape]
      obtain ⟨place, same, accessed⟩ :=
        touched_address _ _ _ _ touched mem .load (by simp [shape, Op.touches])
      rw [Op.addressRegs_of_ne_pop _ _ _ (by simp), located] at same
      cases same
      have moded := (mode_of_recorded env instr state outcome executed facts bounded mem 0 here _
        (all _ accessed leaves)).1
      rw [accessMode_mem instr .push known mem 0 (by simp) here] at moded
      simp at moded
    · subst pop
      have here : instr.operands[0]? = some (.mem mem) := by simp [shape]
      obtain ⟨place, same, accessed⟩ :=
        touched_address _ _ _ _ touched mem .store (by simp [shape, Op.touches])
      rw [located] at same
      cases same
      have moded := (mode_of_recorded env instr state outcome executed facts bounded mem 0 here _
        (all _ accessed leaves)).1
      rw [accessMode_mem instr .pop known mem 0 (by simp) here] at moded
      simp [Op.modifies] at moded
    · obtain ⟨mode, listed⟩ := op.mem_touches env state instr.operands outcome ran notLea mem member
      obtain ⟨place, same, accessed⟩ := touched_address _ _ _ _ touched mem mode listed
      rw [located] at same
      cases same
      obtain ⟨position, here⟩ := List.mem_iff_getElem?.mp member
      have notFrame := (mode_of_recorded env instr state outcome executed facts bounded mem position
        here _ (all _ accessed leaves)).2
      simp [frameBased] at notFrame
  · intro fine access member leaves
    obtain ⟨mem, listed, located, width⟩ := (mem_touched_iff _ _ _ _ touched access).mp member
    have leavesOperand : Leaves frame access.address mem.width := by rwa [width]
    have notLea : op ≠ .lea := by
      rintro rfl
      simp [Op.touches] at listed
    have notPopped : ¬ (op = .pop ∧ instr.operands = [.mem mem]) :=
      fun popped => fine (.popped mem _ popped.1 popped.2 located leavesOperand)
    have notPushed : ¬ (op = .push ∧ instr.operands = [.mem mem]) := by
      rintro ⟨push, shape⟩
      subst push
      exact fine (.pushed mem _ rfl shape located leavesOperand)
    have notModified : ¬ (op.modifies = true ∧ ∃ rest, instr.operands = .mem mem :: rest) := by
      rintro ⟨modifies, rest, shape⟩
      refine fine (.modified mem rest _ modifies shape ?_ leavesOperand)
      rwa [op.addressRegs_of_ne_pop] at located
      rintro rfl
      cases modifies
    obtain ⟨position, small, here, mode⟩ := touched_position env state instr op outcome ran mem
      access.mode listed notPushed notPopped notModified
    have notFrame : isStackFrame mem = false := by
      by_contra frameBased
      refine fine (.frameRegister mem _ notLea (List.mem_of_getElem? here) ?_ located leavesOperand)
      simpa using frameBased
    refine recorded_of_mode instr facts bounded mem position access.mode here ?_ notFrame access rfl
      width
    have notPush : op ≠ .push := by
      rintro rfl
      apply notPushed
      cases shape : instr.operands with
      | nil => simp [shape, Op.touches] at listed
      | cons src rest =>
        cases rest with
        | nil =>
          simp only [shape, Op.touches, List.mem_singleton, Prod.mk.injEq] at listed
          exact ⟨rfl, by rw [listed.1]⟩
        | cons second others => simp [shape, Op.touches] at listed
    rw [accessMode_mem instr op known mem position small here, if_neg notLea, if_neg notPush, mode]
    split_ifs <;> rfl

end Semasm.Cli
