import Semasm.X86.Analysis.Semilattice

/-!
# The effect of a sequence on a state

Whatever the state before it, a sequence of instructions leaves each register as it
was, with a record that depends on nothing, or with the value recorded for some
register at its start; it shifts a known stack depth by a fixed amount or forgets it.
A copy of a register that has no record is a conflict, while the absence of a record
is the least one. So copies are where the order of states can be lost, and stack
adjustments, which shift a known depth and leave an unknown one.
-/

namespace Semasm.X86.Analysis

/-- What a sequence leaves in a register. -/
inductive CellEffect where
  | kept
  | set (record : RegAbs)
  | copied (source : Gp) (width : Width)

/-- The value a move reads from a record, and a conflict where there is none. -/
def valueIn : Option RegAbs → AbsVal
  | some found => found.value
  | none => .conflict

/-- The record a register ends with. -/
def CellEffect.record (own : Gp) (state : BlockState) : CellEffect → Option RegAbs
  | .kept => state.regs own
  | .set record => some record
  | .copied source width => some ⟨valueIn (state.regs source), width⟩

/-- The effect of a sequence of instructions. -/
structure Effect where
  cells : Gp → CellEffect
  adjust : Int64
  forgets : Bool
  cmp : Option CmpContext
  losesMemory : Bool

/-- The state a sequence with the effect leaves. -/
def Effect.apply (effect : Effect) (state : BlockState) : BlockState where
  regs cell := (effect.cells cell).record cell state
  rspDelta := if state.rspKnown then state.rspDelta + effect.adjust else state.rspDelta
  rspKnown := state.rspKnown && !effect.forgets
  cmp := effect.cmp.getD state.cmp
  memoryKnown := state.memoryKnown && !effect.losesMemory

/-- The effect of no instruction. -/
def Effect.idle : Effect := ⟨fun _ => .kept, 0, false, .none, false⟩

/-- What a move out of a register copies after a sequence. -/
def Effect.copyOf (effect : Effect) (source : Gp) (width : Width) : CellEffect :=
  match effect.cells source with
  | .kept => .copied source width
  | .set record => .set ⟨record.value, width⟩
  | .copied origin _ => .copied origin width

/-- What a move leaves after a sequence, from its second operand. -/
def Effect.moved (effect : Effect) (operands : List Operand) (width : Width) : CellEffect :=
  match (operands[1]? : Option Operand) with
  | some (.imm value) => .set ⟨.const value, width⟩
  | some (.reg source) =>
    match gpOf source with
    | some cell => effect.copyOf cell width
    | .none => .set ⟨.conflict, width⟩
  | _ => .set ⟨.conflict, width⟩

/-- The effect with one register given another. -/
def Effect.update (effect : Effect) (cell : Gp) (left : CellEffect) : Effect :=
  { effect with cells := Function.update effect.cells cell left }

/-- The effect with another shift of a depth that is still known. -/
def Effect.shift (effect : Effect) (amount : Int64) : Effect :=
  if effect.forgets then effect else { effect with adjust := effect.adjust + amount }

/-- The effect of a sequence and one more instruction. -/
def Effect.then (effect : Effect) (instr : LoweredInstr) : Effect :=
  match instr.kind with
  | .store =>
    let moved := match firstCell instr.operands with
      | some (cell, width) => effect.update cell (effect.moved instr.operands width)
      | .none => effect
    if instr.mnemonic = "push" then moved.shift 8
    else if instr.mnemonic = "pop" then moved.shift (-8)
    else moved
  | .load | .binary | .select =>
    match firstCell instr.operands with
    | some (cell, width) => effect.update cell (.set ⟨.conflict, width⟩)
    | .none => effect
  | .compare => { effect with cmp := some (if instr.signed = some true then .signed else .unsigned) }
  | .call =>
    { effect with
      cells := fun cell => if cell ∈ volatileGp then .set ⟨.conflict, .b64⟩ else effect.cells cell
    }.shift 8
  | .unknown =>
    { effect with
      cells := fun _ => .set ⟨.conflict, .b64⟩
      forgets := true
      cmp := some .none
      losesMemory := true }
  | .branch | .ret | .nop => effect

/-- The effect of a sequence of instructions. -/
def effectOf (instrs : List LoweredInstr) : Effect := instrs.foldl Effect.then .idle

/-! ## Sequences have their effect -/

@[simp] theorem Effect.idle_apply (state : BlockState) : Effect.idle.apply state = state := by
  obtain ⟨regs, depth, knows, cmp, keeps⟩ := state
  simp [Effect.apply, Effect.idle, CellEffect.record]

theorem Effect.update_apply (effect : Effect) (cell : Gp) (left : CellEffect) (state : BlockState) :
    (effect.update cell left).apply state =
      { effect.apply state with
        regs := Function.update (effect.apply state).regs cell (left.record cell state) } := by
  simp only [Effect.apply, Effect.update, BlockState.mk.injEq, and_self, and_true]
  funext other
  by_cases same : other = cell
  · subst same
    simp
  · simp [Function.update_of_ne same]

/-- A copy records what is recorded for its source at that point. -/
theorem Effect.copyOf_record (effect : Effect) (source own : Gp) (width : Width)
    (state : BlockState) :
    (effect.copyOf source width).record own state =
      some ⟨valueIn ((effect.apply state).regs source), width⟩ := by
  unfold Effect.copyOf
  cases found : effect.cells source with
  | kept => simp [CellEffect.record, valueIn, Effect.apply, found]
  | set record => simp [CellEffect.record, valueIn, Effect.apply, found]
  | copied origin before => simp [CellEffect.record, valueIn, Effect.apply, found]

theorem Effect.moved_record (effect : Effect) (operands : List Operand) (width : Width) (own : Gp)
    (state : BlockState) :
    (effect.moved operands width).record own state =
      some ⟨movedValue (effect.apply state) operands, width⟩ := by
  unfold Effect.moved movedValue
  cases second : (operands[1]? : Option Operand) with
  | none => rfl
  | some operand =>
    cases operand with
    | reg source =>
      cases found : gpOf source with
      | none => simp [CellEffect.record, found]
      | some cell =>
        simp only [found, Option.bind_some]
        rw [effect.copyOf_record]
        rfl
    | imm value => rfl
    | _ => rfl

theorem Effect.shift_apply (effect : Effect) (amount : Int64) (state : BlockState) :
    (effect.shift amount).apply state =
      { effect.apply state with
        rspDelta := if (effect.apply state).rspKnown then (effect.apply state).rspDelta + amount
          else (effect.apply state).rspDelta } := by
  unfold Effect.shift
  by_cases forgotten : effect.forgets = true
  · rw [if_pos forgotten]
    simp [Effect.apply, forgotten]
  · rw [if_neg forgotten]
    rw [Bool.not_eq_true] at forgotten
    cases knows : state.rspKnown with
    | true => simp [Effect.apply, forgotten, knows, Int64.add_assoc]
    | false => simp [Effect.apply, forgotten, knows]

theorem Effect.clobber_apply (effect : Effect) (operands : List Operand) (state : BlockState) :
    (match firstCell operands with
      | some (cell, width) => effect.update cell (.set ⟨.conflict, width⟩)
      | .none => effect).apply state = (effect.apply state).clobberFirst operands := by
  unfold BlockState.clobberFirst
  cases firstCell operands with
  | none => rfl
  | some first => exact effect.update_apply first.1 _ state

theorem Effect.move_apply (effect : Effect) (operands : List Operand) (state : BlockState) :
    (match firstCell operands with
      | some (cell, width) => effect.update cell (effect.moved operands width)
      | .none => effect).apply state = (effect.apply state).moved operands := by
  unfold BlockState.moved
  cases firstCell operands with
  | none => rfl
  | some first =>
    refine (effect.update_apply first.1 _ state).trans ?_
    rw [effect.moved_record]
    rfl

/-- Clobbering registers touches nothing else. -/
theorem BlockState.clobberAll_eq (state : BlockState) (cells : List Gp) :
    state.clobberAll cells =
      { state with regs := fun cell =>
          if cell ∈ cells then some ⟨.conflict, .b64⟩ else state.regs cell } := by
  have others : (state.clobberAll cells).rspDelta = state.rspDelta ∧
      (state.clobberAll cells).rspKnown = state.rspKnown ∧
      (state.clobberAll cells).cmp = state.cmp ∧
      (state.clobberAll cells).memoryKnown = state.memoryKnown := by
    unfold BlockState.clobberAll
    induction cells generalizing state with
    | nil => exact ⟨rfl, rfl, rfl, rfl⟩
    | cons first cells inductionHypothesis =>
      exact inductionHypothesis (state.insert first ⟨.conflict, .b64⟩)
  obtain ⟨depth, knows, cmp, keeps⟩ := others
  have regs := funext (state.clobberAll_regs cells)
  cases clobbered : state.clobberAll cells
  simp_all

/-- A stack adjustment shifts a depth that is known. -/
theorem BlockState.adjustStack_eq (state : BlockState) (mnemonic : String) :
    state.adjustStack mnemonic =
      if mnemonic = "push" then
        { state with rspDelta := if state.rspKnown then state.rspDelta + 8 else state.rspDelta }
      else if mnemonic = "pop" then
        { state with rspDelta := if state.rspKnown then state.rspDelta + -8 else state.rspDelta }
      else state := by
  obtain ⟨regs, depth, knows, cmp, keeps⟩ := state
  unfold BlockState.adjustStack
  by_cases push : mnemonic = "push"
  · subst push
    cases knows <;> simp
  · by_cases pop : mnemonic = "pop"
    · subst pop
      cases knows <;> simp [Int64.sub_eq_add_neg]
    · simp [push, pop]

/-- One more instruction does what its transfer does. -/
theorem Effect.then_apply (effect : Effect) (instr : LoweredInstr) (state : BlockState) :
    (effect.then instr).apply state = transfer instr (effect.apply state) := by
  unfold Effect.then transfer
  cases instr.kind with
  | store =>
    dsimp only
    rw [← effect.move_apply, BlockState.adjustStack_eq]
    generalize (match firstCell instr.operands with
      | some (cell, width) => effect.update cell (effect.moved instr.operands width)
      | .none => effect) = moved
    split
    · exact moved.shift_apply 8 state
    · split
      · exact moved.shift_apply (-8) state
      · rfl
  | load => exact effect.clobber_apply instr.operands state
  | binary => exact effect.clobber_apply instr.operands state
  | select => exact effect.clobber_apply instr.operands state
  | compare => rfl
  | call =>
    have clobbered : ({ effect with
        cells := fun cell => if cell ∈ volatileGp then .set ⟨.conflict, .b64⟩ else effect.cells cell
        } : Effect).apply state = (effect.apply state).clobberAll volatileGp := by
      rw [BlockState.clobberAll_eq, Effect.apply, Effect.apply, BlockState.mk.injEq]
      refine ⟨funext fun cell => ?_, rfl, rfl, rfl, rfl⟩
      by_cases volatile : cell ∈ volatileGp
      · simp [volatile, CellEffect.record]
      · simp [volatile]
    rw [Effect.shift_apply, clobbered]
    dsimp only
    split
    · rfl
    · rfl
  | unknown =>
    simp only [BlockState.invalidateUnknown, BlockState.clobberAll_eq, mem_allGp, if_true]
    simp [Effect.apply, CellEffect.record]
  | branch => rfl
  | ret => rfl
  | nop => rfl

/-- The transfer function over a sequence is the effect of the sequence.

Proof: by induction from the end of the sequence, one instruction at a time. -/
theorem effectOf_apply (instrs : List LoweredInstr) (state : BlockState) :
    (effectOf instrs).apply state = transferAll instrs state := by
  induction instrs using List.reverseRecOn with
  | nil => exact Effect.idle_apply state
  | append_singleton instrs instr inductionHypothesis =>
    have effects : effectOf (instrs ++ [instr]) = (effectOf instrs).then instr := by
      rw [effectOf, List.foldl_append]
      rfl
    have states : transferAll (instrs ++ [instr]) state =
        transfer instr (transferAll instrs state) := by
      rw [transferAll, List.foldl_append]
      rfl
    rw [effects, states, Effect.then_apply, inductionHypothesis]

/-! ## Where the order is kept -/

/-- What a sequence needs to keep one state below another: no register ends as a
copy of one without a record below and with a value that is no conflict above, and a
depth known below only is not lifted under the depth above. -/
structure Effect.KeepsOrder (effect : Effect) (below above : BlockState) : Prop where
  copies : ∀ cell source width, effect.cells cell = .copied source width →
    below.regs source = none → ∀ found, above.regs source = some found → found.value = .conflict
  depth : below.rspKnown = true → above.rspKnown = false →
    above.rspDelta ≤ below.rspDelta + effect.adjust

/-- A copy keeps the order of its source except where only the one above has a value
for it. -/
theorem copy_le_iff {below above : Option RegAbs} (ordered : joinRegs below above = above)
    (width : Width) :
    joinRegs (some ⟨valueIn below, width⟩) (some ⟨valueIn above, width⟩) =
        some ⟨valueIn above, width⟩ ↔
      (below = none → ∀ found, above = some found → found.value = .conflict) := by
  have values : joinRegs (some ⟨valueIn below, width⟩) (some ⟨valueIn above, width⟩) =
      some ⟨valueIn above, width⟩ ↔ (valueIn below).join (valueIn above) = valueIn above := by
    simp only [joinRegs, RegAbs.join_eq, wider_self, Option.some.injEq, RegAbs.mk.injEq, and_true]
  rw [values]
  cases below with
  | none =>
    cases above with
    | none => simp [AbsVal.join_self]
    | some found =>
      simp only [valueIn, AbsVal.conflict_join, forall_const, Option.some.injEq, forall_eq']
      exact eq_comm
  | some first =>
    cases above with
    | none => cases ordered
    | some second =>
      have joined : first.value.join second.value = second.value :=
        congrArg RegAbs.value (Option.some.inj ordered)
      exact iff_of_true joined (by simp)

/-- A sequence keeps one state below another exactly under that condition. -/
theorem Effect.apply_le_iff (effect : Effect) {below above : BlockState} (ordered : below ≤ above) :
    effect.apply below ≤ effect.apply above ↔ effect.KeepsOrder below above := by
  obtain ⟨regs, ⟨deeper, known⟩, context, memory⟩ := (BlockState.le_iff below above).1 ordered
  have cells : (∀ cell, joinRegs ((effect.apply below).regs cell) ((effect.apply above).regs cell) =
      (effect.apply above).regs cell) ↔
      ∀ cell source width, effect.cells cell = .copied source width → below.regs source = none →
        ∀ found, above.regs source = some found → found.value = .conflict := by
    refine forall_congr' fun cell => ?_
    cases left : effect.cells cell with
    | kept => simp [Effect.apply, left, CellEffect.record, regs cell]
    | set record => simp [Effect.apply, left, CellEffect.record, joinRegs_self]
    | copied origin width =>
      have copy := copy_le_iff (regs origin) width
      simp only [Effect.apply, left, CellEffect.record, copy, CellEffect.copied.injEq]
      constructor
      · rintro kept source size ⟨rfl, rfl⟩
        exact kept
      · intro kept
        exact kept origin width ⟨rfl, rfl⟩
  have depth : ((effect.apply above).rspDelta ≤ (effect.apply below).rspDelta ∧
      ((effect.apply above).rspKnown = true → (effect.apply below).rspKnown = true ∧
        (effect.apply below).rspDelta = (effect.apply above).rspDelta)) ↔
      (below.rspKnown = true → above.rspKnown = false →
        above.rspDelta ≤ below.rspDelta + effect.adjust) := by
    cases knows : below.rspKnown with
    | false =>
      cases knows' : above.rspKnown with
      | false => simp [Effect.apply, knows, knows', deeper]
      | true =>
        have both := (known knows').1
        rw [knows] at both
        cases both
    | true =>
      cases knows' : above.rspKnown with
      | false => simp [Effect.apply, knows, knows']
      | true =>
        have same := (known knows').2
        simp [Effect.apply, knows, knows', same]
  have others : (effect.apply below).cmp.join (effect.apply above).cmp = (effect.apply above).cmp ∧
      ((effect.apply above).memoryKnown = true → (effect.apply below).memoryKnown = true) := by
    constructor
    · cases set : effect.cmp with
      | none => simpa [Effect.apply, set] using context
      | some fixed => simp [Effect.apply, set, CmpContext.join_self]
    · simp only [Effect.apply, Bool.and_eq_true]
      exact fun kept => ⟨memory kept.1, kept.2⟩
  rw [BlockState.le_iff, cells, depth]
  constructor
  · rintro ⟨copies, shifted, _⟩
    exact ⟨copies, shifted⟩
  · rintro ⟨copies, shifted⟩
    exact ⟨copies, shifted, others⟩

/-- The sequences over which the transfer function is monotone: no register ends as a
copy, and the stack adjustments cancel. A positive adjustment breaks the order only
where the depth wraps around.

Proof: a register without a record is below the same register with a constant, and a
known depth is below the same depth when it is unknown. -/
theorem transferAll_monotone_iff (instrs : List LoweredInstr) :
    Monotone (transferAll instrs) ↔
      (∀ cell source width, (effectOf instrs).cells cell ≠ .copied source width) ∧
        (effectOf instrs).adjust = 0 := by
  have same : transferAll instrs = (effectOf instrs).apply :=
    funext fun state => (effectOf_apply instrs state).symm
  rw [same]
  generalize effectOf instrs = effect
  constructor
  · intro monotone
    constructor
    · intro cell source width left
      have ordered : BlockState.bottom ≤ BlockState.bottom.insert source ⟨.const 0, .b64⟩ := by
        refine (BlockState.le_iff _ _).2 ⟨fun _ => rfl, ⟨?_, fun _ => ⟨rfl, rfl⟩⟩, rfl, fun _ => rfl⟩
        exact Int64.le_refl _
      have keeps := (effect.apply_le_iff ordered).1 (monotone ordered)
      have conflicts := keeps.copies cell source width left rfl _ (BlockState.insert_same ..)
      cases conflicts
    · have ordered : ({ BlockState.bottom with rspDelta := Int64.minValue - effect.adjust } : BlockState) ≤
          { BlockState.bottom with rspDelta := Int64.minValue - effect.adjust, rspKnown := false } := by
        refine (BlockState.le_iff _ _).2 ⟨fun _ => rfl, ⟨Int64.le_refl _, ?_⟩, rfl, fun _ => rfl⟩
        intro known
        cases known
      have keeps := (effect.apply_le_iff ordered).1 (monotone ordered)
      have lifted : Int64.minValue - effect.adjust ≤ Int64.minValue - effect.adjust + effect.adjust :=
        keeps.depth rfl rfl
      rw [Int64.sub_add_cancel] at lifted
      have least := Int64.le_antisymm lifted (Int64.minValue_le _)
      rw [← Int64.add_left_inj effect.adjust, Int64.sub_add_cancel] at least
      exact Int64.add_eq_left.1 least.symm
  · rintro ⟨none, still⟩ below above ordered
    refine (effect.apply_le_iff ordered).2 ⟨fun cell source width left => ?_, fun _ _ => ?_⟩
    · exact absurd left (none cell source width)
    · rw [still, Int64.add_zero]
      exact ((BlockState.le_iff below above).1 ordered).2.1.1

/-- Block states form a join-semilattice, and the transfer function over a sequence
keeps two of them in order exactly when the effect of the sequence does. -/
theorem semilattice_and_transfer_le_iff (instrs : List LoweredInstr)
    (one two three : BlockState) :
    one.join two = two.join one ∧ (one.join two).join three = one.join (two.join three) ∧
      one.join one = one ∧
      (one ≤ two → (transferAll instrs one ≤ transferAll instrs two ↔
        (effectOf instrs).KeepsOrder one two)) := by
  refine ⟨BlockState.join_comm one two, BlockState.join_assoc one two three,
    BlockState.join_self one, fun ordered => ?_⟩
  rw [← effectOf_apply, ← effectOf_apply]
  exact (effectOf instrs).apply_le_iff ordered

/-- A state with a constant in one register. -/
def raxFive : BlockState := BlockState.bottom.insert .rax ⟨.const 5, .b64⟩

theorem bottom_le_raxFive : BlockState.bottom ≤ raxFive :=
  (BlockState.le_iff_join _ _).2 (by decide)

/-- A move of an immediate value. -/
def setRbx : List LoweredInstr := [⟨"mov", .store, .b64, none, [.reg Gp.rbx.full, .imm 7]⟩]

/-- A move out of a register. -/
def copyRax : List LoweredInstr :=
  [⟨"mov", .store, .b64, none, [.reg Gp.rbx.full, .reg Gp.rax.full]⟩]

theorem set_keeps_order : (effectOf setRbx).KeepsOrder BlockState.bottom raxFive :=
  ((semilattice_and_transfer_le_iff setRbx BlockState.bottom raxFive raxFive).2.2.2
    bottom_le_raxFive).1 ((BlockState.le_iff _ _).2
      ⟨by decide, ⟨Int64.le_refl _, fun _ => ⟨rfl, rfl⟩⟩, rfl, fun _ => rfl⟩)

/-- The copy of a register without a record conflicts, that of a constant does not. -/
theorem copy_not_monotone :
    ¬ ∀ (instrs : List LoweredInstr) (one two : BlockState), one ≤ two →
      transferAll instrs one ≤ transferAll instrs two := by
  intro monotone
  have kept := monotone copyRax _ _ bottom_le_raxFive
  have copied := ((BlockState.le_iff _ _).1 kept).1 .rbx
  exact absurd copied (by decide)

end Semasm.X86.Analysis
