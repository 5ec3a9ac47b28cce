import Semasm.X86.Analysis.Fixpoint

/-!
# Which registers can be recorded

From the text alone: a register is assigned at the end of a block when some block
on a way to it assigns the register, and it may be recorded as a constant at a
place when a move of an immediate, or of a register that may be recorded, was not
followed by another assignment. What the driver records is never more.
-/

namespace Semasm.X86.Analysis

open Library Transitions

/-- The transfer function sets the register. -/
def Assigns (instr : LoweredInstr) (cell : Gp) : Prop :=
  match instr.kind with
  | .store | .load | .binary | .select => (firstCell instr.operands).map Prod.fst = some cell
  | .call => cell ∈ volatileGp
  | .unknown => True
  | .compare | .branch | .ret | .nop => False

instance (instr : LoweredInstr) (cell : Gp) : Decidable (Assigns instr cell) := by
  unfold Assigns
  cases instr.kind <;> infer_instance

/-- Some block on a way to the end of this one assigns the register. -/
inductive Assigned (lowered : List LoweredInstr) (blocks : List BlockRange) (cell : Gp) : Nat → Prop
  | own (index : Nat) (block : BlockRange) (instr : LoweredInstr)
      (found : blocks[index]? = some block) (member : instr ∈ block.body lowered)
      (assigns : Assigns instr cell) : Assigned lowered blocks cell index
  | before (source index : Nat) (flows : Flows blocks source index)
      (assigned : Assigned lowered blocks cell source) : Assigned lowered blocks cell index

/-- The register may be recorded as a constant in a block after a number of its
instructions. -/
inductive MayBeConst (lowered : List LoweredInstr) (blocks : List BlockRange) : Nat → Nat → Gp → Prop
  | entered (source index : Nat) (block : BlockRange) (cell : Gp)
      (found : blocks[source]? = some block) (flows : index ∈ block.successors)
      (held : MayBeConst lowered blocks source (block.body lowered).length cell) :
      MayBeConst lowered blocks index 0 cell
  | kept (index count : Nat) (block : BlockRange) (instr : LoweredInstr) (cell : Gp)
      (found : blocks[index]? = some block) (here : (block.body lowered)[count]? = some instr)
      (untouched : ¬ Assigns instr cell) (held : MayBeConst lowered blocks index count cell) :
      MayBeConst lowered blocks index (count + 1) cell
  | immediate (index count : Nat) (block : BlockRange) (instr : LoweredInstr) (cell : Gp)
      (value : Int64) (found : blocks[index]? = some block)
      (here : (block.body lowered)[count]? = some instr) (store : instr.kind = .store)
      (assigns : Assigns instr cell) (source : (instr.operands[1]? : Option Operand) = some (.imm value)) :
      MayBeConst lowered blocks index (count + 1) cell
  | copied (index count : Nat) (block : BlockRange) (instr : LoweredInstr) (cell origin : Gp)
      (register : Register) (found : blocks[index]? = some block)
      (here : (block.body lowered)[count]? = some instr) (store : instr.kind = .store)
      (assigns : Assigns instr cell)
      (source : (instr.operands[1]? : Option Operand) = some (.reg register))
      (view : gpOf register = some origin) (held : MayBeConst lowered blocks index count origin) :
      MayBeConst lowered blocks index (count + 1) cell

/-- A value that the transfer function may record for a register: the one of a move. -/
def Moves (instr : LoweredInstr) (state : BlockState) (value : Int64) : Prop :=
  instr.kind = .store ∧ movedValue state instr.operands = .const value

/-- The registers that the transfer function does not set keep their record. -/
theorem transfer_kept (instr : LoweredInstr) (state : BlockState) (cell : Gp)
    (untouched : ¬ Assigns instr cell) : (transfer instr state).regs cell = state.regs cell := by
  have clobbered : (firstCell instr.operands).map Prod.fst ≠ some cell →
      (state.clobberFirst instr.operands).regs cell = state.regs cell := by
    intro other
    unfold BlockState.clobberFirst
    cases first : firstCell instr.operands with
    | none => rfl
    | some found =>
      rw [first] at other
      exact BlockState.insert_other _ _ _ _ (fun same => other (congrArg some same.symm))
  unfold Assigns at untouched
  unfold transfer
  cases kind : instr.kind with
  | store =>
    rw [kind] at untouched
    rw [BlockState.adjustStack_regs]
    unfold BlockState.moved
    cases first : firstCell instr.operands with
    | none => rfl
    | some found =>
      rw [first] at untouched
      exact BlockState.insert_other _ _ _ _ (fun same => untouched (congrArg some same.symm))
  | load =>
    rw [kind] at untouched
    exact clobbered untouched
  | binary =>
    rw [kind] at untouched
    exact clobbered untouched
  | select =>
    rw [kind] at untouched
    exact clobbered untouched
  | compare => rfl
  | call =>
    rw [kind] at untouched
    simp only
    split
    · exact (BlockState.clobberAll_regs state volatileGp cell).trans (if_neg untouched)
    · exact (BlockState.clobberAll_regs state volatileGp cell).trans (if_neg untouched)
  | unknown =>
    rw [kind] at untouched
    exact absurd trivial untouched
  | branch => rfl
  | ret => rfl
  | nop => rfl

/-- A register that the transfer function sets has a record, and it is a constant only
after a move of one. -/
theorem transfer_assigned (instr : LoweredInstr) (state : BlockState) (cell : Gp)
    (assigns : Assigns instr cell) : ∃ record, (transfer instr state).regs cell = some record ∧
      ∀ value, record.value = .const value → Moves instr state value := by
  have clobbered : (firstCell instr.operands).map Prod.fst = some cell →
      ∃ record, (state.clobberFirst instr.operands).regs cell = some record ∧
        record.value = .conflict := by
    intro own
    unfold BlockState.clobberFirst
    obtain ⟨⟨_, width⟩, first, rfl⟩ := Option.map_eq_some_iff.mp own
    rw [first]
    exact ⟨_, BlockState.insert_same _ _ _, rfl⟩
  have unknown : ∀ record : RegAbs, record.value = .conflict →
      ∀ value, record.value = .const value → Moves instr state value := by
    intro record conflict value same
    rw [conflict] at same
    cases same
  unfold Assigns at assigns
  unfold transfer
  cases kind : instr.kind with
  | store =>
    rw [kind] at assigns
    obtain ⟨⟨_, width⟩, first, rfl⟩ := Option.map_eq_some_iff.mp assigns
    refine ⟨⟨movedValue state instr.operands, width⟩, ?_, fun value same => ⟨kind, same⟩⟩
    rw [BlockState.adjustStack_regs, BlockState.moved, first]
    exact BlockState.insert_same _ _ _
  | load =>
    rw [kind] at assigns
    obtain ⟨record, set, conflict⟩ := clobbered assigns
    exact ⟨record, set, unknown record conflict⟩
  | binary =>
    rw [kind] at assigns
    obtain ⟨record, set, conflict⟩ := clobbered assigns
    exact ⟨record, set, unknown record conflict⟩
  | select =>
    rw [kind] at assigns
    obtain ⟨record, set, conflict⟩ := clobbered assigns
    exact ⟨record, set, unknown record conflict⟩
  | call =>
    rw [kind] at assigns
    have set : (state.clobberAll volatileGp).regs cell = some ⟨.conflict, .b64⟩ :=
      (BlockState.clobberAll_regs state volatileGp cell).trans (if_pos assigns)
    refine ⟨⟨.conflict, .b64⟩, ?_, unknown _ rfl⟩
    simp only
    split
    · exact set
    · exact set
  | unknown =>
    refine ⟨⟨.conflict, .b64⟩, ?_, unknown _ rfl⟩
    exact (BlockState.clobberAll_regs state allGp cell).trans (if_pos (mem_allGp cell))
  | compare => simp [kind] at assigns
  | branch => simp [kind] at assigns
  | ret => simp [kind] at assigns
  | nop => simp [kind] at assigns

/-- Where a moved constant comes from. -/
theorem Moves.source {instr : LoweredInstr} {state : BlockState} {value : Int64}
    (moves : Moves instr state value) :
    (instr.operands[1]? : Option Operand) = some (.imm value) ∨
      ∃ register origin record, (instr.operands[1]? : Option Operand) = some (.reg register) ∧
        gpOf register = some origin ∧ state.regs origin = some record ∧
        record.value = .const value := by
  have moved := moves.2
  unfold movedValue at moved
  split at moved
  · rename_i immediate shape
    cases moved
    exact Or.inl shape
  · rename_i register shape
    split at moved
    · rename_i record found
      obtain ⟨origin, view, held⟩ := Option.bind_eq_some_iff.mp found
      exact Or.inr ⟨register, origin, record, shape, view, held, moved⟩
    · cases moved
  · cases moved

/-! ## Joins -/

/-- A constant joined from two values is both of them. -/
theorem AbsVal.join_const (one two : AbsVal) (value : Int64) (joined : one.join two = .const value) :
    one = .const value ∧ two = .const value := by
  cases one with
  | const first =>
    cases two with
    | const second =>
      by_cases same : first = second
      · have kept : AbsVal.join (.const first) (.const second) = .const first := if_pos same
        rw [kept] at joined
        exact ⟨joined, same ▸ joined⟩
      · have apart : AbsVal.join (.const first) (.const second) = .conflict := if_neg same
        rw [apart] at joined
        cases joined
    | _ => cases joined
  | _ => cases two <;> cases joined

/-- A constant in the join of two records is the value of each record there is, and
there is one. -/
theorem joinRegs_const (one two : Option RegAbs) (value : Int64) (width : Width)
    (joined : joinRegs one two = some ⟨.const value, width⟩) :
    (∀ record, one = some record ∨ two = some record → record.value = .const value) ∧
      (one ≠ none ∨ two ≠ none) := by
  cases one with
  | none =>
    cases two with
    | none => cases joined
    | some second =>
      cases joined
      simp
  | some first =>
    cases two with
    | none =>
      cases joined
      simp
    | some second =>
      have values : first.value.join second.value = .const value :=
        congrArg RegAbs.value (Option.some.inj joined)
      obtain ⟨left, right⟩ := AbsVal.join_const _ _ _ values
      refine ⟨?_, by simp⟩
      rintro record (same | same)
      · cases same
        exact left
      · cases same
        exact right

/-- What the join of some states keeps of a register. -/
theorem joinAll_regs (states : List BlockState) (cell : Gp) :
    (joinAll states).regs cell = (states.map (fun state => state.regs cell)).foldl joinRegs none := by
  cases states with
  | nil => rfl
  | cons first rest =>
    have general : ∀ state : BlockState, (rest.foldl BlockState.join state).regs cell =
        (rest.map (fun state => state.regs cell)).foldl joinRegs (state.regs cell) := by
      induction rest with
      | nil => intro state; rfl
      | cons second rest inductionHypothesis =>
        intro state
        exact inductionHypothesis (state.join second)
    exact general first

/-- Records of a joined list. -/
theorem foldl_joinRegs (records : List (Option RegAbs)) (start : Option RegAbs) :
    (records.foldl joinRegs start = none ↔ start = none ∧ ∀ record ∈ records, record = none) ∧
      ∀ value width, records.foldl joinRegs start = some ⟨.const value, width⟩ →
        ∀ record, start = some record ∨ some record ∈ records → record.value = .const value := by
  induction records generalizing start with
  | nil =>
    refine ⟨by simp, ?_⟩
    intro value width same record held
    rcases held with own | absurd
    · rw [List.foldl_nil, own] at same
      cases same
      rfl
    · cases absurd
  | cons first records inductionHypothesis =>
    obtain ⟨absent, constant⟩ := inductionHypothesis (joinRegs start first)
    rw [List.foldl_cons]
    have empty : joinRegs start first = none ↔ start = none ∧ first = none := by
      cases start <;> cases first <;> simp [joinRegs]
    refine ⟨?_, ?_⟩
    · rw [absent, empty]
      simp [and_assoc]
    · intro value width joinedAll record held
      have joined : ∀ joint, joinRegs start first = some joint → joint.value = .const value :=
        fun joint known => constant value width joinedAll joint (Or.inl known)
      have both : ∀ record, start = some record ∨ first = some record →
          record.value = .const value := by
        intro record known
        cases result : joinRegs start first with
        | none =>
          obtain ⟨left, right⟩ := empty.mp result
          rcases known with own | own
          · rw [left] at own
            cases own
          · rw [right] at own
            cases own
        | some joint =>
          have shape : joint = ⟨.const value, joint.width⟩ := by
            rw [← joined joint result]
          rw [shape] at result
          exact (joinRegs_const start first value joint.width result).1 record known
      rcases held with own | member
      · exact both record (Or.inl own)
      · rcases List.mem_cons.mp member with same | later
        · exact both record (Or.inr same.symm)
        · exact constant value width joinedAll record (Or.inr later)

theorem mem_predecessorOuts (blocks : List BlockRange) (out : Nat → BlockState) (index : Nat)
    (state : BlockState) : state ∈ predecessorOuts blocks out index ↔
      ∃ (source : Nat) (block : BlockRange), blocks[source]? = some block ∧
        index ∈ block.successors ∧ out source = state := by
  unfold predecessorOuts
  constructor
  · intro member
    obtain ⟨⟨block, source⟩, inside, rfl⟩ := List.mem_map.mp member
    obtain ⟨indexed, leads⟩ := List.mem_filter.mp inside
    exact ⟨source, block, List.mem_zipIdx_iff_getElem?.mp indexed, List.contains_iff_mem.mp leads, rfl⟩
  · rintro ⟨source, block, found, leads, rfl⟩
    refine List.mem_map.mpr ⟨(block, source), List.mem_filter.mpr ⟨?_, ?_⟩, rfl⟩
    · exact List.mem_zipIdx_iff_getElem?.mpr found
    · exact List.contains_iff_mem.mpr leads

/-- A constant at the entry of a block is the record of every predecessor that has one,
and some predecessor has. -/
theorem entry_const (blocks : List BlockRange) (out : Nat → BlockState) (index : Nat) (cell : Gp)
    (value : Int64) (width : Width)
    (held : (joinAll (predecessorOuts blocks out index)).regs cell = some ⟨.const value, width⟩) :
    (∀ (source : Nat) (block : BlockRange) record, blocks[source]? = some block →
      index ∈ block.successors → (out source).regs cell = some record →
        record.value = .const value) ∧
      ∃ (source : Nat) (block : BlockRange) (record : RegAbs), blocks[source]? = some block ∧
        index ∈ block.successors ∧ (out source).regs cell = some record := by
  rw [joinAll_regs] at held
  obtain ⟨absent, constant⟩ :=
    foldl_joinRegs ((predecessorOuts blocks out index).map (fun state => state.regs cell)) none
  have listed : ∀ (source : Nat) (block : BlockRange), blocks[source]? = some block →
      index ∈ block.successors → (out source).regs cell ∈
        (predecessorOuts blocks out index).map (fun state => state.regs cell) := by
    intro source block found leads
    exact List.mem_map_of_mem
      ((mem_predecessorOuts blocks out index _).mpr ⟨source, block, found, leads, rfl⟩)
  constructor
  · intro source block record found leads own
    have member := listed source block found leads
    rw [own] at member
    exact constant value width held record (Or.inr member)
  · by_contra none
    have empty : (((predecessorOuts blocks out index).map
        (fun state => state.regs cell)).foldl joinRegs .none) = .none := by
      refine absent.mpr ⟨rfl, ?_⟩
      intro record member
      obtain ⟨state, inside, rfl⟩ := List.mem_map.mp member
      obtain ⟨source, block, found, leads, rfl⟩ :=
        (mem_predecessorOuts blocks out index state).mp inside
      cases own : (out source).regs cell with
      | none => rfl
      | some record => exact absurd ⟨source, block, record, found, leads, own⟩ none
    rw [empty] at held
    cases held

/-- The entry of a block has a record of a register when some predecessor has. -/
theorem entry_ne_none (blocks : List BlockRange) (out : Nat → BlockState) (index : Nat) (cell : Gp) :
    (joinAll (predecessorOuts blocks out index)).regs cell ≠ none ↔
      ∃ (source : Nat) (block : BlockRange), blocks[source]? = some block ∧
        index ∈ block.successors ∧ (out source).regs cell ≠ none := by
  rw [joinAll_regs, Ne, (foldl_joinRegs _ none).1]
  simp only [true_and, not_forall, List.mem_map, mem_predecessorOuts]
  constructor
  · rintro ⟨record, ⟨state, ⟨source, block, found, leads, rfl⟩, rfl⟩, some⟩
    exact ⟨source, block, found, leads, some⟩
  · rintro ⟨source, block, found, leads, some⟩
    exact ⟨_, ⟨_, ⟨source, block, found, leads, rfl⟩, rfl⟩, some⟩

/-! ## What the driver records -/

/-- The transfer function over one instruction more. -/
theorem transferAll_succ (instrs : List LoweredInstr) (count : Nat) (instr : LoweredInstr)
    (here : instrs[count]? = some instr) (state : BlockState) :
    transferAll (instrs.take (count + 1)) state =
      transfer instr (transferAll (instrs.take count) state) := by
  unfold transferAll
  rw [List.take_add_one, here, List.foldl_append]
  rfl

/-- The exit state of a block records only what the text says. -/
structure Justified (lowered : List LoweredInstr) (blocks : List BlockRange) (driver : Driver) :
    Prop where
  assigned : ∀ (index : Nat) (block : BlockRange) cell, blocks[index]? = some block →
    (driver.out index).regs cell ≠ none → Assigned lowered blocks cell index
  constant : ∀ (index : Nat) (block : BlockRange) cell value width, blocks[index]? = some block →
    (driver.out index).regs cell = some ⟨.const value, width⟩ →
      MayBeConst lowered blocks index (block.body lowered).length cell

/-- A record along a block says what the text says, when it does at the entry. -/
theorem records_along (lowered : List LoweredInstr) (blocks : List BlockRange) (index : Nat)
    (block : BlockRange) (found : blocks[index]? = some block) (inState : BlockState)
    (entry : ∀ cell value width, inState.regs cell = some ⟨.const value, width⟩ →
      MayBeConst lowered blocks index 0 cell)
    (count : Nat) (within : count ≤ (block.body lowered).length) (cell : Gp) (value : Int64)
    (width : Width)
    (held : (transferAll ((block.body lowered).take count) inState).regs cell =
      some ⟨.const value, width⟩) : MayBeConst lowered blocks index count cell := by
  induction count generalizing cell value width with
  | zero => exact entry cell value width held
  | succ count inductionHypothesis =>
    have here : (block.body lowered)[count]? = some (block.body lowered)[count] :=
      List.getElem?_eq_getElem (by omega)
    have earlier := inductionHypothesis (by omega)
    rw [transferAll_succ _ _ _ here] at held
    by_cases assigns : Assigns (block.body lowered)[count] cell
    · obtain ⟨record, set, only⟩ := transfer_assigned _
        (transferAll ((block.body lowered).take count) inState) cell assigns
      rw [set] at held
      have moves := only value (congrArg RegAbs.value (Option.some.inj held))
      rcases moves.source with immediate | ⟨register, origin, other, shape, view, own, same⟩
      · exact .immediate index count block _ cell value found here moves.1 assigns immediate
      · have known : other = ⟨.const value, other.width⟩ := by rw [← same]
        rw [known] at own
        exact .copied index count block _ cell origin register found here moves.1 assigns shape view
          (earlier origin value other.width own)
    · rw [transfer_kept _ _ _ assigns] at held
      exact .kept index count block _ cell found here assigns (earlier cell value width held)

/-- A register with a record along a block has one at its entry or is assigned. -/
theorem records_assigned (instrs : List LoweredInstr) (state : BlockState) (cell : Gp) :
    (transferAll instrs state).regs cell ≠ none ↔
      state.regs cell ≠ none ∨ ∃ instr ∈ instrs, Assigns instr cell := by
  induction instrs generalizing state with
  | nil => simp [transferAll]
  | cons instr instrs inductionHypothesis =>
    have first : (transfer instr state).regs cell ≠ none ↔
        state.regs cell ≠ none ∨ Assigns instr cell := by
      by_cases assigns : Assigns instr cell
      · obtain ⟨record, set, _⟩ := transfer_assigned instr state cell assigns
        simp [set, assigns]
      · rw [transfer_kept instr state cell assigns]
        simp [assigns]
    have step : transferAll (instr :: instrs) state = transferAll instrs (transfer instr state) := rfl
    rw [step, inductionHypothesis, first]
    simp only [List.mem_cons, exists_eq_or_imp, or_assoc]

/-- A visit records only what the text says. -/
theorem Justified.step {lowered : List LoweredInstr} {blocks : List BlockRange}
    {driver after : Driver} (sized : driver.Sized blocks) (justified : Justified lowered blocks driver)
    (step : DriverStep lowered blocks driver after) : Justified lowered blocks after := by
  obtain ⟨index, rest, _, _⟩ := step
  by_cases inside : index < blocks.length
  · have values := driver.visit_values lowered blocks index rest sized inside
    have outs : ∀ other, (driver.visit lowered blocks index rest).out other =
        if other = index then (processBlock lowered blocks driver.out index).2 else driver.out other := by
      intro other
      have atOther := congrArg Prod.snd (congrFun values other)
      unfold Worklist.visit at atOther
      by_cases same : other = index
      · subst same
        rw [Function.update_self] at atOther
        rw [if_pos rfl]
        exact atOther
      · rw [Function.update_of_ne same] at atOther
        rw [if_neg same]
        exact atOther
    have own : ∀ block, blocks[index]? = some block → (processBlock lowered blocks driver.out index).2 =
        transferAll (block.body lowered) (joinAll (predecessorOuts blocks driver.out index)) := by
      intro block found
      unfold processBlock
      rw [found]
    constructor
    · intro other block cell found some
      rw [outs] at some
      by_cases same : other = index
      · subst same
        rw [if_pos rfl, own block found, records_assigned] at some
        rcases some with entry | ⟨instr, member, assigns⟩
        · obtain ⟨source, before, there, leads, held⟩ :=
            (entry_ne_none blocks driver.out other cell).mp entry
          exact .before source other ⟨before, there, leads⟩
            (justified.assigned source before cell there held)
        · exact .own other block instr found member assigns
      · rw [if_neg same] at some
        exact justified.assigned other block cell found some
    · intro other block cell value width found held
      rw [outs] at held
      by_cases same : other = index
      · subst same
        rw [if_pos rfl, own block found] at held
        have entry : ∀ cell value width, (joinAll (predecessorOuts blocks driver.out other)).regs cell =
            some ⟨.const value, width⟩ → MayBeConst lowered blocks other 0 cell := by
          intro cell value width known
          obtain ⟨all, source, before, record, there, leads, kept⟩ :=
            entry_const blocks driver.out other cell value width known
          have constant : record = ⟨.const value, record.width⟩ := by
            rw [← all source before record there leads kept]
          rw [constant] at kept
          exact .entered source other before cell there leads
            (justified.constant source before cell value record.width there kept)
        apply records_along lowered blocks other block found _ entry _ le_rfl cell value width
        rw [List.take_length]
        exact held
      · rw [if_neg same] at held
        exact justified.constant other block cell value width found held
  · have same := driver.visit_outside lowered blocks index rest sized (Nat.le_of_not_lt inside)
    have outs : (driver.visit lowered blocks index rest).out = driver.out :=
      funext (fun other => congrArg Prod.snd (congrFun same other))
    exact ⟨fun other => by rw [outs]; exact justified.assigned other,
      fun other => by rw [outs]; exact justified.constant other⟩

/-- Every state of the driver records only what the text says. -/
theorem justified_of_reaches (lowered : List LoweredInstr) (blocks : List BlockRange)
    (driver : Driver)
    (reached : Reaches (DriverStep lowered blocks) (Driver.initial lowered blocks) driver) :
    driver.Sized blocks ∧ Justified lowered blocks driver := by
  have bottom : ∀ index, (Driver.initial lowered blocks).out index = .bottom := by
    intro index
    unfold Driver.out Driver.initial
    rw [List.getElem?_replicate]
    split <;> rfl
  apply reached.invariant (fun driver => driver.Sized blocks ∧ Justified lowered blocks driver)
  · refine ⟨(Driver.initial_settles lowered blocks).1, ?_, ?_⟩
    · intro index block cell _ some
      rw [bottom] at some
      exact absurd rfl some
    · intro index block cell value width _ held
      rw [bottom] at held
      cases held
  · rintro before after _ ⟨sized, justified⟩ step
    have stays := justified.step sized step
    obtain ⟨index, rest, _, _⟩ := step
    exact ⟨before.visit_sized lowered blocks index rest sized, stays⟩

/-- At a solution of the equations a register that the text assigns has a record. -/
theorem Assigned.recorded {lowered : List LoweredInstr} {blocks : List BlockRange} {cell : Gp}
    {index : Nat} (assigned : Assigned lowered blocks cell index) (entry out : Nat → BlockState)
    (solved : ∀ (index : Nat) (block : BlockRange), blocks[index]? = some block →
      entry index = joinAll (predecessorOuts blocks out index) ∧
        out index = transferAll (block.body lowered) (entry index))
    (inside : index < blocks.length) : (out index).regs cell ≠ none := by
  induction assigned with
  | own index block instr found member assigns =>
    rw [(solved index block found).2, records_assigned]
    exact Or.inr ⟨instr, member, assigns⟩
  | before source index flows _ inductionHypothesis =>
    obtain ⟨before, there, leads⟩ := flows
    have block := List.getElem?_eq_getElem inside
    rw [(solved index _ block).2, records_assigned, (solved index _ block).1]
    refine Or.inl ((entry_ne_none blocks out index cell).mpr ⟨source, before, there, leads, ?_⟩)
    exact inductionHypothesis (List.getElem?_eq_some_iff.mp there).1

end Semasm.X86.Analysis
