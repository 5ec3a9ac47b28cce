import Semasm.Cli.FactsTruth
import Semasm.X86.Addresses

/-!
# True facts stay true

One instruction that falls in none of the listed branches takes true facts to
true facts. A cell keeps its facts where the instruction leaves it alone, and the
facts of the destination are the ones the instruction makes true.
-/

namespace Semasm.Cli

open Contract Library X86

variable {entry : String → Word}

/-- A cell without facts is described truly. -/
theorem cellTrue_of_unknown (facts : Facts) (cell : Gp) (value : Word)
    (unknown : ¬ facts.Knows cell) : CellTrue entry facts cell value := by
  simp only [Facts.Knows, not_or, not_not] at unknown
  constructor
  · intro param known
    simp [unknown.1] at known
  · intro value known
    simp [unknown.2.1] at known
  · intro bound known
    simp [unknown.2.2] at known

/-- A pending comparison says nothing about the cells. -/
theorem cellTrue_settle (facts : Facts) (cell : Gp) (value : Word)
    (holds : CellTrue entry facts cell value) : CellTrue entry facts.settle cell value :=
  ⟨holds.affinity, holds.const, holds.upper⟩

/-- Replacing the facts of one cell by true ones. -/
theorem cellsTrue_withCell (facts : Facts) (written : Gp) (affinity : Option String)
    (const upper : Option UInt64) (regs : Gp → Word)
    (others : ∀ cell, cell ≠ written → CellTrue entry facts cell (regs cell))
    (affinityTrue : ∀ param, affinity = some param → regs written = entry param)
    (constTrue : ∀ known, const = some known → (regs written).toNat = known.toNat)
    (upperTrue : ∀ bound, upper = some bound → (regs written).toNat < bound.toNat) (cell : Gp) :
    CellTrue entry (facts.withCell written affinity const upper) cell (regs cell) := by
  by_cases same : cell = written
  · subst same
    constructor
    · simpa [Facts.withCell] using affinityTrue
    · simpa [Facts.withCell] using constTrue
    · simpa [Facts.withCell] using upperTrue
  · have old := others cell same
    constructor
    · simpa [Facts.withCell, Function.update_of_ne same] using old.affinity
    · simpa [Facts.withCell, Function.update_of_ne same] using old.const
    · simpa [Facts.withCell, Function.update_of_ne same] using old.upper

/-- Dropping the facts of one cell. -/
theorem cellsTrue_forget (facts : Facts) (written : Gp) (regs : Gp → Word)
    (others : ∀ cell, cell ≠ written → CellTrue entry facts cell (regs cell)) (cell : Gp) :
    CellTrue entry (facts.forget written) cell (regs cell) := by
  apply cellsTrue_withCell _ _ _ _ _ _ others
  · intro param known
    cases known
  · intro value known
    cases known
  · intro bound known
    cases known

/-- A destination that is a view of a cell is the first operand. -/
theorem firstCell_of_views (op : Op) (instr : LoweredInstr) (cell : Gp)
    (viewed : (op.destination instr.operands).any (Operand.views cell) = true) :
    firstCell instr = some cell := by
  have head : ∀ dst, op.destination instr.operands = some dst →
      ∃ rest, instr.operands = dst :: rest := by
    intro dst named
    cases shape : instr.operands with
    | nil =>
      rw [shape] at named
      cases op <;> cases named
    | cons first rest =>
      rw [shape] at named
      cases op <;> cases named <;> exact ⟨rest, rfl⟩
  cases named : op.destination instr.operands with
  | none => simp [named] at viewed
  | some dst =>
    obtain ⟨rest, shape⟩ := head dst named
    rw [named] at viewed
    cases dst with
    | reg register =>
      have storage : register.storage = .gp cell := by simpa [Operand.views] using viewed
      simp [firstCell, shape, storage]
    | mem operand => simp [Operand.views] at viewed
    | imm value => simp [Operand.views] at viewed

/-- The address of a stack slot. -/
theorem frameSlot_address (mem : MemOperand) (slot : FrameSlot) (env : Environment)
    (regs : Gp → Word) (address : Word) (named : frameSlot mem = some slot)
    (wide : mem.addressWidth = .b64) (known : mem.address env regs = some address) :
    address = slot.address regs ∧ mem.base.map Register.storage = some (.gp slot.cell) := by
  unfold frameSlot at named
  split at named
  next base plain based =>
    have width : base.width = .b64 := by rw [← mem.addressWidth_base base based, wide]
    split at named
    next storage =>
      cases named
      refine ⟨mem.address_base env regs base .rbp address based storage width plain known, ?_⟩
      simp [based, storage, FrameSlot.cell]
    next storage =>
      cases named
      refine ⟨mem.address_base env regs base .rsp address based storage width plain known, ?_⟩
      simp [based, storage, FrameSlot.cell]
    next => cases named
  next => cases named

/-- A view that covers its cell reads the low bits of a cell. -/
theorem value_wide (regs : Gp → Word) (register : Register) (cell : Gp) (value : Word)
    (storage : register.storage = .gp cell) (wide : Wide register)
    (known : register.value regs = some value) :
    (register.width = .b64 → value = regs cell) ∧ value.toNat ≤ (regs cell).toNat ∧
      ((regs cell).toNat < 2 ^ 32 → value = regs cell) := by
  rcases wide with width | width
  · rw [register.value_full regs cell storage width] at known
    cases known
    simp
  · rw [register.value_half regs cell storage width] at known
    cases known
    have low := Width.trunc_b32_toNat (regs cell)
    refine ⟨by simp [width], by omega, ?_⟩
    intro small
    apply BitVec.eq_of_toNat_eq
    omega

/-- A signed comparison of small numbers. -/
theorem signed_below (left right : Word) (small : left.toNat < 2 ^ 63)
    (bounded : right.toNat < 2 ^ 63)
    (fallen : Condition.ge.holds (subFlags .b64 left right) = false) :
    left.toNat < right.toNat := by
  have top : ∀ value : Word, value.getLsbD 63 = decide (2 ^ 63 ≤ value.toNat) := by
    intro value
    have msb := BitVec.msb_eq_decide value
    rwa [BitVec.msb_eq_getLsbD_last] at msb
  have difference := BitVec.toNat_sub left right
  have width := left.isLt
  by_contra above
  have leftSign : decide (2 ^ 63 ≤ left.toNat) = false := by simpa using small
  have rightSign : decide (2 ^ 63 ≤ right.toNat) = false := by simpa using bounded
  have resultSign : decide (2 ^ 63 ≤ (left - right).toNat) = false := by
    rw [decide_eq_false_iff_not]
    omega
  simp only [Condition.holds, subFlags, Width.signBit, Width.bits, Width.trunc, Nat.reduceSub, top,
    leftSign, rightSign, resultSign] at fallen
  exact absurd fallen (by decide)

section Step

variable (facts : Facts) (previous : Option LoweredInstr) (env : Environment) (state : State)
  (instr : LoweredInstr) (op : Op) (outcome : Outcome)
  (held : facts.Hold entry previous state)
  (judged : ¬ Misjudges facts previous env state instr op)
  (executed : op.exec env state instr.operands = some outcome)

include held judged executed

/-- The facts about a cell other than the destination stay true. -/
theorem cellTrue_of_unviewed (cell : Gp)
    (unviewed : ¬ (op.destination instr.operands).any (Operand.views cell) = true) :
    CellTrue entry facts cell ((outcome.result state).regs cell) := by
  by_cases changed : op.changes instr.operands cell
  · apply cellTrue_of_unknown
    intro known
    rcases changed with viewed | ⟨rfl, push | pop⟩ | call | ⟨syscall, among⟩
    · exact unviewed viewed
    · exact judged (.stackPointer (Or.inl push) known)
    · refine judged (.stackPointer (Or.inr ⟨pop, ?_⟩) known)
      intro first
      apply unviewed
      subst pop
      cases shape : instr.operands with
      | nil => simp [firstCell, shape] at first
      | cons dst rest =>
        cases dst with
        | reg register =>
          cases storage : register.storage with
          | gp held => simpa [firstCell, shape, storage, Op.destination, Operand.views] using first
          | rip => simp [firstCell, shape, storage] at first
          | rflags => simp [firstCell, shape, storage] at first
          | seg index => simp [firstCell, shape, storage] at first
          | xmm index => simp [firstCell, shape, storage] at first
        | mem operand => simp [firstCell, shape] at first
        | imm value => simp [firstCell, shape] at first
    · exact judged (.called call (Or.inl ⟨cell, known⟩))
    · exact judged (.kernel syscall (Or.inl ⟨cell, among, known⟩))
  · rw [op.exec_regs env state instr.operands outcome executed cell changed]
    exact held.cells cell

/-- The facts about a cell other than the first operand stay true. -/
theorem cellTrue_of_other (written : Gp) (first : firstCell instr = some written) (cell : Gp)
    (other : cell ≠ written) : CellTrue entry facts cell ((outcome.result state).regs cell) := by
  apply cellTrue_of_unviewed facts previous env state instr op outcome held judged executed
  intro viewed
  have same := firstCell_of_views op instr cell viewed
  rw [first] at same
  exact other (Option.some.inj same).symm

/-- An operation without a register destination keeps every fact true. -/
theorem cellsTrue_of_noCell (noCell : firstCell instr = none) (cell : Gp) :
    CellTrue entry facts cell ((outcome.result state).regs cell) := by
  apply cellTrue_of_unviewed facts previous env state instr op outcome held judged executed
  intro viewed
  simp [firstCell_of_views op instr cell viewed] at noCell

/-- A copy of a register into a register. -/
theorem cellTrue_of_copy (dst src : Register) (source written : Gp) (move : op = .move)
    (shape : instr.operands = [.reg dst, .reg src]) (storage : dst.storage = .gp written)
    (origin : src.storage = .gp source) (cell : Gp) :
    CellTrue entry
      (facts.settle.withCell written (facts.affinity source) (facts.consts source)
        (facts.uppers source)) cell ((outcome.result state).regs cell) := by
  subst move
  have ran : execMove env state [.reg dst, .reg src] = some outcome := by
    rw [← shape]
    exact executed
  obtain ⟨_, value, reads, _, same, _, read, result⟩ := exec_move_reg env state dst _ outcome ran
  cases same
  obtain ⟨seen, width, -⟩ := Operand.read_reg _ _ _ _ _ _ read
  have final : (outcome.result state).regs written = dst.merge (state.regs written) value := by
    rw [result]
    exact result_reg _ _ _ _ _ _ _ storage
  have old := held.cells source
  have view := fun wide : Wide dst =>
    value_wide state.regs src source value origin (by rw [Wide, width]; exact wide) seen
  apply cellsTrue_withCell
  · intro other different
    have first : firstCell instr = some written := by simp [firstCell, shape, storage]
    exact cellTrue_settle facts other _
      (cellTrue_of_other facts previous env state instr .move outcome held judged executed
        written first other different)
  · intro param known
    have wide : dst.width = .b64 := by
      by_contra narrow
      exact judged (.narrowPointer dst src [] source rfl shape origin (by simp [known]) narrow)
    rw [final, dst.merge_wide _ _ (Or.inl wide), wide, Width.trunc_b64,
      (view (Or.inl wide)).1 (by rw [width, wide])]
    exact old.affinity param known
  · intro constant known
    have equal := old.const constant known
    have kept : dst.width = .b64 ∨ (dst.width = .b32 ∧ constant.toNat < 2 ^ 32) := by
      by_contra narrow
      exact judged (.narrowConst dst src [] source constant rfl shape origin known narrow)
    have wide : Wide dst := kept.imp_right And.left
    rw [final, dst.merge_wide _ _ wide]
    rcases kept with full | ⟨half, small⟩
    · rw [full, Width.trunc_b64, (view wide).1 (by rw [width, full]), equal]
    · rw [half, Width.trunc_b32_toNat, (view wide).2.2 (by omega), equal, Nat.mod_eq_of_lt small]
  · intro bound known
    have below := old.upper bound known
    have wide : Wide dst := by
      by_contra narrow
      exact judged (.narrowBound dst src [] source rfl shape origin (by simp [known]) narrow)
    have low := (view wide).2.1
    rw [final, dst.merge_wide _ _ wide]
    rcases wide with full | half
    · rw [full, Width.trunc_b64]
      omega
    · rw [half, Width.trunc_b32_toNat]
      have smaller := Nat.mod_le value.toNat (2 ^ 32)
      omega

/-- An immediate moved into a register. -/
theorem cellTrue_of_immediate (dst : Register) (immediate : Int64) (written : Gp)
    (move : op = .move) (shape : instr.operands = [.reg dst, .imm immediate])
    (storage : dst.storage = .gp written) (cell : Gp) :
    CellTrue entry (facts.settle.withCell written none (Facts.unsignedImmediate immediate) none)
      cell ((outcome.result state).regs cell) := by
  subst move
  have ran : execMove env state [.reg dst, .imm immediate] = some outcome := by
    rw [← shape]
    exact executed
  obtain ⟨_, value, reads, _, same, _, read, result⟩ := exec_move_reg env state dst _ outcome ran
  cases same
  have final : (outcome.result state).regs written = dst.merge (state.regs written) value := by
    rw [result]
    exact result_reg _ _ _ _ _ _ _ storage
  simp only [Operand.read] at read
  split_ifs at read with encodable
  cases read
  apply cellsTrue_withCell
  · intro other different
    have first : firstCell instr = some written := by simp [firstCell, shape, storage]
    exact cellTrue_settle facts other _
      (cellTrue_of_other facts previous env state instr .move outcome held judged executed
        written first other different)
  · intro param known
    cases known
  · intro constant known
    obtain ⟨nonneg, word, number⟩ := unsignedImmediate_some immediate constant known
    have wide : Wide dst := by
      by_contra narrow
      refine judged (.narrowImmediate dst immediate [] rfl shape ?_ narrow)
      simpa [Int64.le_iff_toInt_le] using nonneg
    rw [final, dst.merge_wide _ _ wide]
    rcases wide with full | half
    · rw [full, Width.trunc_b64, Width.trunc_b64, word]
    · have small : immediate.toInt < 2 ^ 32 := by
        have upper := encodable.2
        rw [half] at upper
        exact upper
      rw [half, Width.trunc_b32_toNat, Width.trunc_b32_toNat, word]
      omega
  · intro bound known
    cases known

/-- A load into a register. -/
theorem cellTrue_of_reload (dst : Register) (mem : MemOperand) (written : Gp)
    (move : op = .move) (shape : instr.operands = [.reg dst, .mem mem])
    (storage : dst.storage = .gp written) (cell : Gp) :
    CellTrue entry
      (facts.settle.withCell written ((frameSlot mem).bind facts.stackSlots) none none)
      cell ((outcome.result state).regs cell) := by
  subst move
  have ran : execMove env state [.reg dst, .mem mem] = some outcome := by
    rw [← shape]
    exact executed
  obtain ⟨_, value, reads, _, same, _, read, result⟩ := exec_move_reg env state dst _ outcome ran
  cases same
  have final : (outcome.result state).regs written = dst.merge (state.regs written) value := by
    rw [result]
    exact result_reg _ _ _ _ _ _ _ storage
  obtain ⟨address, located, width, rfl, -⟩ := Operand.read_mem _ _ _ _ _ _ read
  apply cellsTrue_withCell
  · intro other different
    have first : firstCell instr = some written := by simp [firstCell, shape, storage]
    exact cellTrue_settle facts other _
      (cellTrue_of_other facts previous env state instr .move outcome held judged executed
        written first other different)
  · intro param known
    obtain ⟨slot, named, spilled⟩ := Option.bind_eq_some_iff.mp known
    have wide : dst.width = .b64 ∧ mem.addressWidth = .b64 := by
      by_contra narrow
      refine judged (.narrowReload dst mem [] slot rfl shape named (by simp [spilled]) ?_)
      rw [← not_and_or]
      exact narrow
    have place := (frameSlot_address mem slot env state.regs address named wide.2 located).1
    have count : Width.b64.bytes = 8 := rfl
    rw [final, dst.merge_wide _ _ (Or.inl wide.1), wide.1, Width.trunc_b64, load, count, place,
      held.slots slot param spilled, ByteMemory.decode_encode _ _ (entry param).isLt,
      BitVec.ofNat_toNat, BitVec.setWidth_eq]
  · intro constant known
    cases known
  · intro bound known
    cases known

/-- A move. -/
theorem cellTrue_of_move (move : op = .move) (cell : Gp) :
    CellTrue entry (facts.settle.moved instr.operands) cell ((outcome.result state).regs cell) := by
  have ran := executed
  rw [move] at ran
  obtain ⟨dst, src, width, value, reads, change, stores, shape, _, read, written, _⟩ :=
    exec_move env state instr.operands outcome ran
  cases dst with
  | reg dst =>
    obtain ⟨_, _, _, target, storage⟩ := Operand.write_reg _ _ _ _ _ _ _ written
    cases src with
    | reg src =>
      obtain ⟨seen, -, -⟩ := Operand.read_reg _ _ _ _ _ _ read
      cases origin : src.storage with
      | gp source =>
        have copied := cellTrue_of_copy facts previous env state instr op outcome held judged
          executed dst src source target move shape storage origin cell
        rw [shape]
        simp only [Facts.moved, storage, List.head?_cons, Facts.assigned, origin]
        exact copied
      | rip => simp [Register.value, origin] at seen
      | rflags => simp [Register.value, origin] at seen
      | seg index => simp [Register.value, origin] at seen
      | xmm index => simp [Register.value, origin] at seen
    | imm immediate =>
      have assigned := cellTrue_of_immediate facts previous env state instr op outcome held judged
        executed dst immediate target move shape storage cell
      rw [shape]
      simp only [Facts.moved, storage, List.head?_cons, Facts.assigned]
      exact assigned
    | mem mem =>
      have reloaded := cellTrue_of_reload facts previous env state instr op outcome held judged
        executed dst mem target move shape storage cell
      rw [shape]
      simp only [Facts.moved, storage, List.head?_cons, Facts.assigned]
      exact reloaded
  | mem mem =>
    have kept := cellsTrue_of_noCell facts previous env state instr op outcome held judged executed
      (by simp [firstCell, shape]) cell
    rw [shape]
    unfold Facts.moved
    cases src with
    | reg src =>
      dsimp only
      split
      · exact ⟨kept.affinity, kept.const, kept.upper⟩
      · exact cellTrue_settle facts cell _ kept
    | imm immediate => exact cellTrue_settle facts cell _ kept
    | mem other => exact cellTrue_settle facts cell _ kept
  | imm value => simp [Operand.write] at written

/-- An operation that drops the facts of its first operand. -/
theorem cellTrue_of_forget (written : Gp) (first : firstCell instr = some written) (cell : Gp) :
    CellTrue entry (facts.settle.forget written) cell ((outcome.result state).regs cell) := by
  apply cellsTrue_forget
  intro other different
  exact cellTrue_settle facts other _
    (cellTrue_of_other facts previous env state instr op outcome held judged executed written first
      other different)

/-- `lea`. -/
theorem cellTrue_of_lea (lea : op = .lea) (cell : Gp) :
    CellTrue entry (facts.settle.leaArm instr.operands) cell ((outcome.result state).regs cell) := by
  have ran : execLea env state instr.operands = some outcome := by
    rw [lea] at executed
    exact executed
  obtain ⟨dst, mem, address, written, shape, storage, located, result⟩ :=
    exec_lea env state instr.operands outcome ran
  have final : (outcome.result state).regs written =
      dst.merge (state.regs written) (dst.width.trunc address) := by
    rw [result]
    exact result_reg _ _ _ _ _ _ _ storage
  rw [shape]
  simp only [Facts.leaArm, storage, List.head?_cons]
  apply cellsTrue_withCell
  · intro other different
    have first : firstCell instr = some written := by simp [firstCell, shape, storage]
    exact cellTrue_settle facts other _
      (cellTrue_of_other facts previous env state instr op outcome held judged executed
        written first other different)
  · intro param known
    split at known
    next param offset classified =>
      cases known
      have affine : classifyAddr mem facts none = .affine param offset := classified
      obtain ⟨base, source, based, origin, plain, holds, rfl⟩ :=
        classifyAddr_affine mem facts none param offset affine
      have exact : mem.disp = 0 ∧ dst.width = .b64 ∧ mem.addressWidth = .b64 := by
        by_contra moved
        refine judged (.leaOffset dst mem [] param mem.disp lea shape affine ?_)
        simpa only [not_and_or] using moved
      have wide : base.width = .b64 := by rw [← mem.addressWidth_base base based, exact.2.2]
      have place := mem.address_base env state.regs base source address based origin wide plain located
      rw [final, dst.merge_wide _ _ (Or.inl exact.2.1), exact.2.1, Width.trunc_b64, Width.trunc_b64,
        place, exact.1]
      simpa using (held.cells source).affinity param holds
    next => cases known
  · intro constant known
    cases known
  · intro bound known
    cases known

/-- `xor`. -/
theorem cellTrue_of_xor (xor : op = .alu .xor) (cell : Gp) :
    CellTrue entry (facts.settle.xorArm instr.operands) cell ((outcome.result state).regs cell) := by
  have ran : execAlu env state .xor instr.operands = some outcome := by
    rw [xor] at executed
    exact executed
  obtain ⟨dst, src, width, old, loads, value, reads, change, stores, shape, _, left, right, written,
    result⟩ := exec_alu env state .xor instr.operands outcome ran
  cases dst with
  | reg dst =>
    obtain ⟨rfl, rfl, same, target, storage⟩ := Operand.write_reg _ _ _ _ _ _ _ written
    have first : firstCell instr = some target := by simp [firstCell, shape, storage]
    have forgotten := cellTrue_of_forget facts previous env state instr op outcome held judged
      executed target first cell
    rw [shape]
    cases src with
    | reg src =>
      obtain ⟨seen, fits, -⟩ := Operand.read_reg _ _ _ _ _ _ right
      cases origin : src.storage with
      | gp source =>
        simp only [Facts.xorArm, storage, origin]
        split_ifs with self
        · subst self
          apply cellsTrue_withCell
          · intro other different
            exact cellTrue_settle facts other _
              (cellTrue_of_other facts previous env state instr op outcome held judged executed
                target first other different)
          · intro param known
            cases known
          · intro constant known
            cases known
            have wide : Wide dst := by
              by_contra narrow
              exact judged (.narrowZero dst src [] target xor shape storage origin narrow)
            have equal : old = value := by
              have other := (Operand.read_reg _ _ _ _ _ _ left).1
              rcases wide with full | half
              · rw [dst.value_full _ target storage full] at other
                rw [src.value_full _ target origin (by rw [fits, ← same, full])] at seen
                exact Option.some.inj (other.symm.trans seen)
              · rw [dst.value_half _ target storage half] at other
                rw [src.value_half _ target origin (by rw [fits, ← same, half])] at seen
                exact Option.some.inj (other.symm.trans seen)
            rw [result, result_reg _ _ _ _ _ _ _ storage, dst.merge_wide _ _ wide, equal]
            rcases wide with full | half
            · simp [Alu.apply, ← same, full]
            · simp [Alu.apply, ← same, half, Width.trunc]
          · intro bound known
            cases known
        · exact forgotten
      | rip => simp [Register.value, origin] at seen
      | rflags => simp [Register.value, origin] at seen
      | seg index => simp [Register.value, origin] at seen
      | xmm index => simp [Register.value, origin] at seen
    | imm immediate =>
      simp only [Facts.xorArm, storage]
      exact forgotten
    | mem mem =>
      simp only [Facts.xorArm, storage]
      exact forgotten
  | mem mem =>
    rw [shape]
    exact cellTrue_settle facts cell _
      (cellsTrue_of_noCell facts previous env state instr op outcome held judged executed
        (by simp [firstCell, shape]) cell)
  | imm value => simp [Operand.write] at written

/-- An operation of the clearing arm. -/
theorem cellTrue_of_clear (cell : Gp) :
    CellTrue entry
      (match firstCell instr with
        | some written => facts.settle.forget written
        | none => facts.settle) cell ((outcome.result state).regs cell) := by
  cases first : firstCell instr with
  | some written =>
    exact cellTrue_of_forget facts previous env state instr op outcome held judged executed written
      first cell
  | none =>
    exact cellTrue_settle facts cell _
      (cellsTrue_of_noCell facts previous env state instr op outcome held judged executed first cell)

/-- An operation of the arithmetic arm. -/
theorem cellTrue_of_arithmetic (arm : armOf op = .arithmetic) (cell : Gp) :
    CellTrue entry
      (match firstCell instr with
        | some written => facts.settle.withCell written (facts.affinity written) none none
        | none => facts.settle) cell ((outcome.result state).regs cell) := by
  cases first : firstCell instr with
  | some written =>
    have unknown : facts.affinity written = none := by
      by_contra known
      exact judged (.arithmetic written arm first known)
    simp only [unknown]
    exact cellTrue_of_forget facts previous env state instr op outcome held judged executed written
      first cell
  | none =>
    exact cellTrue_settle facts cell _
      (cellsTrue_of_noCell facts previous env state instr op outcome held judged executed first cell)

/-- An operation that leaves the facts of every cell as they are. -/
theorem cellTrue_of_other_arm (arm : armOf op ≠ .move ∧ armOf op ≠ .lea ∧ armOf op ≠ .xor ∧
    armOf op ≠ .clear ∧ armOf op ≠ .arithmetic) (cell : Gp) :
    CellTrue entry facts cell ((outcome.result state).regs cell) := by
  by_cases viewed : (op.destination instr.operands).any (Operand.views cell) = true
  · apply cellTrue_of_unknown
    intro known
    have first := firstCell_of_views op instr cell viewed
    cases op with
    | select condition => exact judged (.conditional condition cell rfl first known)
    | alu operation => cases operation <;> simp [armOf] at arm
    | _ => simp [armOf, Op.destination] at arm viewed
  · exact cellTrue_of_unviewed facts previous env state instr op outcome held judged executed cell
      viewed

/-- A guard that falls through has bounded the compared register. -/
theorem cellTrue_of_guard (guard : armOf op = .guard) (through : outcome.next = .goOn)
    (cell : Gp) : CellTrue entry facts.guarded cell ((outcome.result state).regs cell) := by
  have kept := cellTrue_of_other_arm facts previous env state instr op outcome held judged executed
    (by simp [guard]) cell
  unfold Facts.guarded
  split
  next compared bound armed =>
    refine ⟨kept.affinity, kept.const, ?_⟩
    intro upper known
    by_cases same : cell = compared
    · subst same
      have named : bound = upper := by simpa using known
      subst named
      obtain ⟨earlier, register, value, seen, before, shape, storage, number, read, flags⟩ :=
        held.pending cell bound armed
      have wide : register.width = .b64 := by
        by_contra narrow
        exact judged (.narrowGuard cell bound earlier register _ guard armed before shape narrow)
      rw [register.value_full state.regs cell storage wide] at read
      cases read
      have bounded : (state.regs cell).toNat < bound.toNat := by
        obtain ⟨nonneg, word, cast⟩ := unsignedImmediate_some value bound number
        rw [wide, Width.trunc_b64] at flags
        have fallen : ∀ condition, op = .branch condition →
            condition.holds (subFlags .b64 (state.regs cell) (BitVec.ofInt 64 value.toInt)) =
              false := by
          intro condition branch
          rw [branch] at executed
          have result := (exec_branch state condition instr.operands outcome executed).2
          rw [result, flags] at through
          cases holds : condition.holds
              (subFlags .b64 (state.regs cell) (BitVec.ofInt 64 value.toInt)) with
          | true =>
            rw [if_pos holds] at through
            cases through
          | false => rfl
        rw [← word]
        rcases (op_of_arm op).2.2.2.2 guard with unsigned | signed
        · simpa [Condition.holds, subFlags, BitVec.lt_def] using fallen .ae unsigned
        · have positive : (state.regs cell).toNat < 2 ^ 63 := by
            by_contra negative
            exact judged (.signedGuard cell bound signed armed (by omega))
          apply signed_below _ _ positive _ (fallen .ge signed)
          rw [word]
          have small := Int64.toInt_lt value
          omega
      have unchanged : (outcome.result state).regs cell = state.regs cell := by
        apply op.exec_regs env state instr.operands outcome executed
        rcases (op_of_arm op).2.2.2.2 guard with rfl | rfl <;> simp [Op.changes, Op.destination]
      rw [unchanged]
      exact bounded
    · apply kept.upper
      simpa [Function.update_of_ne same] using known
  next => exact kept

/-- Every cell is described truly after the instruction. -/
theorem cells_preserved (known : instr.op = some op) (through : outcome.next = .goOn) (cell : Gp) :
    CellTrue entry (updateAffinity facts instr) cell ((outcome.result state).regs cell) := by
  have arm := arm_of_op instr op known
  unfold updateAffinity
  rw [arm]
  cases which : armOf op with
  | move =>
    have move := (op_of_arm op).1 which
    exact cellTrue_of_move facts previous env state instr op outcome held judged executed move cell
  | lea =>
    have lea := (op_of_arm op).2.1 which
    exact cellTrue_of_lea facts previous env state instr op outcome held judged executed lea cell
  | xor =>
    have xor := (op_of_arm op).2.2.1 which
    exact cellTrue_of_xor facts previous env state instr op outcome held judged executed xor cell
  | clear => exact cellTrue_of_clear facts previous env state instr op outcome held judged executed cell
  | arithmetic =>
    exact cellTrue_of_arithmetic facts previous env state instr op outcome held judged executed which
      cell
  | guard =>
    exact cellTrue_of_guard facts previous env state instr op outcome held judged executed which
      through cell
  | cmp =>
    have kept := cellTrue_of_other_arm facts previous env state instr op outcome held judged executed
      (by simp [which]) cell
    exact ⟨kept.affinity, kept.const, kept.upper⟩
  | branch =>
    exact cellTrue_settle facts cell _ (cellTrue_of_other_arm facts previous env state instr op
      outcome held judged executed (by simp [which]) cell)
  | other =>
    exact cellTrue_settle facts cell _ (cellTrue_of_other_arm facts previous env state instr op
      outcome held judged executed (by simp [which]) cell)

end Step

end Semasm.Cli
