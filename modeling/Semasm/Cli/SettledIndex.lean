import Semasm.Cli.FactsTruth
import Semasm.Cli.PreTestLoop

/-!
# Index registers settled by the text

In straight-line code the text before a position may settle the value of a
register: it was cleared or set to an immediate through a view that covers it,
possibly decremented, and nothing else has changed it since. The recognisers of
loops read the same text less carefully. Where the index they name is settled,
the bound they attach is right.
-/

namespace Semasm.Cli

open Contract Decode Library X86

/-- The value that a change of the register leaves, from the value before. -/
def settledBy (op : Op) (operands : List Operand) (cell : Gp) (before : Option Word) : Option Word :=
  match op, operands with
  | .alu .xor, [.reg dst, .reg src] =>
    if dst.storage = .gp cell ∧ src.storage = .gp cell ∧ Wide dst then some 0 else none
  | .move, [.reg dst, .imm value] =>
    if dst.storage = .gp cell ∧ Wide dst ∧ 0 ≤ value.toInt ∧ Operand.fits dst.width value then
      some (BitVec.ofInt 64 value.toInt)
    else none
  | .dec, [.reg dst] =>
    if dst.storage = .gp cell ∧ Wide dst then
      before.map (fun value => dst.width.trunc (dst.width.trunc value - 1))
    else none
  | _, _ => none

/-- The value of a register that the instructions run so far settle, latest
instruction first. -/
def settled (cell : Gp) : List LoweredInstr → Option Word
  | [] => none
  | instr :: earlier =>
    match instr.op with
    | some op =>
      if op.changes instr.operands cell then
        settledBy op instr.operands cell (settled cell earlier)
      else settled cell earlier
    | none => none

/-- Truncation of a value below the width. -/
theorem trunc_of_lt (value : Word) (small : value.toNat < 2 ^ 32) :
    Width.b32.trunc value = value := by
  apply BitVec.eq_of_toNat_eq
  rw [Width.trunc_b32_toNat, Nat.mod_eq_of_lt small]

/-- A covering view of a register after truncation. -/
theorem value_trunc (regs : Gp → Word) (register : Register) (cell : Gp)
    (storage : register.storage = .gp cell) (wide : Wide register) :
    register.value regs = some (register.width.trunc (regs cell)) := by
  rcases wide with full | half
  · rw [register.value_full regs cell storage full, full, Width.trunc_b64]
  · rw [register.value_half regs cell storage half, half]

/-- The three changes that settle a register. -/
theorem settledBy_some (op : Op) (operands : List Operand) (cell : Gp) (before : Option Word)
    (value : Word) (settles : settledBy op operands cell before = some value) :
    (op = .alu .xor ∧ value = 0 ∧ ∃ dst src, operands = [.reg dst, .reg src] ∧
        dst.storage = .gp cell ∧ src.storage = .gp cell ∧ Wide dst) ∨
      (op = .move ∧ ∃ dst immediate, operands = [.reg dst, .imm immediate] ∧
        dst.storage = .gp cell ∧ Wide dst ∧ 0 ≤ immediate.toInt ∧
        Operand.fits dst.width immediate ∧ value = BitVec.ofInt 64 immediate.toInt) ∨
      (op = .dec ∧ ∃ dst known, operands = [.reg dst] ∧ dst.storage = .gp cell ∧ Wide dst ∧
        before = some known ∧ value = dst.width.trunc (dst.width.trunc known - 1)) := by
  unfold settledBy at settles
  split at settles
  next dst src =>
    split_ifs at settles with covers
    cases settles
    exact Or.inl ⟨rfl, rfl, dst, src, rfl, covers⟩
  next dst immediate =>
    split_ifs at settles with covers
    cases settles
    obtain ⟨target, wide, nonneg, encodable⟩ := covers
    exact Or.inr (Or.inl ⟨rfl, dst, immediate, rfl, target, wide, nonneg, encodable, rfl⟩)
  next dst =>
    split_ifs at settles with covers
    obtain ⟨known, held, rfl⟩ := Option.map_eq_some_iff.mp settles
    exact Or.inr (Or.inr ⟨rfl, dst, known, rfl, covers.1, covers.2, held, rfl⟩)
  next => cases settles

/-- A settled change leaves the settled value. -/
theorem settledBy_sound (env : Environment) (state : State) (op : Op) (operands : List Operand)
    (outcome : Outcome) (cell : Gp) (before : Option Word) (value : Word)
    (executed : op.exec env state operands = some outcome)
    (earlier : ∀ known, before = some known → state.regs cell = known)
    (settles : settledBy op operands cell before = some value) :
    (outcome.result state).regs cell = value := by
  rcases settledBy_some op operands cell before value settles with
    ⟨rfl, rfl, dst, src, rfl, target, origin, wide⟩ |
    ⟨rfl, dst, immediate, rfl, target, wide, nonneg, encodable, rfl⟩ |
    ⟨rfl, dst, known, rfl, target, wide, held, rfl⟩
  · simp only [Op.exec] at executed
    obtain ⟨_, _, width, old, loads, seen, reads, change, stores, shape, _, left, right, written,
      result⟩ := exec_alu env state .xor _ outcome executed
    cases shape
    obtain ⟨rfl, _, same, _, _⟩ := Operand.write_reg _ _ _ _ _ _ _ written
    obtain ⟨leftSeen, _, _⟩ := Operand.read_reg _ _ _ _ _ _ left
    obtain ⟨rightSeen, rightWidth, _⟩ := Operand.read_reg _ _ _ _ _ _ right
    have srcWide : Wide src := by rwa [Wide, rightWidth, ← same]
    rw [value_trunc _ _ cell target wide] at leftSeen
    rw [value_trunc _ _ cell origin srcWide, rightWidth, ← same] at rightSeen
    cases leftSeen
    cases rightSeen
    rw [result, result_reg _ _ _ _ _ _ _ target, dst.merge_wide _ _ wide]
    rcases wide with full | half
    · simp [Alu.apply, ← same, full]
    · simp [Alu.apply, ← same, half, Width.trunc]
  · simp only [Op.exec] at executed
    obtain ⟨_, seen, reads, _, same, _, read, result⟩ := exec_move_reg env state dst _ outcome executed
    cases same
    simp only [Operand.read, encodable, if_true] at read
    cases read
    rw [result, result_reg _ _ _ _ _ _ _ target, dst.merge_wide _ _ wide]
    rcases wide with full | half
    · simp only [full, Width.trunc_b64]
    · have small : (BitVec.ofInt 64 immediate.toInt).toNat < 2 ^ 32 := by
        have upper := encodable.2
        rw [half] at upper
        have bound : immediate.toInt < 2 ^ 32 := upper
        rw [BitVec.toNat_ofInt]
        omega
      rw [half, trunc_of_lt _ small, trunc_of_lt _ small]
  · simp only [Op.exec] at executed
    obtain ⟨_, width, old, loads, change, stores, shape, _, read, written, result⟩ :=
      exec_dec env state _ outcome executed
    cases shape
    obtain ⟨rfl, _, same, _, _⟩ := Operand.write_reg _ _ _ _ _ _ _ written
    obtain ⟨seen, _, _⟩ := Operand.read_reg _ _ _ _ _ _ read
    rw [value_trunc _ _ cell target wide, earlier known held] at seen
    cases seen
    rw [result, result_reg _ _ _ _ _ _ _ target, dst.merge_wide _ _ wide, ← same]
    rcases wide with full | half
    · simp only [full, Width.trunc_b64]
    · rw [half]
      apply trunc_of_lt
      rw [Width.trunc_b32_toNat]
      exact Nat.mod_lt _ (by decide)

/-- One instruction keeps the settled value right. -/
theorem settled_step (cell : Gp) (earlier : List LoweredInstr) (env : Environment) (state : State)
    (instr : LoweredInstr) (outcome : Outcome) (executed : exec env instr state = some outcome)
    (before : ∀ known, settled cell earlier = some known → state.regs cell = known)
    (value : Word) (settles : settled cell (instr :: earlier) = some value) :
    (outcome.result state).regs cell = value := by
  obtain ⟨op, known, ran⟩ := op_of_exec env instr state outcome executed
  rw [settled, known] at settles
  simp only at settles
  split_ifs at settles with changed
  · exact settledBy_sound env state op instr.operands outcome cell _ value ran before settles
  · rw [op.exec_regs env state instr.operands outcome ran cell changed]
    exact before value settles

/-- A change that settles nothing, or one of the three. -/
theorem settled_cons (cell : Gp) (instr : LoweredInstr) (earlier : List LoweredInstr) (value : Word)
    (settles : settled cell (instr :: earlier) = some value) :
    ∃ op, instr.op = some op ∧
      ((¬ op.changes instr.operands cell ∧ settled cell earlier = some value) ∨
        (op.changes instr.operands cell ∧
          settledBy op instr.operands cell (settled cell earlier) = some value)) := by
  cases known : instr.op with
  | none => simp [settled, known] at settles
  | some op =>
    rw [settled, known] at settles
    simp only at settles
    split_ifs at settles with changed
    · exact ⟨op, rfl, Or.inr ⟨changed, settles⟩⟩
    · exact ⟨op, rfl, Or.inl ⟨changed, settles⟩⟩

/-- The mnemonics of the operations that settle a register. -/
theorem mnemonic_of_op (instr : LoweredInstr) (op : Op) (known : instr.op = some op) :
    (op = .alu .xor ↔ lowerMnemonic instr = "xor") ∧
      (op = .move ↔ lowerMnemonic instr = "mov" ∨ lowerMnemonic instr = "movabs") ∧
      (op = .dec ↔ lowerMnemonic instr = "dec") :=
  Op.ofMnemonic_forall (fun mnemonic op => (op = .alu .xor ↔ mnemonic = "xor") ∧
    (op = .move ↔ mnemonic = "mov" ∨ mnemonic = "movabs") ∧ (op = .dec ↔ mnemonic = "dec"))
    (by decide) _ _ known

/-- An instruction that zeroes the register by the text changes it. -/
theorem changes_of_zeroVerdict (cell : Gp) (instr : LoweredInstr) (op : Op)
    (known : instr.op = some op) (zeroes : zeroVerdict cell instr = some true) :
    op.changes instr.operands cell := by
  have names := mnemonic_of_op instr op known
  left
  simp only [zeroVerdict] at zeroes
  split_ifs at zeroes with isXor isMove
  · rw [names.1.mpr isXor]
    split at zeroes
    next dst src rest shape =>
      split at zeroes
      next target origin storage _ =>
        split_ifs at zeroes with same
        · simp [Op.destination, shape, Operand.views, storage, same.1]
        · cases zeroes
      next => cases zeroes
    next => cases zeroes
  · rw [names.2.1.mpr isMove]
    split at zeroes
    next dst rest shape =>
      split_ifs at zeroes with target
      simp [Op.destination, shape, Operand.views, target]
    next => cases zeroes
  · cases zeroes

/-- An index that the search takes for zeroed is zero where it is settled. -/
theorem zero_of_settled (cell : Gp) (earlier : List LoweredInstr) (value : Word)
    (zeroed : zeroInitialized cell earlier = true)
    (settles : settled cell earlier = some value) : value = 0 := by
  induction earlier with
  | nil => cases settles
  | cons instr earlier inductionHypothesis =>
    rw [zeroInitialized] at zeroed
    obtain ⟨op, known, ⟨unchanged, kept⟩ | ⟨_, changed⟩⟩ :=
      settled_cons cell instr earlier value settles
    · cases verdict : zeroVerdict cell instr with
      | none =>
        rw [verdict] at zeroed
        exact inductionHypothesis zeroed kept
      | some zero =>
        rw [verdict] at zeroed
        have zeroes : zero = true := zeroed
        rw [zeroes] at verdict
        exact absurd (changes_of_zeroVerdict cell instr op known verdict) unchanged
    · have names := mnemonic_of_op instr op known
      rcases settledBy_some op instr.operands cell _ value changed with
        ⟨_, zero, _⟩ | ⟨move, dst, immediate, shape, target, _, _, _, rfl⟩ |
        ⟨dec, dst, before, shape, target, _⟩
      · exact zero
      · have mnemonic := names.2.1.mp move
        have notXor : lowerMnemonic instr ≠ "xor" := by
          rcases mnemonic with name | name <;> simp [name]
        have verdict : zeroVerdict cell instr = some (immediate == 0) := by
          simp [zeroVerdict, notXor, mnemonic, shape, target]
        rw [verdict] at zeroed
        have zero : immediate = 0 := by simpa using zeroed
        subst zero
        rfl
      · have mnemonic := names.2.2.mp dec
        have first : firstCell instr = some cell := by simp [firstCell, shape, target]
        have verdict : zeroVerdict cell instr = some false := by
          simp [zeroVerdict, mnemonic, indexChangingMnemonics, first]
        rw [verdict] at zeroed
        cases zeroed

/-- A compared bound is positive. -/
theorem comparedBound_pos (instr : LoweredInstr) (cell : Gp) (bound : Int64)
    (compared : comparedBound instr = some (cell, bound)) : 0 < bound.toInt := by
  unfold comparedBound at compared
  split at compared
  next register value rest shape =>
    split at compared
    next held storage =>
      split_ifs at compared with positive
      cases compared
      simpa [Int64.lt_iff_toInt_lt] using positive
    next => cases compared
  next => cases compared

/-- A bound that the search for a post-test loop finds is positive. -/
theorem postTestBound_pos (cell : Gp) (sawInc : Bool) (rest : List LoweredInstr) (bound : UInt64)
    (found : postTestBound cell sawInc rest = some bound) : 0 < bound.toNat := by
  induction rest generalizing sawInc with
  | nil => cases found
  | cons instr rest inductionHypothesis =>
    rw [postTestBound] at found
    split_ifs at found <;> try exact inductionHypothesis _ found
    split at found
    next compared limit parsed =>
      split_ifs at found
      split at found
      next next following =>
        split_ifs at found
        cases found
        have positive := comparedBound_pos instr compared limit parsed
        have number := (toUInt64_of_nonneg limit (by omega)).1
        omega
      next => cases found
    next => cases found

/-- A change that settles a register is a write by the recognisers' own test. -/
theorem writesGp_of_settledBy (cell : Gp) (instr : LoweredInstr) (op : Op) (before : Option Word)
    (value : Word) (known : instr.op = some op)
    (changed : settledBy op instr.operands cell before = some value) :
    writesGp instr cell = true := by
  have names := mnemonic_of_op instr op known
  have writes : writingMnemonics.contains (lowerMnemonic instr) = true ∧
      firstCell instr = some cell := by
    rcases settledBy_some op instr.operands cell before value changed with
      ⟨xor, _, dst, src, shape, target, _⟩ | ⟨move, dst, immediate, shape, target, _⟩ |
      ⟨dec, dst, seen, shape, target, _⟩
    · exact ⟨by rw [names.1.mp xor]; decide, by simp [firstCell, shape, target]⟩
    · rcases names.2.1.mp move with name | name
      · exact ⟨by rw [name]; decide, by simp [firstCell, shape, target]⟩
      · exact ⟨by rw [name]; decide, by simp [firstCell, shape, target]⟩
    · exact ⟨by rw [names.2.2.mp dec]; decide, by simp [firstCell, shape, target]⟩
  simp only [writesGp, writes.1, writes.2, Bool.true_and, beq_self_eq_true]

/-- A move or decrement with a view of the register as its first operand changes
it. -/
theorem changes_of_firstCell (cell : Gp) (instr : LoweredInstr) (op : Op)
    (simple : op = .move ∨ op = .dec) (first : firstCell instr = some cell) :
    op.changes instr.operands cell := by
  left
  unfold firstCell at first
  split at first
  next register rest shape =>
    split at first
    next held storage =>
      cases first
      rcases simple with rfl | rfl <;> simp [Op.destination, shape, Operand.views, storage]
    next => cases first
  next => cases first

/-- The count that the search finds before a decrement is the value of the
register where it is settled. -/
theorem initial_of_settled (cell : Gp) (earlier : List LoweredInstr) (value : Word) (count : UInt64)
    (initial : initialCount cell earlier = some count)
    (settles : settled cell earlier = some value) :
    0 < count.toNat ∧ value.toNat = count.toNat := by
  induction earlier with
  | nil => cases settles
  | cons instr earlier inductionHypothesis =>
    rw [initialCount] at initial
    obtain ⟨op, known, ⟨unchanged, kept⟩ | ⟨changes, changed⟩⟩ :=
      settled_cons cell instr earlier value settles
    · have unassigned : lowerMnemonic instr = "mov" ∨ lowerMnemonic instr = "movabs" →
          assignedImmediate instr cell = none := by
        intro isMove
        unfold assignedImmediate
        rw [if_neg]
        intro first
        apply unchanged
        have move := (mnemonic_of_op instr op known).2.1.mpr isMove
        exact changes_of_firstCell cell instr op (Or.inl move) first
      by_cases isMove : lowerMnemonic instr = "mov" ∨ lowerMnemonic instr = "movabs"
      · simp only [isMove, unassigned isMove, if_true] at initial
        split_ifs at initial
        exact inductionHypothesis initial kept
      · simp only [isMove, if_false] at initial
        split_ifs at initial
        exact inductionHypothesis initial kept
    · have writes := writesGp_of_settledBy cell instr op _ value known changed
      simp only [writes, if_true] at initial
      split_ifs at initial with isMove
      cases assigned : assignedImmediate instr cell with
      | none => simp [assigned] at initial
      | some immediate =>
        simp only [assigned] at initial
        split_ifs at initial with positive
        cases initial
        have move := (mnemonic_of_op instr op known).2.1.mpr isMove
        rcases settledBy_some op instr.operands cell _ value changed with
          ⟨xor, _⟩ | ⟨_, dst, settledImmediate, shape, target, _, nonneg, _, rfl⟩ | ⟨dec, _⟩
        · simp [move] at xor
        · have same : settledImmediate = immediate := by
            simpa [assignedImmediate, firstCell, shape, target] using assigned
          rw [same] at nonneg ⊢
          obtain ⟨number, word⟩ := toUInt64_of_nonneg immediate nonneg
          have above : 0 < immediate.toInt := by simpa [Int64.lt_iff_toInt_lt] using positive
          exact ⟨by omega, word⟩
        · simp [move] at dec

/-- A register settled after a decrement lies below the count before it. -/
theorem countdown_of_settled (cell : Gp) (distance : Nat) (reversed earlier : List LoweredInstr)
    (value : Word) (count : UInt64)
    (decremented : decrementBefore cell distance reversed = some earlier)
    (initial : initialCount cell earlier = some count)
    (settles : settled cell reversed = some value) : value.toNat < count.toNat := by
  induction reversed generalizing distance with
  | nil => cases settles
  | cons instr rest inductionHypothesis =>
    rw [decrementBefore] at decremented
    obtain ⟨op, known, ⟨unchanged, kept⟩ | ⟨changes, changed⟩⟩ :=
      settled_cons cell instr rest value settles
    · split_ifs at decremented with isDec
      · exfalso
        apply unchanged
        have dec := (mnemonic_of_op instr op known).2.2.mpr isDec.1
        exact changes_of_firstCell cell instr op (Or.inr dec) isDec.2
      · exact inductionHypothesis _ decremented kept
    · have writes := writesGp_of_settledBy cell instr op _ value known changed
      simp only [writes, if_true] at decremented
      split_ifs at decremented with isDec
      cases decremented
      have dec := (mnemonic_of_op instr op known).2.2.mpr isDec.1
      rcases settledBy_some op instr.operands cell _ value changed with
        ⟨xor, _⟩ | ⟨move, _⟩ | ⟨_, dst, before, shape, target, wide, held, rfl⟩
      · simp [dec] at xor
      · simp [dec] at move
      · obtain ⟨positive, equal⟩ := initial_of_settled cell earlier before count initial held
        rcases wide with full | half
        · rw [full, Width.trunc_b64, Width.trunc_b64, BitVec.toNat_sub]
          have one : (1 : Word).toNat = 1 := rfl
          have width := before.isLt
          omega
        · rw [half, Width.trunc_b32_toNat, BitVec.toNat_sub, Width.trunc_b32_toNat]
          have one : (1 : Word).toNat = 1 := rfl
          have width := before.isLt
          omega

/-- The last bound found was found at some operand. -/
theorem lastFound_some (find : Operand → Option Induction) (operands : List Operand)
    (value : Induction) (found : lastFound find operands = some value) :
    ∃ operand ∈ operands, find operand = some value := by
  have general : ∀ (rest : List Operand) (before : Option Induction),
      rest.foldl (fun found operand => (find operand).orElse (fun _ => found)) before = some value →
      before = some value ∨ ∃ operand ∈ rest, find operand = some value := by
    intro rest
    induction rest with
    | nil =>
      intro before same
      exact Or.inl same
    | cons operand rest inductionHypothesis =>
      intro before same
      rcases inductionHypothesis _ same with here | ⟨later, member, known⟩
      · cases own : find operand with
        | none =>
          simp only [own] at here
          exact Or.inl here
        | some seen =>
          simp only [own] at here
          exact Or.inr ⟨operand, by simp, by rw [own]; exact here⟩
      · exact Or.inr ⟨later, by simp [member], known⟩
  rcases general operands none found with impossible | known
  · cases impossible
  · exact known

/-- No jump has its target among the instructions. -/
def StraightLine (lowered : List LoweredInstr) (physical : List PhysicalInstruction) : Prop :=
  ∀ (position : Nat) instr jump, lowered[position]? = some instr → physical[position]? = some jump →
    (lowerMnemonic instr).toList.head? = some 'j' →
    branchTargetIndex jump (Cfg.addrToInstr physical) = none

/-- Without jumps inside no pre-test loop is confirmed. -/
theorem preTestLoop_straight (lowered : List LoweredInstr) (physical : List PhysicalInstruction)
    (straight : StraightLine lowered physical) (header : Nat) :
    preTestLoop lowered physical header = none := by
  cases loop : preTestLoop lowered physical header with
  | none => rfl
  | some found =>
    obtain ⟨shape⟩ := preTestLoop_some lowered physical header found.1 found.2 loop
    have jump : (lowerMnemonic shape.back).toList.head? = some 'j' := by
      rw [shape.isJump]
      decide
    have none := straight _ _ _ shape.atBack shape.atBackPhysical jump
    rw [shape.backTarget] at none
    cases none

theorem cfgPreTestInductions_straight (lowered : List LoweredInstr)
    (physical : List PhysicalInstruction) (straight : StraightLine lowered physical)
    (position : Nat) : cfgPreTestInductions lowered physical position = none := by
  unfold cfgPreTestInductions
  split_ifs
  · rfl
  · simp only [preTestLoop_straight lowered physical straight]
    generalize List.range (lowered.length - 2) = headers
    induction headers with
    | nil => rfl
    | cons header rest inductionHypothesis => exact inductionHypothesis

theorem cfgPostTestInduction_straight (lowered : List LoweredInstr)
    (physical : List PhysicalInstruction) (straight : StraightLine lowered physical)
    (position : Nat) : cfgPostTestInduction lowered physical position = none := by
  cases loop : cfgPostTestInduction lowered physical position with
  | none => rfl
  | some found =>
    unfold cfgPostTestInduction at loop
    split_ifs at loop
    obtain ⟨access, atAccess, loop⟩ := Option.bind_eq_some_iff.mp loop
    obtain ⟨gp, indexed, loop⟩ := Option.bind_eq_some_iff.mp loop
    split_ifs at loop
    obtain ⟨inc, atInc, loop⟩ := Option.bind_eq_some_iff.mp loop
    simp only at loop
    split_ifs at loop
    obtain ⟨branch, atBranch, loop⟩ := Option.bind_eq_some_iff.mp loop
    obtain ⟨cmp, atCmp, loop⟩ := Option.bind_eq_some_iff.mp loop
    split_ifs at loop
    obtain ⟨⟨cell, bound⟩, compared, loop⟩ := Option.bind_eq_some_iff.mp loop
    simp only at loop
    split_ifs at loop with mnemonic
    obtain ⟨branchPhysical, atPhysical, loop⟩ := Option.bind_eq_some_iff.mp loop
    split_ifs at loop with target
    have named : lowerMnemonic branch ∈ loopBranchMnemonics := by
      simpa using (not_or.mp mnemonic).2
    have jump : (lowerMnemonic branch).toList.head? = some 'j' := by
      have all : ∀ name ∈ loopBranchMnemonics, name.toList.head? = some 'j' := by decide
      exact all _ named
    have none := straight _ _ _ atBranch atPhysical jump
    rw [not_not.mp target] at none
    cases none

/-- In straight-line code a bound attached to a settled index holds.

Proof: only the two recognisers that read the text alone find anything. A
post-test bound is positive and its index zero; a countdown bound is the count
before the decrement. -/
theorem inductionAt_settled (lowered : List LoweredInstr) (physical : List PhysicalInstruction)
    (straight : StraightLine lowered physical) (position : Nat) (cell : Gp) (bound : UInt64)
    (value : Word) (attached : inductionAt lowered physical position = some (cell, bound))
    (settles : settled cell (lowered.take position).reverse = some value) :
    value.toNat < bound.toNat := by
  unfold inductionAt at attached
  rw [cfgPreTestInductions_straight lowered physical straight,
    cfgPostTestInduction_straight lowered physical straight] at attached
  cases post : postTestInduction lowered position with
  | some found =>
    rw [post] at attached
    cases attached
    unfold postTestInduction at post
    split at post
    next instr here =>
      obtain ⟨operand, _, known⟩ := lastFound_some _ _ _ post
      unfold postTestOperand at known
      split at known
      next mem =>
        split at known
        next gp indexed =>
          split_ifs at known with zeroed
          obtain ⟨limit, found, same⟩ := Option.map_eq_some_iff.mp known
          cases same
          have zero := zero_of_settled cell _ value zeroed settles
          have positive := postTestBound_pos cell false _ bound found
          simpa [zero] using positive
        next => cases known
      next => cases known
    next => cases post
  | none =>
    rw [post] at attached
    cases down : countdownInduction lowered position with
    | none =>
      rw [down] at attached
      cases attached
    | some found =>
      rw [down] at attached
      cases attached
      unfold countdownInduction at down
      split at down
      next instr here =>
        obtain ⟨operand, _, known⟩ := lastFound_some _ _ _ down
        unfold countdownOperand at known
        split at known
        next mem =>
          obtain ⟨gp, indexed, counted⟩ := Option.bind_eq_some_iff.mp known
          obtain ⟨limit, found, same⟩ := Option.map_eq_some_iff.mp counted
          cases same
          unfold countdownBound at found
          split at found
          next earlier decremented =>
            split_ifs at found
            exact countdown_of_settled cell 1 _ earlier value bound decremented found settles
          next => cases found
        next => cases known
      next => cases down

end Semasm.Cli
