import Semasm.Cli.MemoryEffects
import Semasm.X86.StraightLine

/-!
# When the collector's facts are true

The facts are claims about the machine: a register with an affinity holds the
entry value of its parameter, a slot with a parameter holds its eight bytes, and
so on. `Misjudges` lists the branches of the update after which such a claim need
not be true any more.
-/

namespace Semasm.Cli

open Contract Library X86

/-- The frame register of a slot. -/
def FrameSlot.cell : FrameSlot → Gp
  | .rbp _ => .rbp
  | .rsp _ => .rsp

/-- The displacement of a slot. -/
def FrameSlot.disp : FrameSlot → Int64
  | .rbp disp => disp
  | .rsp disp => disp

/-- Where a slot lies. -/
def FrameSlot.address (slot : FrameSlot) (regs : Gp → Word) : Word :=
  regs slot.cell + BitVec.ofInt 64 slot.disp.toInt

/-- The facts about a cell are true of a value. -/
structure CellTrue (entry : String → Word) (facts : Facts) (cell : Gp) (value : Word) : Prop where
  affinity : ∀ param, facts.affinity cell = some param → value = entry param
  const : ∀ known, facts.consts cell = some known → value.toNat = known.toNat
  upper : ∀ bound, facts.uppers cell = some bound → value.toNat < bound.toNat

/-- The fact about a slot is true. -/
def SlotTrue (entry : String → Word) (facts : Facts) (state : State) (slot : FrameSlot) : Prop :=
  ∀ param, facts.stackSlots slot = some param →
    ByteMemory.readBytes state.mem (slot.address state.regs) 8 =
      ByteMemory.encode 8 (entry param).toNat

/-- A pending comparison is the one made by the instruction before. -/
def PendingTrue (facts : Facts) (previous : Option LoweredInstr) (state : State) : Prop :=
  ∀ cell bound, facts.pendingCmp = some (cell, bound) →
    ∃ instr register value seen, previous = some instr ∧
      instr.operands = [.reg register, .imm value] ∧ register.storage = .gp cell ∧
      Facts.unsignedImmediate value = some bound ∧ register.value state.regs = some seen ∧
      state.flags = subFlags register.width seen
        (register.width.trunc (BitVec.ofInt 64 value.toInt))

/-- All facts are true of a state reached after the given instruction. -/
structure Facts.Hold (entry : String → Word) (facts : Facts) (previous : Option LoweredInstr)
    (state : State) : Prop where
  cells : ∀ cell, CellTrue entry facts cell (state.regs cell)
  slots : ∀ slot, SlotTrue entry facts state slot
  pending : PendingTrue facts previous state

/-- Something is recorded about the cell. -/
def Facts.Knows (facts : Facts) (cell : Gp) : Prop :=
  facts.affinity cell ≠ none ∨ facts.consts cell ≠ none ∨ facts.uppers cell ≠ none

/-- The slot to which an instruction spills a register. -/
def spilledSlot (op : Op) (operands : List Operand) : Option FrameSlot :=
  match op, operands with
  | .move, .mem mem :: .reg src :: _ =>
    match src.storage with
    | .gp _ => frameSlot mem
    | _ => none
  | _, _ => none

/-- A slot whose fact survives the instruction. -/
def Facts.Keeps (facts : Facts) (op : Op) (operands : List Operand) (slot : FrameSlot) : Prop :=
  facts.stackSlots slot ≠ none ∧ spilledSlot op operands ≠ some slot

/-- A view that covers its cell when it is written. -/
def Wide (register : Register) : Prop := register.width = .b64 ∨ register.width = .b32

instance (register : Register) : Decidable (Wide register) := inferInstanceAs (Decidable (_ ∨ _))

/-- The arm of the update for an operation. -/
def armOf : Op → UpdateArm
  | .move => .move
  | .lea => .lea
  | .alu .xor => .xor
  | .pop | .movzx | .alu .and | .alu .or => .clear
  | .inc | .dec | .alu .add | .alu .sub | .shl | .shr => .arithmetic
  | .cmp => .cmp
  | .branch .ae | .branch .ge => .guard
  | .jump | .branch _ => .branch
  | .push | .test | .call | .ret | .syscall | .select _ => .other

/-- The branches of the update that leave a wrong fact. -/
inductive Misjudges (facts : Facts) (previous : Option LoweredInstr) (env : Environment)
    (state : State) (instr : LoweredInstr) (op : Op) : Prop
  /-- A narrow copy of a register that holds a pointer keeps the pointer. -/
  | narrowPointer (dst src : Register) (rest : List Operand) (cell : Gp) (move : op = .move)
      (shape : instr.operands = .reg dst :: .reg src :: rest) (origin : src.storage = .gp cell)
      (known : facts.affinity cell ≠ none) (narrow : dst.width ≠ .b64)
  /-- A narrow copy of a register with a known value keeps the value. -/
  | narrowConst (dst src : Register) (rest : List Operand) (cell : Gp) (value : UInt64)
      (move : op = .move) (shape : instr.operands = .reg dst :: .reg src :: rest)
      (origin : src.storage = .gp cell) (known : facts.consts cell = some value)
      (narrow : ¬ (dst.width = .b64 ∨ (dst.width = .b32 ∧ value.toNat < 2 ^ 32)))
  /-- A copy of part of a bounded register keeps the bound. -/
  | narrowBound (dst src : Register) (rest : List Operand) (cell : Gp) (move : op = .move)
      (shape : instr.operands = .reg dst :: .reg src :: rest) (origin : src.storage = .gp cell)
      (known : facts.uppers cell ≠ none) (narrow : ¬ Wide dst)
  /-- An immediate moved into part of a register counts as the whole value. -/
  | narrowImmediate (dst : Register) (value : Int64) (rest : List Operand) (move : op = .move)
      (shape : instr.operands = .reg dst :: .imm value :: rest) (nonneg : 0 ≤ value)
      (narrow : ¬ Wide dst)
  /-- A narrow load from a slot that holds a pointer gives the pointer. -/
  | narrowReload (dst : Register) (mem : MemOperand) (rest : List Operand) (slot : FrameSlot)
      (move : op = .move) (shape : instr.operands = .reg dst :: .mem mem :: rest)
      (source : frameSlot mem = some slot) (known : facts.stackSlots slot ≠ none)
      (narrow : dst.width ≠ .b64 ∨ mem.addressWidth ≠ .b64)
  /-- A narrow spill of a register that holds a pointer spills the pointer. -/
  | narrowSpill (mem : MemOperand) (src : Register) (rest : List Operand) (slot : FrameSlot)
      (cell : Gp) (move : op = .move) (shape : instr.operands = .mem mem :: .reg src :: rest)
      (target : frameSlot mem = some slot) (origin : src.storage = .gp cell)
      (known : facts.affinity cell ≠ none)
      (narrow : src.width ≠ .b64 ∨ mem.addressWidth ≠ .b64)
  /-- `lea` drops the displacement, and the width. -/
  | leaOffset (dst : Register) (mem : MemOperand) (rest : List Operand) (param : String)
      (offset : Int64) (lea : op = .lea) (shape : instr.operands = .reg dst :: .mem mem :: rest)
      (affine : classifyAddr mem facts none = .affine param offset)
      (moved : offset ≠ 0 ∨ dst.width ≠ .b64 ∨ mem.addressWidth ≠ .b64)
  /-- `xor` of parts of one register counts as zeroing all of it. -/
  | narrowZero (dst src : Register) (rest : List Operand) (cell : Gp) (xor : op = .alu .xor)
      (shape : instr.operands = .reg dst :: .reg src :: rest) (target : dst.storage = .gp cell)
      (origin : src.storage = .gp cell) (narrow : ¬ Wide dst)
  /-- Arithmetic on a register that holds a pointer keeps the pointer. -/
  | arithmetic (cell : Gp) (arm : armOf op = .arithmetic) (target : firstCell instr = some cell)
      (known : facts.affinity cell ≠ none)
  /-- A conditional move keeps every fact about its destination. -/
  | conditional (condition : Condition) (cell : Gp) (select : op = .select condition)
      (target : firstCell instr = some cell) (known : facts.Knows cell)
  /-- A call keeps every fact. -/
  | called (call : op = .call)
      (known : (∃ cell, facts.Knows cell) ∨ ∃ slot, facts.stackSlots slot ≠ none)
  /-- A system call keeps the facts about the registers it changes, and about memory. -/
  | kernel (syscall : op = .syscall)
      (known : (∃ cell, (cell = .rax ∨ cell = .rcx ∨ cell = .r11) ∧ facts.Knows cell) ∨
        ∃ slot, facts.stackSlots slot ≠ none)
  /-- `push` and `pop` keep the facts about the stack pointer. -/
  | stackPointer (stack : op = .push ∨ (op = .pop ∧ firstCell instr ≠ some .rsp))
      (known : facts.Knows .rsp)
  /-- A change of a frame register keeps the slots that are addressed from it. -/
  | slotBase (slot : FrameSlot) (kept : facts.Keeps op instr.operands slot)
      (changed : op.changes instr.operands slot.cell)
  /-- A store over a slot, other than a spill to it, keeps the slot. -/
  | slotOverwritten (slot : FrameSlot) (outcome : Outcome) (address : Word)
      (kept : facts.Keeps op instr.operands slot)
      (executed : op.exec env state instr.operands = some outcome)
      (stored : op.storesTo state outcome address)
      (covered : ByteMemory.Within (slot.address state.regs) 8 address)
  /-- A comparison of part of a register bounds the whole register. -/
  | narrowGuard (cell : Gp) (bound : UInt64) (earlier : LoweredInstr) (register : Register)
      (rest : List Operand) (arm : armOf op = .guard)
      (armed : facts.pendingCmp = some (cell, bound)) (compared : previous = some earlier)
      (shape : earlier.operands = .reg register :: rest) (narrow : register.width ≠ .b64)
  /-- A signed guard bounds a register that may hold a negative number. -/
  | signedGuard (cell : Gp) (bound : UInt64) (signed : op = .branch .ge)
      (armed : facts.pendingCmp = some (cell, bound))
      (negative : 2 ^ 63 ≤ (state.regs cell).toNat)

/-- A nonnegative immediate as an unsigned number and as a word. -/
theorem toUInt64_of_nonneg (value : Int64) (nonneg : 0 ≤ value.toInt) :
    (value.toUInt64.toNat : Int) = value.toInt ∧
      (BitVec.ofInt 64 value.toInt).toNat = value.toUInt64.toNat := by
  have word : BitVec.ofInt 64 value.toInt = value.toBitVec := BitVec.ofInt_toInt
  have cast : value.toUInt64.toNat = value.toBitVec.toNat := rfl
  refine ⟨?_, by rw [word, cast]⟩
  have number : value.toInt = value.toBitVec.toInt := rfl
  rw [number, BitVec.toInt_eq_toNat_cond] at nonneg ⊢
  rw [cast]
  split_ifs at nonneg ⊢ <;> omega

/-- An immediate that the collector keeps. -/
theorem unsignedImmediate_some (value : Int64) (bound : UInt64)
    (known : Facts.unsignedImmediate value = some bound) :
    0 ≤ value.toInt ∧ (BitVec.ofInt 64 value.toInt).toNat = bound.toNat ∧
      (bound.toNat : Int) = value.toInt := by
  unfold Facts.unsignedImmediate at known
  split_ifs at known with nonneg
  cases known
  have signed : 0 ≤ value.toInt := by simpa [Int64.le_iff_toInt_le] using nonneg
  have numbers := toUInt64_of_nonneg value signed
  exact ⟨signed, numbers.2, numbers.1⟩

/-- An affine address names a base register with an affinity. -/
theorem classifyAddr_affine (mem : MemOperand) (facts : Facts) (bounded : Option Induction)
    (param : String) (offset : Int64) (classified : classifyAddr mem facts bounded = .affine param offset) :
    ∃ base cell, mem.base = some base ∧ base.storage = .gp cell ∧ mem.index = none ∧
      facts.affinity cell = some param ∧ offset = mem.disp := by
  unfold classifyAddr at classified
  split_ifs at classified
  cases based : mem.base with
  | none => simp [based] at classified
  | some base =>
    simp only [based] at classified
    split at classified
    next cell storage =>
      split at classified
      next => cases classified
      next known held =>
        split at classified
        next => cases classified
        next plain =>
          cases classified
          exact ⟨base, cell, rfl, storage, plain, held, rfl⟩
    next => cases classified

/-- An indexed address names a base register with an affinity, and an index with
its facts. -/
theorem classifyAddr_indexed (mem : MemOperand) (facts : Facts) (bounded : Option Induction)
    (param : String) (scale : UInt8) (disp : Int64) (const upper : Option UInt64)
    (classified : classifyAddr mem facts bounded = .indexed param scale disp const upper) :
    ∃ base cell index, mem.base = some base ∧ base.storage = .gp cell ∧
      mem.index = some index ∧ facts.affinity cell = some param ∧ scale = max mem.scale 1 ∧
      disp = mem.disp ∧ indexFacts facts bounded index = (const, upper) := by
  unfold classifyAddr at classified
  split_ifs at classified
  cases based : mem.base with
  | none => simp [based] at classified
  | some base =>
    simp only [based] at classified
    split at classified
    next cell storage =>
      split at classified
      next => cases classified
      next known held =>
        split at classified
        next index indexed =>
          cases classified
          exact ⟨base, cell, index, rfl, storage, indexed, held, rfl, rfl, rfl⟩
        next => cases classified
    next => cases classified

theorem arm_of_op (instr : LoweredInstr) (op : Op) (known : instr.op = some op) :
    updateArm (lowerMnemonic instr) = armOf op :=
  Op.ofMnemonic_forall (fun mnemonic op => updateArm mnemonic = armOf op) (by decide) _ _ known

/-- The operations of the arms that assign a fact. -/
theorem op_of_arm (op : Op) :
    (armOf op = .move → op = .move) ∧ (armOf op = .lea → op = .lea) ∧
      (armOf op = .xor → op = .alu .xor) ∧ (armOf op = .cmp → op = .cmp) ∧
      (armOf op = .guard → op = .branch .ae ∨ op = .branch .ge) := by
  cases op with
  | alu operation => cases operation <;> simp [armOf]
  | branch condition => cases condition <;> simp [armOf]
  | _ => simp [armOf]

end Semasm.Cli
