import Semasm.Machine
import Semasm.Riscv.Lower
import Mathlib.Tactic.SplitIfs

/-!
# The RISC-V machine

The meaning of the lowered instructions over full registers: the width of an operation is
in its mnemonic. What a callee, the execution environment or an instruction outside the
subset does, and a result that depends on an operand lowering has dropped, come from the
environment. An instruction that cannot be encoded has no meaning.
-/

namespace Semasm.Riscv

open Library Contract Machine

/-- Registers and memory. -/
structure State where
  x : Gpr → Word
  mem : Word → BitVec 8

/-- The value of a register. -/
def State.cell (state : State) (cell : Gpr) : Word := if cell = .zero then 0 else state.x cell

/-- The state with a register overwritten. -/
def State.set (state : State) (cell : Gpr) (value : Word) : State :=
  if cell = .zero then state else { state with x := Function.update state.x cell value }

/-- Only the written register changes. -/
theorem State.cell_set_of_ne (state : State) (cell other : Gpr) (value : Word)
    (different : other ≠ cell) : (state.set cell value).cell other = state.cell other := by
  unfold State.set
  split_ifs
  · rfl
  · simp only [State.cell, Function.update_of_ne different]

/-- A written register holds the value, except register `zero`. -/
theorem State.cell_set_self (state : State) (cell : Gpr) (value : Word) (writable : cell ≠ .zero) :
    (state.set cell value).cell cell = value := by
  simp [State.set, State.cell, writable]

@[simp]
theorem State.set_mem (state : State) (cell : Gpr) (value : Word) :
    (state.set cell value).mem = state.mem := by
  unfold State.set
  split_ifs <;> rfl

/-- The effective address of a memory operand with a base register. -/
def MemOperand.address (operand : MemOperand) (state : State) : Option Word :=
  operand.base.map (fun base =>
    state.cell base.storage +
      (match operand.index with
        | some index => BitVec.ofInt 64 operand.scale.toInt * state.cell index.storage
        | none => 0) + BitVec.ofInt 64 operand.disp.toInt)

/-- Three-operand arithmetic. -/
inductive Arith where
  | add | sub | mul | and | or | xor | sll | srl | sra | slt | sltu
deriving DecidableEq, Repr

/-- The supported operations. -/
inductive Op where
  | mv | li
  | load (bytes : Nat) (signed : Bool)
  | store (bytes : Nat)
  | arith (operation : Arith) (word : Bool)
  | branch | call | ret | system
deriving DecidableEq, Repr

/-- The supported mnemonics with their operations. -/
def mnemonics : List (String × Op) :=
  [("mv", .mv), ("li", .li),
   ("ld", .load 8 true), ("lb", .load 1 true), ("lh", .load 2 true), ("lw", .load 4 true),
   ("ldu", .load 8 false), ("lbu", .load 1 false), ("lhu", .load 2 false), ("lwu", .load 4 false),
   ("sd", .store 8), ("sb", .store 1), ("sh", .store 2), ("sw", .store 4),
   ("add", .arith .add false), ("addi", .arith .add false), ("addw", .arith .add true),
   ("addiw", .arith .add true), ("sub", .arith .sub false), ("subw", .arith .sub true),
   ("mul", .arith .mul false), ("and", .arith .and false), ("andi", .arith .and false),
   ("or", .arith .or false), ("ori", .arith .or false), ("xor", .arith .xor false),
   ("sll", .arith .sll false), ("slli", .arith .sll false), ("srl", .arith .srl false),
   ("sra", .arith .sra false), ("slt", .arith .slt false), ("slti", .arith .slt false),
   ("sltu", .arith .sltu false), ("sltiu", .arith .sltu false),
   ("beq", .branch), ("bne", .branch), ("blt", .branch), ("bge", .branch), ("bltu", .branch),
   ("bgeu", .branch), ("beqz", .branch), ("bnez", .branch), ("j", .branch), ("jr", .branch),
   ("call", .call), ("ret", .ret), ("ecall", .system), ("ebreak", .system), ("csrr", .system),
   ("csrw", .system), ("csrrw", .system), ("csrrs", .system), ("csrrc", .system),
   ("csrrwi", .system), ("csrrsi", .system), ("csrrci", .system)]

/-- The operation of a lower-case mnemonic. -/
def Op.ofMnemonic (mnemonic : String) : Option Op :=
  (mnemonics.find? (fun entry => entry.1 == mnemonic)).map (fun entry => entry.2)

/-- What holds of every supported mnemonic holds of a mnemonic with an operation. -/
theorem Op.ofMnemonic_forall (holds : String → Op → Prop)
    (table : ∀ entry ∈ mnemonics, holds entry.1 entry.2) (mnemonic : String) (op : Op)
    (known : Op.ofMnemonic mnemonic = some op) : holds mnemonic op := by
  obtain ⟨entry, found, same⟩ := Option.map_eq_some_iff.mp known
  have member := List.mem_of_find?_eq_some found
  have name : entry.1 = mnemonic := by simpa using List.find?_some found
  rw [← name, ← same]
  exact table entry member

/-- The result of three-operand arithmetic. -/
def Arith.apply : Arith → Word → Word → Word
  | .add, left, right => left + right
  | .sub, left, right => left - right
  | .mul, left, right => left * right
  | .and, left, right => left &&& right
  | .or, left, right => left ||| right
  | .xor, left, right => left ^^^ right
  | .sll, left, right => left <<< (right.toNat % 64)
  | .srl, left, right => left >>> (right.toNat % 64)
  | .sra, left, right => left.sshiftRight (right.toNat % 64)
  | .slt, left, right => if left.toInt < right.toInt then 1 else 0
  | .sltu, left, right => if left.toNat < right.toNat then 1 else 0

/-- The result of an operation on words, which keeps the low half with its sign. -/
def wordResult (word : Bool) (value : Word) : Word :=
  if word then (value.setWidth 32).signExtend 64 else value

/-- The value of an operand that is not memory. -/
def Operand.value (state : State) : Operand → Option Word
  | .reg register => some (state.cell register.storage)
  | .imm value => some (BitVec.ofInt 64 value.toInt)
  | .mem _ => none

/-- An instruction that computes a register from the operands behind it. -/
def execData (state : State) (compute : List Operand → Option Word) :
    List Operand → Option (Outcome State)
  | .reg target :: sources =>
    (compute sources).map (fun value => ⟨[], state.set target.storage value, .goOn⟩)
  | _ => none

/-- `mv`, which copies a register. -/
def moved (env : Environment State) (state : State) : List Operand → Option Word
  | [] => some env.result
  | [.reg source] => some (state.cell source.storage)
  | _ => none

/-- `li`, which sets an immediate. -/
def immediate (env : Environment State) : List Operand → Option Word
  | [] => some env.result
  | [.imm value] => some (BitVec.ofInt 64 value.toInt)
  | _ => none

/-- Arithmetic on two operands. -/
def combined (env : Environment State) (state : State) (operation : Arith) (word : Bool) :
    List Operand → Option Word
  | [left, right] =>
    match left.value state, right.value state with
    | some first, some second => some (wordResult word (operation.apply first second))
    | _, _ => none
  | [source] => if source.isMem then none else some env.result
  | [] => some env.result
  | _ => none

/-- A load. -/
def execLoad (state : State) (bytes : Nat) (signed : Bool) :
    List Operand → Option (Outcome State)
  | [.reg target, .mem mem] =>
    (mem.address state).map (fun address =>
      ⟨[⟨.load, address, bytes⟩],
        state.set target.storage (loaded state.mem address bytes signed), .goOn⟩)
  | _ => none

/-- A store. -/
def execStore (state : State) (bytes : Nat) : List Operand → Option (Outcome State)
  | [.reg source, .mem mem] =>
    (mem.address state).map (fun address =>
      ⟨[⟨.store, address, bytes⟩],
        { state with mem := stored state.mem address bytes (state.cell source.storage) }, .goOn⟩)
  | _ => none

/-- What an operation does with its operands. A call may name its target like an access. -/
def Op.exec (env : Environment State) (state : State) (op : Op) (operands : List Operand) :
    Option (Outcome State) :=
  match op with
  | .mv => execData state (moved env state) operands
  | .li => execData state (immediate env) operands
  | .load bytes signed => execLoad state bytes signed operands
  | .store bytes => execStore state bytes operands
  | .arith operation word => execData state (combined env state operation word) operands
  | .branch =>
    if operands.any Operand.isMem then none
    else some ⟨[], state, if env.taken then .jump else .goOn⟩
  | .call => some ⟨[], env.returned, .goOn⟩
  | .system => if operands.any Operand.isMem then none else some ⟨[], env.returned, .goOn⟩
  | .ret => if operands.any Operand.isMem then none else some ⟨[], state, .leave⟩

/-- The operation of a lowered instruction. -/
def LoweredInstr.op (instr : LoweredInstr) : Option Op :=
  Op.ofMnemonic (Text.asciiLower instr.mnemonic)

/-- Execute a lowered instruction. -/
def exec (env : Environment State) (instr : LoweredInstr) (state : State) :
    Option (Outcome State) :=
  match instr.op with
  | some op => op.exec env state instr.operands
  | none => if instr.operands = [] then some ⟨[], env.returned, .goOn⟩ else none

/-- What executes is of the subset, or does what the environment says. -/
theorem exec_cases (env : Environment State) (instr : LoweredInstr) (state : State)
    (outcome : Outcome State) (executed : exec env instr state = some outcome) :
    (∃ op, instr.op = some op ∧ op.exec env state instr.operands = some outcome) ∨
      (instr.op = none ∧ instr.operands = [] ∧ outcome = ⟨[], env.returned, .goOn⟩) := by
  unfold exec at executed
  split at executed
  next op known => exact Or.inl ⟨op, known, executed⟩
  next unknown =>
    split at executed
    next empty =>
      cases executed
      exact Or.inr ⟨unknown, empty, rfl⟩
    next => cases executed

/-- The mnemonic is that of a store. -/
def storesMemory (mnemonic : String) : Bool :=
  match Op.ofMnemonic (Text.asciiLower mnemonic) with
  | some (.store _) => true
  | _ => false

/-- What is classified and stores is of the store kind. -/
theorem kind_of_classify (base : String) (kind : X86.OpKind) (known : classify base = some kind)
    (stores : storesMemory base = true) : kind = .store := by
  have table : ∀ entry ∈ mnemonicKinds, ∀ name ∈ entry.1, storesMemory name = true →
      entry.2 = .store := by
    decide +kernel
  obtain ⟨entry, found, rfl⟩ := Option.map_eq_some_iff.mp known
  have member : base ∈ entry.1 := by simpa using List.find?_some found
  exact table entry (List.mem_of_find?_eq_some found) base member stores

/-- An instruction that stores was lowered as one of the store kind. -/
theorem kind_of_lower (physical : Decode.PhysicalInstruction) (instr : LoweredInstr)
    (lowered : lower physical = .lowered instr) (stores : storesMemory instr.mnemonic = true) :
    instr.kind = .store := by
  unfold lower at lowered
  generalize splitMnemonic physical.mnemonic = parts at lowered
  obtain ⟨base, suffix⟩ := parts
  dsimp only at lowered
  generalize (if Text.endsWith base "w" = true ∨ Text.startsWith base "w" = true then Width.b32
    else .b64) = width at lowered
  cases known : classify base with
  | none =>
    rw [known] at lowered
    cases lowered
  | some kind =>
    rw [known] at lowered
    dsimp only at lowered
    split_ifs at lowered
    · cases lowered
      rfl
    · cases lowered
      have quiet : storesMemory (defaultMnemonic kind) = false := by cases kind <;> decide +kernel
      rw [quiet] at stores
      cases stores
    · cases lowered
      exact kind_of_classify base kind known stores

/-- An instruction hands over to the next one. -/
def Continues (envs : Nat → Environment State) (position : Nat) (instr : LoweredInstr)
    (state after : State) : Prop :=
  ∃ outcome, exec (envs position) instr state = some outcome ∧ outcome.next = .goOn ∧
    outcome.after = after

end Semasm.Riscv
