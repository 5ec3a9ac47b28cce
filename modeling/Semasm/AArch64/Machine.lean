import Semasm.AArch64.Lower
import Semasm.Machine
import Mathlib.Tactic.ByContra
import Mathlib.Tactic.SplitIfs

/-!
# The AArch64 machine

The meaning of the lowered instructions. Lowering drops parts of the text: how an access
moves its base register, what is between the brackets after the first comma, the shift
of a last operand. An instruction carries these beside its lowered form, and a result that
depends on an operand that was dropped comes from the environment, like what a callee, an
exception handler or an instruction outside the subset does. An instruction that cannot be
encoded has no meaning.
-/

namespace Semasm.AArch64

open Library Contract Machine

/-- Registers and memory. -/
structure State where
  gp : Gp → Word
  sp : Word
  mem : Word → BitVec 8

/-- The value of a cell. -/
def State.cell (state : State) : Storage → Word
  | .gp cell => if cell = .zr then 0 else state.gp cell
  | .sp => state.sp
  | .nzcv => 0

/-- The state with a cell overwritten. -/
def State.set (state : State) (storage : Storage) (value : Word) : State :=
  match storage with
  | .gp cell =>
    if cell = .zr then state else { state with gp := Function.update state.gp cell value }
  | .sp => { state with sp := value }
  | .nzcv => state

@[simp]
theorem State.cell_zr (state : State) : state.cell (.gp .zr) = 0 := rfl

/-- Only the written cell changes. -/
theorem State.cell_set_of_ne (state : State) (storage other : Storage) (value : Word)
    (different : other ≠ storage) : (state.set storage value).cell other = state.cell other := by
  cases storage with
  | gp cell =>
    simp only [State.set]
    split_ifs with zero
    · rfl
    · cases other with
      | gp held =>
        have apart : held ≠ cell := fun same => different (by rw [same])
        simp only [State.cell, Function.update_of_ne apart]
      | sp => rfl
      | nzcv => rfl
  | sp =>
    cases other with
    | gp held => rfl
    | sp => exact absurd rfl different
    | nzcv => rfl
  | nzcv => rfl

/-- A written register holds the value, except the zero register. -/
theorem State.cell_set_self (state : State) (cell : Gp) (value : Word) (writable : cell ≠ .zr) :
    (state.set (.gp cell) value).cell (.gp cell) = value := by
  simp [State.set, State.cell, writable]

/-- Writing the value that is there changes no cell. -/
theorem State.cell_set_same (state : State) (storage : Storage) :
    (state.set storage (state.cell storage)).cell storage = state.cell storage := by
  cases storage with
  | gp cell =>
    by_cases zero : cell = .zr
    · subst zero
      rfl
    · exact state.cell_set_self cell _ zero
  | sp => rfl
  | nzcv => rfl

@[simp]
theorem State.set_mem (state : State) (storage : Storage) (value : Word) :
    (state.set storage value).mem = state.mem := by
  cases storage with
  | gp cell =>
    simp only [State.set]
    split_ifs <;> rfl
  | sp => rfl
  | nzcv => rfl

/-- The value cut to a width. -/
def Width.trunc : Width → Word → Word
  | .b64, value => value
  | .b32, value => (value.setWidth 32).setWidth 64
  | .b8, value => (value.setWidth 8).setWidth 64

/-- The value seen through a view. -/
def State.read (state : State) (register : Register) : Word :=
  register.width.trunc (state.cell register.storage)

/-- A write through a view. A 32-bit write clears the upper half. -/
def State.write (state : State) (register : Register) (value : Word) : State :=
  state.set register.storage (register.width.trunc value)

/-- How an access moves its base register. -/
inductive Indexing where
  | offset | pre | post
deriving DecidableEq, Repr

/-- The address of an access as the text has it: base, shifted index, displacement. -/
structure Addressing where
  base : Storage
  index : Option (Gp × Nat)
  disp : Int64
  indexing : Indexing
deriving DecidableEq, Repr

namespace Addressing

/-- The displacement as an address. -/
def amount (addressing : Addressing) : Word := BitVec.ofInt 64 addressing.disp.toInt

/-- The effective address. -/
def address (addressing : Addressing) (state : State) : Word :=
  match addressing.indexing with
  | .post => state.cell addressing.base
  | .offset | .pre =>
    state.cell addressing.base +
      (match addressing.index with
        | some (register, shift) => state.cell (.gp register) <<< shift
        | none => 0) + addressing.amount

/-- The state with the base register moved. -/
def writeback (addressing : Addressing) (state : State) : State :=
  match addressing.indexing with
  | .offset => state
  | .pre | .post => state.set addressing.base (state.cell addressing.base + addressing.amount)

/-- The access moves a cell. -/
def Moves (addressing : Addressing) (storage : Storage) : Prop :=
  addressing.indexing ≠ .offset ∧ addressing.base = storage ∧ addressing.amount ≠ 0

instance (addressing : Addressing) (storage : Storage) : Decidable (addressing.Moves storage) :=
  inferInstanceAs (Decidable (_ ∧ _))

/-- A cell that is not moved is left alone. -/
theorem cell_writeback (addressing : Addressing) (state : State) (storage : Storage)
    (still : ¬ addressing.Moves storage) :
    (addressing.writeback state).cell storage = state.cell storage := by
  unfold writeback
  cases indexing : addressing.indexing with
  | offset => rfl
  | _ =>
    by_cases base : addressing.base = storage
    · have unmoved : addressing.amount = 0#64 := by
        by_contra amount
        exact still ⟨by simp [indexing], base, amount⟩
      simp only [unmoved, BitVec.add_zero, base]
      exact state.cell_set_same storage
    · exact state.cell_set_of_ne _ _ _ (Ne.symm base)

@[simp]
theorem writeback_mem (addressing : Addressing) (state : State) :
    (addressing.writeback state).mem = state.mem := by
  unfold writeback
  split <;> simp

end Addressing

/-- A lowered instruction with what its text says of the address and of a shifted or
extended last operand. -/
structure Instr where
  lowered : LoweredInstr
  addressing : Option Addressing
  modifier : Word → Word

/-- Three-operand arithmetic. -/
inductive Arith where
  | add | sub | mul | and | orr | eor | lsl | lsr
deriving DecidableEq, Repr

/-- The supported operations. An access without a size has the size of its register. -/
inductive Op where
  | mov | movz | movn | movk
  | load (bytes : Option Nat) (signed : Bool)
  | store (bytes : Option Nat)
  | arith (operation : Arith)
  | compare | branch | call | ret | exception
deriving DecidableEq, Repr

/-- The supported mnemonics with their operations. -/
def mnemonics : List (String × Op) :=
  [("mov", .mov), ("movz", .movz), ("movn", .movn), ("movk", .movk),
   ("ldr", .load none false), ("ldrb", .load (some 1) false), ("ldrh", .load (some 2) false),
   ("ldrsb", .load (some 1) true), ("ldrsh", .load (some 2) true), ("ldrsw", .load (some 4) true),
   ("str", .store none), ("strb", .store (some 1)), ("strh", .store (some 2)),
   ("add", .arith .add), ("adds", .arith .add), ("sub", .arith .sub), ("subs", .arith .sub),
   ("mul", .arith .mul), ("and", .arith .and), ("orr", .arith .orr), ("eor", .arith .eor),
   ("lsl", .arith .lsl), ("lsr", .arith .lsr), ("cmp", .compare), ("cmn", .compare),
   ("tst", .compare), ("b", .branch), ("br", .branch), ("cbz", .branch), ("cbnz", .branch),
   ("tbz", .branch), ("tbnz", .branch), ("bl", .call), ("blr", .call), ("ret", .ret),
   ("svc", .exception), ("hvc", .exception), ("smc", .exception), ("brk", .exception),
   ("hlt", .exception)]

/-- The operation of a lower-case mnemonic. -/
def Op.ofMnemonic (mnemonic : String) : Option Op :=
  (mnemonics.find? (fun entry => entry.1 == mnemonic)).map (fun entry => entry.2)

/-- What holds of every supported mnemonic holds of a mnemonic with an operation. -/
theorem Op.ofMnemonic_forall (holds : String → Op → Prop)
    (table : ∀ entry ∈ mnemonics, holds entry.1 entry.2) (mnemonic : String) (op : Op)
    (known : Op.ofMnemonic mnemonic = some op) : holds mnemonic op := by
  obtain ⟨entry, found, same⟩ := Option.map_eq_some_iff.mp known
  have member := List.mem_of_find?_eq_some found
  have name : entry.1 = mnemonic := by simpa using List.find?_some found
  rw [← name, ← same]
  exact table entry member

/-- The result of three-operand arithmetic at a width. -/
def Arith.apply (width : Width) : Arith → Word → Word → Word
  | .add, left, right => left + right
  | .sub, left, right => left - right
  | .mul, left, right => left * right
  | .and, left, right => left &&& right
  | .orr, left, right => left ||| right
  | .eor, left, right => left ^^^ right
  | .lsl, left, right => left <<< (right.toNat % width.bits)
  | .lsr, left, right => left >>> (right.toNat % width.bits)

/-- The value of an operand that is not memory. -/
def Operand.value (state : State) : Operand → Option Word
  | .reg register => some (state.read register)
  | .imm value => some (BitVec.ofInt 64 value.toInt)
  | .mem _ => none

/-- An instruction that computes a register from the operands behind it. -/
def execData (state : State) (compute : Register → List Operand → Option Word) :
    List Operand → Option (Outcome State)
  | .reg target :: sources =>
    (compute target sources).map (fun value => ⟨[], state.write target value, .goOn⟩)
  | _ => none

/-- `mov`, which copies a register or sets an immediate. -/
def moved (env : Environment State) (state : State) : List Operand → Option Word
  | [] => some env.result
  | [source] => source.value state
  | _ => none

/-- `movz`, `movn` and `movk`, which set or insert a shifted immediate. -/
def immediate (env : Environment State) (compute : Word → Word) : List Operand → Option Word
  | [] => some env.result
  | [.imm value] => some (compute (BitVec.ofInt 64 value.toInt))
  | _ => none

/-- Arithmetic on two operands, the second one shifted or extended. -/
def combined (env : Environment State) (state : State) (operation : Arith) (modifier : Word → Word)
    (target : Register) : List Operand → Option Word
  | [left, right] =>
    match left.value state, right.value state with
    | some first, some second => some (operation.apply target.width first (modifier second))
    | _, _ => none
  | [source] => if source.isMem then none else some env.result
  | [] => some env.result
  | _ => none

/-- A load. -/
def execLoad (instr : Instr) (state : State) (bytes : Option Nat) (signed : Bool) : Option (Outcome State) :=
  match instr.addressing, instr.lowered.operands with
  | some addressing, .reg target :: .mem _ :: _ =>
    let size := bytes.getD (target.width.bits / 8)
    let address := addressing.address state
    some ⟨[⟨.load, address, size⟩],
      (addressing.writeback state).write target (loaded state.mem address size signed), .goOn⟩
  | _, _ => none

/-- A store. -/
def execStore (instr : Instr) (state : State) (bytes : Option Nat) : Option (Outcome State) :=
  match instr.addressing, instr.lowered.operands with
  | some addressing, .reg source :: .mem _ :: _ =>
    let size := bytes.getD (source.width.bits / 8)
    let address := addressing.address state
    let stored := { state with mem := stored state.mem address size (state.read source) }
    some ⟨[⟨.store, address, size⟩], addressing.writeback stored, .goOn⟩
  | _, _ => none

/-- What an operation does. -/
def Op.exec (env : Environment State) (instr : Instr) (state : State) (op : Op) : Option (Outcome State) :=
  let operands := instr.lowered.operands
  match op with
  | .mov => execData state (fun _ => moved env state) operands
  | .movz => execData state (fun _ => immediate env instr.modifier) operands
  | .movn => execData state (fun _ => immediate env (fun value => ~~~instr.modifier value)) operands
  | .movk =>
    execData state (fun target => immediate env (fun value =>
      (state.read target &&& ~~~instr.modifier 0xFFFF) ||| instr.modifier value)) operands
  | .load bytes signed => execLoad instr state bytes signed
  | .store bytes => execStore instr state bytes
  | .arith operation => execData state (combined env state operation instr.modifier) operands
  | .compare => if operands.any Operand.isMem then none else some ⟨[], state, .goOn⟩
  | .branch =>
    if operands.any Operand.isMem then none
    else some ⟨[], state, if env.taken then .jump else .goOn⟩
  | .call | .exception =>
    if operands.any Operand.isMem then none else some ⟨[], env.returned, .goOn⟩
  | .ret => if operands.any Operand.isMem then none else some ⟨[], state, .leave⟩

/-- The operation of an instruction. -/
def Instr.op (instr : Instr) : Option Op :=
  Op.ofMnemonic (Text.asciiLower instr.lowered.mnemonic)

/-- Execute an instruction. No instruction has two memory operands. -/
def exec (env : Environment State) (instr : Instr) (state : State) : Option (Outcome State) :=
  if 1 < (instr.lowered.operands.filter Operand.isMem).length then none
  else
    match instr.op with
    | some op => op.exec env instr state
    | none => if instr.lowered.operands = [] then some ⟨[], env.returned, .goOn⟩ else none

/-- What executes is of the subset, or does what the environment says. -/
theorem exec_cases (env : Environment State) (instr : Instr) (state : State) (outcome : Outcome State)
    (executed : exec env instr state = some outcome) :
    (∃ op, instr.op = some op ∧ op.exec env instr state = some outcome) ∨
      (instr.op = none ∧ instr.lowered.operands = [] ∧ outcome = ⟨[], env.returned, .goOn⟩) := by
  unfold exec at executed
  split at executed
  · cases executed
  · split at executed
    next op known => exact Or.inl ⟨op, known, executed⟩
    next unknown =>
      split at executed
      next empty =>
        cases executed
        exact Or.inr ⟨unknown, empty, rfl⟩
      next => cases executed

/-- The mnemonic is that of a store. -/
def storesMemory (mnemonic : String) : Bool :=
  match Op.ofMnemonic (Text.asciiLower mnemonic) with
  | some (.store _) => true
  | _ => false

/-- What is classified and stores is of the store kind. -/
theorem kind_of_classify (base : String) (kind : X86.OpKind) (known : classify base = some kind)
    (stores : storesMemory base = true) : kind = .store := by
  have table : ∀ entry ∈ mnemonicKinds, ∀ name ∈ entry.1, storesMemory name = true →
      entry.2 = .store := by
    decide +kernel
  obtain ⟨entry, found, rfl⟩ := Option.map_eq_some_iff.mp known
  have member : base ∈ entry.1 := by simpa using List.find?_some found
  exact table entry (List.mem_of_find?_eq_some found) base member stores

/-- An instruction that stores was lowered as one of the store kind. -/
theorem kind_of_lower (physical : Decode.PhysicalInstruction) (instr : LoweredInstr)
    (lowered : lower physical = .lowered instr) (stores : storesMemory instr.mnemonic = true) :
    instr.kind = .store := by
  unfold lower at lowered
  generalize splitMnemonic physical.mnemonic = parts at lowered
  obtain ⟨base, suffix⟩ := parts
  dsimp only at lowered
  generalize (if Text.startsWith base "w" = true ∨
    base = "movz" ∧ Text.startsWith physical.mnemonic "movz w" = true then Width.b32 else .b64) =
    width at lowered
  cases known : classify base with
  | none =>
    rw [known] at lowered
    cases lowered
  | some kind =>
    rw [known] at lowered
    dsimp only at lowered
    split_ifs at lowered
    · cases lowered
      rfl
    · cases lowered
      have quiet : storesMemory (defaultMnemonic kind) = false := by cases kind <;> decide +kernel
      rw [quiet] at stores
      cases stores
    · cases lowered
      exact kind_of_classify base kind known stores

/-- An instruction hands over to the next one. -/
def Continues (envs : Nat → Environment State) (position : Nat) (instr : Instr) (state after : State) :
    Prop :=
  ∃ outcome, exec (envs position) instr state = some outcome ∧ outcome.next = .goOn ∧
    outcome.after = after

end Semasm.AArch64
