import Semasm.Contract.Alias
import Semasm.Library.ByteMemory
import Semasm.X86.Lower

/-!
# The x86-64 machine

The meaning of the lowered instructions: what each reads and writes, the flags it
leaves and whether control goes on to the next instruction. An instruction that
cannot be encoded has no meaning. What a callee or the kernel does, the address
of the next instruction and the flags an instruction leaves undefined come from
an environment.

The accesses of an outcome are those of the explicit memory operand. Stack
accesses of `push`, `pop`, `call` and `ret` are not among them.
-/

namespace Semasm.X86

open Library Contract

/-- A 64-bit value or address. -/
abbrev Word := BitVec 64

/-- The status flags. -/
structure Flags where
  carry : Bool
  zero : Bool
  sign : Bool
  overflow : Bool
  parity : Bool
deriving DecidableEq, Repr

/-- Registers, memory and flags. -/
structure State where
  regs : Gp → Word
  mem : Word → BitVec 8
  flags : Flags

/-- What an instruction takes from outside: the address of the next instruction,
the state when a call returns, and the flags left undefined. -/
structure Environment where
  rip : Word
  returned : State
  undefinedFlags : Flags

/-- The value cut to a width. -/
def Width.trunc : Width → Word → Word
  | .b64, value => value
  | .b32, value => (value.setWidth 32).setWidth 64
  | .b16, value => (value.setWidth 16).setWidth 64
  | .b8, value => (value.setWidth 8).setWidth 64

/-- The topmost bit of a width. -/
def Width.signBit (width : Width) (value : Word) : Bool := value.getLsbD (width.bits - 1)

/-- The value seen through a view. -/
def Register.value (regs : Gp → Word) (register : Register) : Option Word :=
  match register.storage with
  | .gp cell =>
    some (register.width.trunc
      (if register.width = .b8 ∧ register.high then regs cell >>> 8 else regs cell))
  | _ => none

/-- The cell after a write through a view. Only a 32-bit write clears the rest. -/
def Register.merge (register : Register) (old new : Word) : Word :=
  match register.width with
  | .b64 => new
  | .b32 => Width.b32.trunc new
  | .b16 => (old &&& ~~~(0xFFFF : Word)) ||| Width.b16.trunc new
  | .b8 =>
    if register.high then (old &&& ~~~(0xFF00 : Word)) ||| (Width.b8.trunc new <<< 8)
    else (old &&& ~~~(0xFF : Word)) ||| Width.b8.trunc new

/-- The registers after a write through a view. -/
def writeRegister (regs : Gp → Word) (register : Register) (value : Word) : Gp → Word :=
  match register.storage with
  | .gp cell => Function.update regs cell (register.merge (regs cell) value)
  | _ => regs

/-- Read a value from memory. -/
def load (mem : Word → BitVec 8) (address : Word) (width : Width) : Word :=
  BitVec.ofNat 64 (ByteMemory.decode (ByteMemory.readBytes mem address width.bytes))

/-- Write a value to memory. -/
def store (mem : Word → BitVec 8) (address : Word) (width : Width) (value : Word) :
    Word → BitVec 8 :=
  ByteMemory.writeBytes mem address (ByteMemory.encode width.bytes value.toNat)

/-- One change of the state. -/
inductive Write where
  | reg (register : Register) (value : Word)
  | mem (address : Word) (width : Width) (value : Word)
  | replace (regs : Gp → Word) (mem : Word → BitVec 8)

/-- The state after a change. -/
def State.apply (state : State) : Write → State
  | .reg register value => { state with regs := writeRegister state.regs register value }
  | .mem address width value => { state with mem := store state.mem address width value }
  | .replace regs mem => { state with regs := regs, mem := mem }

/-- An access of the explicit memory operand. -/
structure Access where
  mode : AccessMode
  address : Word
  width : Width
deriving DecidableEq, Repr

/-- Where control goes after an instruction. -/
inductive Next where
  | goOn | jump | leave
deriving DecidableEq, Repr

/-- What executing an instruction does. -/
structure Outcome where
  accesses : List Access
  writes : List Write
  flags : Flags
  next : Next

/-- The state after an outcome. -/
def Outcome.result (outcome : Outcome) (state : State) : State :=
  { outcome.writes.foldl State.apply state with flags := outcome.flags }

/-- The register of an address, read at the address width. -/
def addressTerm (regs : Gp → Word) (width : Width) : Option Register → Option Word
  | none => some 0
  | some register =>
    if register.width = width then
      match register.storage with
      | .gp cell => some (width.trunc (regs cell))
      | _ => none
    else none

namespace MemOperand

/-- Width of the registers in the address. -/
def addressWidth (operand : MemOperand) : Width :=
  match operand.base, operand.index with
  | some register, _ => register.width
  | none, some register => register.width
  | none, none => .b64

/-- The effective address. -/
def address (operand : MemOperand) (env : Environment) (regs : Gp → Word) : Option Word :=
  let width := operand.addressWidth
  if ¬ (width = .b64 ∨ width = .b32) ∨ operand.scale ∉ ([1, 2, 4, 8] : List UInt8) then none
  else
    let base := if operand.base = some Register.rip then some env.rip
      else addressTerm regs width operand.base
    let index := if operand.index.map Register.storage = some (.gp .rsp) then none
      else addressTerm regs width operand.index
    match base, index with
    | some base, some index =>
      some (width.trunc (base + BitVec.ofNat 64 operand.scale.toNat * index +
        BitVec.ofInt 64 operand.disp.toInt))
    | _, _ => none

end MemOperand

namespace Operand

/-- The width an operand fixes. -/
def width? : Operand → Option Width
  | .reg register => some register.width
  | .mem operand => some operand.width
  | .imm _ => none

/-- Whether an immediate can be encoded at a width. -/
def fits (width : Width) (value : Int64) : Prop :=
  -(2 ^ (width.bits - 1) : Int) ≤ value.toInt ∧ value.toInt < 2 ^ width.bits

instance (width : Width) (value : Int64) : Decidable (fits width value) :=
  inferInstanceAs (Decidable (_ ∧ _))

/-- The value of an operand at a width, with the access that reads it. -/
def read (env : Environment) (state : State) (width : Width) :
    Operand → Option (Word × List Access)
  | .reg register =>
    if register.width = width then
      (register.value state.regs).map (fun value => (value, []))
    else none
  | .imm value => if fits width value then some (width.trunc (BitVec.ofInt 64 value.toInt), []) else none
  | .mem operand =>
    if operand.width = width then
      (operand.address env state.regs).map
        (fun address => (load state.mem address width, [⟨.load, address, width⟩]))
    else none

/-- The change that stores a value of a width in an operand. -/
def write (env : Environment) (state : State) (width : Width) (value : Word) :
    Operand → Option (Write × List Access)
  | .reg register =>
    match register.storage with
    | .gp _ => if register.width = width then some (.reg register value, []) else none
    | _ => none
  | .imm _ => none
  | .mem operand =>
    if operand.width = width then
      (operand.address env state.regs).map
        (fun address => (.mem address width value, [⟨.store, address, width⟩]))
    else none

end Operand

/-- Conditions of jumps and conditional moves. -/
inductive Condition where
  | e | ne | a | ae | b | be | g | ge | l | le | s | ns | o | no | p | np
deriving DecidableEq, Repr

/-- Whether a condition holds of the flags. -/
def Condition.holds (flags : Flags) : Condition → Bool
  | .e => flags.zero
  | .ne => !flags.zero
  | .b => flags.carry
  | .ae => !flags.carry
  | .be => flags.carry || flags.zero
  | .a => !(flags.carry || flags.zero)
  | .l => flags.sign != flags.overflow
  | .ge => flags.sign == flags.overflow
  | .le => flags.zero || flags.sign != flags.overflow
  | .g => !(flags.zero || flags.sign != flags.overflow)
  | .s => flags.sign
  | .ns => !flags.sign
  | .o => flags.overflow
  | .no => !flags.overflow
  | .p => flags.parity
  | .np => !flags.parity

/-- Two-operand arithmetic. -/
inductive Alu where
  | xor | and | or | add | sub
deriving DecidableEq, Repr

/-- The supported operations. -/
inductive Op where
  | move | push | pop | lea | movzx
  | alu (operation : Alu)
  | inc | dec | shl | shr | cmp | test
  | jump
  | branch (condition : Condition)
  | call | ret | syscall
  | select (condition : Condition)
deriving DecidableEq, Repr

/-- The supported mnemonics with their operations. -/
def mnemonics : List (String × Op) :=
  [("mov", .move), ("movabs", .move), ("push", .push), ("pop", .pop), ("lea", .lea),
   ("movzx", .movzx), ("xor", .alu .xor), ("and", .alu .and), ("or", .alu .or),
   ("add", .alu .add), ("sub", .alu .sub), ("inc", .inc), ("dec", .dec), ("shl", .shl),
   ("shr", .shr), ("cmp", .cmp), ("test", .test), ("jmp", .jump), ("je", .branch .e),
   ("jz", .branch .e), ("jne", .branch .ne), ("jnz", .branch .ne), ("ja", .branch .a),
   ("jae", .branch .ae), ("jb", .branch .b), ("jbe", .branch .be), ("jg", .branch .g),
   ("jge", .branch .ge), ("jl", .branch .l), ("jle", .branch .le), ("call", .call),
   ("ret", .ret), ("retn", .ret), ("retf", .ret), ("syscall", .syscall),
   ("cmove", .select .e), ("cmovz", .select .e), ("cmovne", .select .ne), ("cmovnz", .select .ne),
   ("cmova", .select .a), ("cmovnbe", .select .a), ("cmovae", .select .ae),
   ("cmovnb", .select .ae), ("cmovnc", .select .ae), ("cmovb", .select .b), ("cmovc", .select .b),
   ("cmovnae", .select .b), ("cmovbe", .select .be), ("cmovna", .select .be),
   ("cmovg", .select .g), ("cmovnle", .select .g), ("cmovge", .select .ge),
   ("cmovnl", .select .ge), ("cmovl", .select .l), ("cmovnge", .select .l),
   ("cmovle", .select .le), ("cmovng", .select .le), ("cmovs", .select .s),
   ("cmovns", .select .ns), ("cmovo", .select .o), ("cmovno", .select .no), ("cmovp", .select .p),
   ("cmovpe", .select .p), ("cmovnp", .select .np), ("cmovpo", .select .np)]

/-- The operation of a lower-case mnemonic. -/
def Op.ofMnemonic (mnemonic : String) : Option Op :=
  (mnemonics.find? (fun entry => entry.1 == mnemonic)).map (fun entry => entry.2)

/-- What holds of every supported mnemonic holds of a mnemonic with an operation. -/
theorem Op.ofMnemonic_forall (holds : String → Op → Prop)
    (table : ∀ entry ∈ mnemonics, holds entry.1 entry.2) (mnemonic : String) (op : Op)
    (known : Op.ofMnemonic mnemonic = some op) : holds mnemonic op := by
  obtain ⟨entry, found, same⟩ := Option.map_eq_some_iff.mp known
  have member := List.mem_of_find?_eq_some found
  have name : entry.1 = mnemonic := by simpa using List.find?_some found
  rw [← name, ← same]
  exact table entry member

/-- The result of two-operand arithmetic. -/
def Alu.apply : Alu → Word → Word → Word
  | .xor, left, right => left ^^^ right
  | .and, left, right => left &&& right
  | .or, left, right => left ||| right
  | .add, left, right => left + right
  | .sub, left, right => left - right

/-- Even number of set bits in the low byte. -/
def parityOf (value : Word) : Bool :=
  ((List.range 8).filter (fun bit => value.getLsbD bit)).length % 2 == 0

/-- Flags of a subtraction or comparison of values cut to a width. -/
def subFlags (width : Width) (left right : Word) : Flags :=
  let result := width.trunc (left - right)
  { carry := decide (left < right)
    zero := result == 0
    sign := width.signBit result
    overflow := width.signBit left != width.signBit right &&
      width.signBit result != width.signBit left
    parity := parityOf result }

/-- Flags of an addition of values cut to a width. -/
def addFlags (width : Width) (left right : Word) : Flags :=
  let result := width.trunc (left + right)
  { carry := decide (result < left)
    zero := result == 0
    sign := width.signBit result
    overflow := width.signBit left == width.signBit right &&
      width.signBit result != width.signBit left
    parity := parityOf result }

/-- Flags of a bitwise result. -/
def logicFlags (width : Width) (result : Word) : Flags :=
  { carry := false
    zero := result == 0
    sign := width.signBit result
    overflow := false
    parity := parityOf result }

/-- Flags of two-operand arithmetic. -/
def Alu.flags (operation : Alu) (width : Width) (left right : Word) : Flags :=
  match operation with
  | .add => addFlags width left right
  | .sub => subFlags width left right
  | .xor | .and | .or => logicFlags width (width.trunc (operation.apply left right))

/-- The state with the stack pointer moved by a number of bytes. -/
def State.withRsp (state : State) (value : Word) : State :=
  { state with regs := Function.update state.regs .rsp value }

/-- A destination computed from its old value. -/
def modify (env : Environment) (state : State) (dst : Operand)
    (compute : Width → Word → Option (Word × Flags × List Access)) : Option Outcome := do
  let width ← dst.width?
  let (old, loads) ← dst.read env state width
  let (value, flags, reads) ← compute width old
  let (change, stores) ← dst.write env state width value
  some ⟨loads ++ reads ++ stores, [change], flags, .goOn⟩

/-- The count of a shift: an immediate or `cl`. -/
def shiftCount (state : State) (width : Width) : List Operand → Option Nat
  | [] => some 1
  | [.imm count] =>
    if 0 ≤ count.toInt then some (count.toInt.toNat % (if width = .b64 then 64 else 32)) else none
  | [.reg register] =>
    if register = Gp.rcx.low8 then
      some (((state.regs .rcx).toNat % 256) % (if width = .b64 then 64 else 32))
    else none
  | _ => none

/-- Widths of stack values. -/
def stackWidth (width : Width) : Option Width :=
  if width = .b64 ∨ width = .b16 then some width else none

/-- The target operand of an indirect jump or call. -/
def readTarget (env : Environment) (state : State) : Operand → Option (List Access)
  | .imm _ => some []
  | other => (other.read env state .b64).map (fun found => found.2)

/-- `mov` and `movabs`. -/
def execMove (env : Environment) (state : State) : List Operand → Option Outcome
  | [dst, src] => do
    let width ← dst.width?
    let (value, reads) ← src.read env state width
    let (change, stores) ← dst.write env state width value
    some ⟨reads ++ stores, [change], state.flags, .goOn⟩
  | _ => none

/-- `push`. -/
def execPush (env : Environment) (state : State) : List Operand → Option Outcome
  | [src] => do
    let width ← stackWidth (src.width?.getD .b64)
    let (value, reads) ← src.read env state width
    let top := state.regs .rsp - BitVec.ofNat 64 width.bytes
    some ⟨reads, [.reg Gp.rsp.full top, .mem top width value], state.flags, .goOn⟩
  | _ => none

/-- `pop`. A memory destination is addressed with the stack pointer already moved. -/
def execPop (env : Environment) (state : State) : List Operand → Option Outcome
  | [dst] => do
    let width ← dst.width?.bind stackWidth
    let top := state.regs .rsp + BitVec.ofNat 64 width.bytes
    let (change, stores) ←
      dst.write env (state.withRsp top) width (load state.mem (state.regs .rsp) width)
    some ⟨stores, [.reg Gp.rsp.full top, change], state.flags, .goOn⟩
  | _ => none

/-- `lea`. -/
def execLea (env : Environment) (state : State) : List Operand → Option Outcome
  | [.reg register, .mem operand] => do
    let address ← operand.address env state.regs
    let (change, _) ←
      (Operand.reg register).write env state register.width (register.width.trunc address)
    if register.width = .b8 then none else some ⟨[], [change], state.flags, .goOn⟩
  | _ => none

/-- `movzx`. -/
def execMovzx (env : Environment) (state : State) : List Operand → Option Outcome
  | [.reg register, src] => do
    let width ← src.width?
    let (value, reads) ← src.read env state width
    let (change, _) ← (Operand.reg register).write env state register.width value
    if width.bits < register.width.bits then some ⟨reads, [change], state.flags, .goOn⟩ else none
  | _ => none

/-- `xor`, `and`, `or`, `add` and `sub`. -/
def execAlu (env : Environment) (state : State) (operation : Alu) : List Operand → Option Outcome
  | [dst, src] =>
    modify env state dst (fun width old => do
      let (value, reads) ← src.read env state width
      some (width.trunc (operation.apply old value), operation.flags width old value, reads))
  | _ => none

/-- `inc`, which leaves the carry flag alone. -/
def execInc (env : Environment) (state : State) : List Operand → Option Outcome
  | [dst] =>
    modify env state dst (fun width old =>
      some (width.trunc (old + 1), { addFlags width old 1 with carry := state.flags.carry }, []))
  | _ => none

/-- `dec`, which leaves the carry flag alone. -/
def execDec (env : Environment) (state : State) : List Operand → Option Outcome
  | [dst] =>
    modify env state dst (fun width old =>
      some (width.trunc (old - 1), { subFlags width old 1 with carry := state.flags.carry }, []))
  | _ => none

/-- `shl` and `shr`. -/
def execShift (env : Environment) (state : State) (shift : Word → Nat → Word) :
    List Operand → Option Outcome
  | dst :: count =>
    modify env state dst (fun width old => do
      let amount ← shiftCount state width count
      some (width.trunc (shift old amount), env.undefinedFlags, []))
  | _ => none

/-- `cmp` and `test`: two operands are read and only the flags change. -/
def execCompare (env : Environment) (state : State) (flags : Width → Word → Word → Flags) :
    List Operand → Option Outcome
  | [left, right] => do
    let width ← left.width?
    let (first, reads) ← left.read env state width
    let (second, others) ← right.read env state width
    some ⟨reads ++ others, [], flags width first second, .goOn⟩
  | _ => none

/-- `jmp`. -/
def execJump (env : Environment) (state : State) : List Operand → Option Outcome
  | [target] => do
    let reads ← readTarget env state target
    some ⟨reads, [], state.flags, match target with | .imm _ => .jump | _ => .leave⟩
  | _ => none

/-- Conditional jumps. -/
def execBranch (state : State) (condition : Condition) : List Operand → Option Outcome
  | [.imm _] =>
    some ⟨[], [], state.flags, if condition.holds state.flags then .jump else .goOn⟩
  | _ => none

/-- `call`, up to the return of the callee. -/
def execCall (env : Environment) (state : State) : List Operand → Option Outcome
  | [target] => do
    let reads ← readTarget env state target
    some ⟨reads, [.replace env.returned.regs env.returned.mem], env.returned.flags, .goOn⟩
  | _ => none

/-- `ret`. -/
def execRet (state : State) : List Operand → Option Outcome
  | [] | [.imm _] => some ⟨[], [], state.flags, .leave⟩
  | _ => none

/-- `syscall`: the kernel answers in `rax` and overwrites `rcx` and `r11`. -/
def execSyscall (env : Environment) (state : State) : List Operand → Option Outcome
  | [] =>
    let regs := fun cell =>
      if cell = .rax ∨ cell = .rcx ∨ cell = .r11 then env.returned.regs cell else state.regs cell
    some ⟨[], [.replace regs env.returned.mem], state.flags, .goOn⟩
  | _ => none

/-- Conditional moves, which read their source either way. -/
def execSelect (env : Environment) (state : State) (condition : Condition) :
    List Operand → Option Outcome
  | [.reg register, src] => do
    let (value, reads) ← src.read env state register.width
    let old ← register.value state.regs
    let kept := if condition.holds state.flags then value else old
    let (change, _) ← (Operand.reg register).write env state register.width kept
    if register.width = .b8 then none else some ⟨reads, [change], state.flags, .goOn⟩
  | _ => none

/-- What an operation does with its operands. -/
def Op.exec (env : Environment) (state : State) (op : Op) (operands : List Operand) :
    Option Outcome :=
  match op with
  | .move => execMove env state operands
  | .push => execPush env state operands
  | .pop => execPop env state operands
  | .lea => execLea env state operands
  | .movzx => execMovzx env state operands
  | .alu operation => execAlu env state operation operands
  | .inc => execInc env state operands
  | .dec => execDec env state operands
  | .shl => execShift env state (fun value amount => value <<< amount) operands
  | .shr => execShift env state (fun value amount => value >>> amount) operands
  | .cmp => execCompare env state subFlags operands
  | .test =>
    execCompare env state (fun width left right => logicFlags width (left &&& right)) operands
  | .jump => execJump env state operands
  | .branch condition => execBranch state condition operands
  | .call => execCall env state operands
  | .ret => execRet state operands
  | .syscall => execSyscall env state operands
  | .select condition => execSelect env state condition operands

/-- The operation of a lowered instruction. -/
def LoweredInstr.op (instr : LoweredInstr) : Option Op :=
  Op.ofMnemonic (Text.asciiLower instr.mnemonic)

/-- Execute a lowered instruction. No instruction has two memory operands. -/
def exec (env : Environment) (instr : LoweredInstr) (state : State) : Option Outcome :=
  if 1 < (instr.operands.filter Operand.isMem).length then none
  else instr.op.bind (fun op => op.exec env state instr.operands)

end Semasm.X86
