import Semasm.X86.Abi.Verdict
import Semasm.X86.StackOps

/-!
# Runs of a function body

A body is run from its first instruction with callees that honour the convention: a
callee gives the nonvolatile registers and the stack pointer back and leaves the
memory alone, except below the stack pointer and, for Microsoft x64, in the 32 bytes
of home space above its return address.
-/

namespace Semasm.X86.Abi

open Library

/-- The registers that come back from a call as they were. -/
def Convention.preserved (convention : Convention) : List Gp :=
  .rsp :: convention.rules.nonvolatile

/-- The bytes that a callee may change. -/
def Convention.CalleeMayWrite (convention : Convention) (rsp address : Word) : Prop :=
  address < rsp ∨ (convention = .win64 ∧ ByteMemory.Within rsp 32 address)

/-- A callee comes back as the convention promises. -/
structure Convention.Honours (convention : Convention) (state returned : State) : Prop where
  regs : ∀ cell ∈ convention.preserved, returned.regs cell = state.regs cell
  mem : ∀ address, ¬ convention.CalleeMayWrite (state.regs .rsp) address →
    returned.mem address = state.mem address

/-- One instruction of a body whose callees honour the convention. -/
def BodyStep (convention : Convention) (body : List LoweredInstr) (envs : Nat → Environment)
    (point after : Point) : Prop :=
  StraightStep body envs point after ∧
    ∀ instr, body[point.position]? = some instr → instr.op = some .call →
      convention.Honours point.state (envs point.position).returned

/-- An instruction that is no call takes a step of the body. -/
theorem bodyStep_of_exec (convention : Convention) (body : List LoweredInstr)
    (envs : Nat → Environment) (position : Nat) (state : State) (instr : LoweredInstr)
    (outcome : Outcome) (found : body[position]? = some instr)
    (executed : exec (envs position) instr state = some outcome) (goesOn : outcome.next = .goOn)
    (notCall : instr.op ≠ some .call) :
    BodyStep convention body envs ⟨position, state⟩ ⟨position + 1, outcome.result state⟩ := by
  refine ⟨⟨instr, outcome, found, executed, goesOn, rfl⟩, ?_⟩
  intro other there calls
  rw [found] at there
  cases there
  exact absurd calls notCall

/-- The state after a number of instructions, none of them a call. -/
def runBody (body : List LoweredInstr) (envs : Nat → Environment) (state : State) :
    Nat → Option State
  | 0 => some state
  | position + 1 => do
    let before ← runBody body envs state position
    let instr ← body[position]?
    let outcome ← exec (envs position) instr before
    if instr.op ≠ some .call ∧ outcome.next = .goOn then some (outcome.result before) else none

/-- The instructions run are steps of the body. -/
theorem reaches_of_runBody (convention : Convention) (body : List LoweredInstr)
    (envs : Nat → Environment) (state after : State) (position : Nat)
    (ran : runBody body envs state position = some after) :
    Transitions.Reaches (BodyStep convention body envs) ⟨0, state⟩ ⟨position, after⟩ := by
  induction position generalizing after with
  | zero =>
    cases ran
    exact .start
  | succ position inductionHypothesis =>
    simp only [runBody, Option.bind_eq_bind, Option.bind_eq_some_iff] at ran
    obtain ⟨before, earlier, instr, found, outcome, executed, result⟩ := ran
    split_ifs at result with goesOn
    cases result
    exact .next (inductionHypothesis before earlier)
      (bodyStep_of_exec convention body envs position before instr outcome found executed goesOn.2
        goesOn.1)

/-- The mnemonics are in lower case, as the decoder writes them. -/
def LowerCase (body : List LoweredInstr) : Prop :=
  ∀ instr ∈ body, Text.asciiLower instr.mnemonic = instr.mnemonic

instance (body : List LoweredInstr) : Decidable (LowerCase body) :=
  inferInstanceAs (Decidable (∀ _ ∈ _, _))

/-- The names of an operation that the walk knows by name. -/
structure Named (mnemonic : String) (op : Op) : Prop where
  push : op = .push ↔ mnemonic = "push"
  pop : op = .pop ↔ mnemonic = "pop"
  sub : op = .alu .sub ↔ mnemonic = "sub"
  add : op = .alu .add ↔ mnemonic = "add"
  move : op = .move ↔ mnemonic = "mov" ∨ mnemonic = "movabs"
  call : op = .call ↔ mnemonic = "call"
  ret : op = .ret ↔ mnemonic = "ret" ∨ mnemonic = "retn" ∨ mnemonic = "retf"

instance (mnemonic : String) (op : Op) : Decidable (Named mnemonic op) :=
  decidable_of_iff
    ((op = .push ↔ mnemonic = "push") ∧ (op = .pop ↔ mnemonic = "pop") ∧
      (op = .alu .sub ↔ mnemonic = "sub") ∧ (op = .alu .add ↔ mnemonic = "add") ∧
      (op = .move ↔ mnemonic = "mov" ∨ mnemonic = "movabs") ∧
      (op = .call ↔ mnemonic = "call") ∧
      (op = .ret ↔ mnemonic = "ret" ∨ mnemonic = "retn" ∨ mnemonic = "retf"))
    ⟨fun ⟨push, pop, sub, add, move, call, ret⟩ => ⟨push, pop, sub, add, move, call, ret⟩,
      fun ⟨push, pop, sub, add, move, call, ret⟩ => ⟨push, pop, sub, add, move, call, ret⟩⟩

/-- A lower-case mnemonic names the operation. -/
theorem named_of_op (body : List LoweredInstr) (lower : LowerCase body) (position : Nat)
    (instr : LoweredInstr) (found : body[position]? = some instr) (op : Op)
    (known : instr.op = some op) : Named instr.mnemonic op := by
  have table := Op.ofMnemonic_forall Named (by decide +kernel) _ _ known
  rwa [lower instr (List.mem_of_getElem? found)] at table

/-- A frame restored from `rbp` is a move. -/
theorem move_of_isMovRspFromRbp (instr : LoweredInstr) (op : Op) (named : Named instr.mnemonic op)
    (restores : isMovRspFromRbp instr = true) :
    op = .move ∧ ∃ dst src rest, instr.operands = .reg dst :: .reg src :: rest ∧
      dst.storage = .gp .rsp ∧ src.storage = .gp .rbp := by
  unfold isMovRspFromRbp at restores
  simp only [Bool.and_eq_true, Bool.or_eq_true, beq_iff_eq] at restores
  obtain ⟨name, shape⟩ := restores
  refine ⟨named.move.mpr name, ?_⟩
  split at shape
  next dst src rest operands =>
    simp only [Bool.and_eq_true, isRsp, beq_iff_eq] at shape
    exact ⟨dst, src, rest, operands, shape.1, shape.2⟩
  next => cases shape

/-- A call comes back with the registers of the callee's return. -/
theorem call_result (env : Environment) (state : State) (operands : List Operand)
    (outcome : Outcome) (executed : execCall env state operands = some outcome) :
    (outcome.result state).regs = env.returned.regs ∧
      (outcome.result state).mem = env.returned.mem := by
  unfold execCall at executed
  split at executed
  next target =>
    simp only [Option.bind_eq_bind, Option.bind_eq_some_iff] at executed
    obtain ⟨reads, _, result⟩ := executed
    cases result
    exact ⟨rfl, rfl⟩
  next => cases executed

/-- A system call comes back with the memory that the kernel left. -/
theorem syscall_mem (env : Environment) (state : State) (operands : List Operand)
    (outcome : Outcome) (executed : execSyscall env state operands = some outcome) :
    (outcome.result state).mem = env.returned.mem := by
  unfold execSyscall at executed
  split at executed
  next =>
    cases executed
    rfl
  next => cases executed

end Semasm.X86.Abi
