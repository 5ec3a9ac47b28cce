import Semasm.X86.Abi.Rules

/-!
# The System V checker

Beside the walk and the callee-saved scan the checker warns of volatile registers
read after a call, and refuses the red zone in a function that calls.
-/

namespace Semasm.X86.Abi.SysV

/-- `NONVOLATILE_GP`. -/
def nonvolatileGp : List Gp := [.rbx, .rbp, .r12, .r13, .r14, .r15, .rsp]

/-- `RED_ZONE_BYTES`. -/
def redZoneBytes : Int64 := 128

/-- `red_zone_displacement`. -/
def redZoneDisplacement (memory : MemOperand) : Option Int64 :=
  match memory.base with
  | some base =>
    if isRsp base ∧ memory.index.isNone ∧ memory.disp ≤ 0 ∧ -redZoneBytes ≤ memory.disp then
      some memory.disp
    else none
  | none => none

/-- The rules of System V. -/
def rules : Rules where
  name := "System V"
  atCall := "at every call site"
  nonvolatile := nonvolatileGp
  shadowBytes := none
  belowRsp := redZoneDisplacement
  notesSyscall := true

/-- `CALLER_SAVED_WATCH`. -/
def callerSavedWatch : List Gp := [.rdi, .rsi, .rdx, .rcx, .r8, .r9]

/-- The registers of an address. -/
def addressGps (memory : MemOperand) : List Gp :=
  (memory.base.bind gpFromReg).toList ++ (memory.index.bind gpFromReg).toList

/-- The registers that an operand names or computes its address from. -/
def operandGps : Operand → List Gp
  | .reg register => (gpFromReg register).toList
  | .mem memory => addressGps memory
  | .imm _ => []

/-- The default: the first register is written, every other one is read. -/
def collectDefault (operands : List Operand) : List Gp × List Gp :=
  operands.foldl (fun (writes, reads) operand =>
    match operand with
    | .reg register =>
      match gpFromReg register with
      | some cell => if writes.isEmpty then ([cell], reads) else (writes, reads ++ [cell])
      | none => (writes, reads)
    | .mem memory => (writes, reads ++ addressGps memory)
    | .imm _ => (writes, reads)) ([], [])

/-- `collect_reg_ops`: the registers written and the registers read. -/
def collectRegOps (instr : LoweredInstr) : List Gp × List Gp :=
  if instr.mnemonic ∈ ["push", "cmp", "test", "call", "jmp", "ret", "retn"] then
    ([], instr.operands.flatMap operandGps)
  else
    let first := (instr.operands.head?.bind operandGp).toList
    if instr.mnemonic = "pop" then (first, [])
    else if instr.mnemonic ∈ ["inc", "dec", "neg", "not"] then (first, first)
    else collectDefault instr.operands

/-- The state of the scan for volatile registers read after a call. -/
structure Watch where
  findings : List AbiFinding
  live : List Gp
  poisoned : List Gp
deriving DecidableEq, Repr

/-- A call poisons the watched registers that are live. -/
def Watch.call (watch : Watch) : Watch :=
  { watch with
    live := watch.live.filter (fun cell => !callerSavedWatch.contains cell)
    poisoned := watch.poisoned ++ callerSavedWatch.filter (fun cell => watch.live.contains cell) }

/-- A poisoned register that is read is reported once. -/
def Watch.read (index : Nat) (watch : Watch) (cell : Gp) : Watch :=
  if cell ∈ callerSavedWatch ∧ cell ∈ watch.poisoned then
    { watch with
      findings := watch.findings ++ [⟨"CALLER_SAVED", .warning,
        "register " ++ gpName cell ++ " read at index " ++ toString index
          ++ " after call/syscall clobber without redefine "
          ++ "(SysV volatile; prefer RBX/R12+ for live counters)", some index⟩]
      poisoned := watch.poisoned.filter (fun other => other != cell) }
  else watch

/-- A watched register that is written is live again. -/
def Watch.write (watch : Watch) (cell : Gp) : Watch :=
  if cell ∈ callerSavedWatch then
    { watch with
      live := watch.live ++ [cell]
      poisoned := watch.poisoned.filter (fun other => other != cell) }
  else watch

/-- One turn of the scan. -/
def Watch.visit (watch : Watch) (entry : LoweredInstr × Nat) : Watch :=
  let (instr, index) := entry
  if instr.mnemonic = "call" ∨ instr.mnemonic = "syscall" then watch.call
  else
    let (writes, reads) := collectRegOps instr
    writes.foldl Watch.write (reads.foldl (Watch.read index) watch)

/-- `check_caller_saved`. -/
def checkCallerSaved (instrs : List LoweredInstr) : List AbiFinding :=
  (instrs.zipIdx.foldl Watch.visit ⟨[], callerSavedWatch, []⟩).findings

/-- The result of analysing a body against the System V rules. -/
structure AbiReport where
  findings : List AbiFinding
  isLeaf : Bool
  hasSyscall : Bool
  finalRspDelta : Int64
  maxRedZoneDisp : Int64
  callSites : List CallSiteState
deriving DecidableEq, Repr

/-- `analyze`. -/
def analyze (instrs : List LoweredInstr) : AbiReport :=
  let walk := walk rules instrs
  { findings := walk.findings ++ checkCalleeSaved rules instrs ++ checkRipIndex instrs ++
      checkCallerSaved instrs ++
      (if !walk.isLeaf ∧ walk.lowest < 0 then
        [⟨"RED_ZONE_NON_LEAF", .error,
          "function performs a call yet accesses the red zone at displacement "
            ++ toString walk.lowest ++ " (RSP-relative, below the stack pointer); the red zone "
            ++ "is clobbered by calls and may only be used by leaf functions", none⟩]
      else [])
    isLeaf := walk.isLeaf
    hasSyscall := walk.hasSyscall
    finalRspDelta := walk.rspDelta
    maxRedZoneDisp := walk.lowest
    callSites := walk.callSites }

end Semasm.X86.Abi.SysV
