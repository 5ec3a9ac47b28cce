import Semasm.X86.Lower

/-!
# Calling-convention checks

The System V and the Microsoft x64 checkers walk a function body once and scan its
ends for the registers it saves and restores. The two differ in their nonvolatile
registers, in what they ask at a call, in the accesses below the stack pointer they
count, and in the words of their messages; `Rules` holds these differences.

The stack delta is a machine integer that wraps around.
-/

namespace Semasm.X86.Abi

/-- Severity of an ABI finding. -/
inductive Severity where
  | error | warning | info
deriving DecidableEq, Repr

/-- A single ABI conformance finding. -/
structure AbiFinding where
  code : String
  severity : Severity
  message : String
  index : Option Nat
deriving DecidableEq, Repr

/-- `AbiReport::is_clean`: no finding is an error. -/
def isClean (findings : List AbiFinding) : Bool :=
  findings.all (fun finding => finding.severity != .error)

/-- The name of a register in messages. -/
def gpName : Gp → String
  | .rax => "Rax" | .rbx => "Rbx" | .rcx => "Rcx" | .rdx => "Rdx"
  | .rsi => "Rsi" | .rdi => "Rdi" | .rsp => "Rsp" | .rbp => "Rbp"
  | .r8 => "R8" | .r9 => "R9" | .r10 => "R10" | .r11 => "R11"
  | .r12 => "R12" | .r13 => "R13" | .r14 => "R14" | .r15 => "R15"

/-- `STACK_ALIGN`. -/
def stackAlign : Int64 := 16

/-- `ENTRY_RSP_MOD`: at function entry the stack pointer is 8 modulo 16. -/
def entryRspMod : Int64 := 8

/-- The tracked stack state at one point during the walk. -/
structure StackState where
  rspDelta : Int64
  rspAlign : Int64
deriving DecidableEq, Repr

/-- The stack state of a delta. -/
def StackState.of (delta : Int64) : StackState :=
  ⟨delta, ((entryRspMod + delta) % stackAlign + stackAlign) % stackAlign⟩

/-- `StackState::is_aligned`. -/
def StackState.isAligned (state : StackState) : Bool := state.rspAlign == 0

/-- Stack state immediately before a call. -/
structure CallSiteState where
  index : Nat
  before : StackState
deriving DecidableEq, Repr

/-- What distinguishes the two checkers. -/
structure Rules where
  /-- The convention's name in messages. -/
  name : String
  /-- Where a call asks for alignment, in messages. -/
  atCall : String
  /-- The registers a function must preserve. -/
  nonvolatile : List Gp
  /-- The bytes to be reserved for a call. -/
  shadowBytes : Option Int64
  /-- The displacement of an access below the stack pointer, where it counts. -/
  belowRsp : MemOperand → Option Int64
  /-- System calls are noted. -/
  notesSyscall : Bool

/-- `is_rsp`. -/
def isRsp (register : Register) : Bool := register.storage == .gp .rsp

/-- `gp_from_reg`. -/
def gpFromReg (register : Register) : Option Gp :=
  match register.storage with
  | .gp cell => some cell
  | _ => none

/-- The register behind a register operand. -/
def operandGp : Operand → Option Gp
  | .reg register => gpFromReg register
  | _ => none

/-- The first operand is a view of the stack pointer. -/
def startsWithRsp (operands : List Operand) : Bool :=
  match operands.head? with
  | some (.reg register) => isRsp register
  | _ => false

/-- `is_mov_rsp_from_rbp`. -/
def isMovRspFromRbp (instr : LoweredInstr) : Bool :=
  (instr.mnemonic == "mov" || instr.mnemonic == "movabs") &&
    match instr.operands with
    | .reg dst :: .reg src :: _ => isRsp dst && src.storage == .gp .rbp
    | _ => false

/-- A register is listed once. -/
def addOnce (out : List Gp) (cell : Gp) : List Gp := if cell ∈ out then out else out ++ [cell]

/-- `written_nonvolatile`: the nonvolatile registers, the stack pointer apart, that
an instruction other than `push` and `pop` names. -/
def writtenNonvolatile (nonvolatile : List Gp) (instrs : List LoweredInstr) : List Gp :=
  let data := instrs.filter (fun instr => !(instr.mnemonic == "push" || instr.mnemonic == "pop"))
  let named := data.flatMap (fun instr => instr.operands.filterMap operandGp)
  (named.filter (fun cell => nonvolatile.contains cell && cell != .rsp)).foldl addOnce []

/-- The prologue goes on with an instruction. -/
def inPrologue (instr : LoweredInstr) : Bool :=
  instr.mnemonic == "push" ||
    ((instr.mnemonic == "sub" || instr.mnemonic == "add") && !startsWithRsp instr.operands)

/-- The register that an instruction of the given mnemonic names first. -/
def namedBy (mnemonic : String) (instr : LoweredInstr) : Option Gp :=
  if instr.mnemonic == mnemonic then instr.operands.head?.bind operandGp else none

/-- `prologue_saved`: the registers pushed before the first instruction that ends the
prologue. -/
def prologueSaved (instrs : List LoweredInstr) : List Gp :=
  ((instrs.takeWhile inPrologue).filterMap (namedBy "push")).foldl addOnce []

/-- The epilogue goes on, backwards, with an instruction. -/
def inEpilogue (instr : LoweredInstr) : Bool :=
  instr.mnemonic == "ret" || instr.mnemonic == "retn" || instr.mnemonic == "retf" ||
    instr.mnemonic == "add" || instr.mnemonic == "sub" ||
    (instr.mnemonic == "pop" && !startsWithRsp instr.operands)

/-- `epilogue_restored`: the registers popped behind the last instruction that is not
part of the epilogue, scanned backwards. -/
def epilogueRestored (instrs : List LoweredInstr) : List Gp :=
  (instrs.reverse.takeWhile inEpilogue).filterMap (namedBy "pop")

/-- `check_callee_saved`. -/
def checkCalleeSaved (rules : Rules) (instrs : List LoweredInstr) : List AbiFinding :=
  let saved := prologueSaved instrs
  let restored := epilogueRestored instrs
  (writtenNonvolatile rules.nonvolatile instrs).flatMap (fun cell =>
    (if cell ∈ saved then [] else
      [⟨"CALLEE_SAVED_NOT_PRESERVED", .error,
        "nonvolatile register " ++ gpName cell ++ " is written but never pushed in the prologue; "
          ++ rules.name ++ " requires callee-saved registers to be preserved", none⟩]) ++
    if cell ∈ restored then [] else
      [⟨"CALLEE_SAVED_NOT_RESTORED", .error,
        "nonvolatile register " ++ gpName cell ++ " is written but never popped in the epilogue; "
          ++ rules.name ++ " requires callee-saved registers to be restored", none⟩])

/-- `check_rip_index`. -/
def checkRipIndex (instrs : List LoweredInstr) : List AbiFinding :=
  instrs.zipIdx.flatMap (fun (instr, index) => instr.operands.filterMap (fun operand =>
    match operand with
    | .mem memory =>
      if memory.base.map Register.storage = some .rip ∧ memory.index.isSome then
        some ⟨"RIP_INDEX", .error,
          "memory operand at index " ++ toString index ++ " uses RIP base with an index register "
            ++ "(NASM cannot encode RIP-relative+index; typical AV)", some index⟩
      else none
    | _ => none))

/-- Effect of one instruction on the walk. -/
structure Step where
  rspChange : Int64
  isCall : Bool
  isRet : Bool
  isSyscall : Bool
  belowRsp : Option Int64
deriving DecidableEq, Repr

/-- The change of the tracked delta by an instruction. -/
def rspChange (instr : LoweredInstr) : Int64 :=
  if instr.mnemonic = "push" then 8
  else if instr.mnemonic = "pop" then -8
  else if instr.mnemonic = "sub" ∨ instr.mnemonic = "add" then
    match instr.operands with
    | .reg register :: .imm count :: _ =>
      if isRsp register then (if instr.mnemonic = "sub" then count else -count) else 0
    | _ => 0
  else 0

/-- `step`. -/
def step (rules : Rules) (instr : LoweredInstr) : Step where
  rspChange := rspChange instr
  isCall := instr.mnemonic == "call"
  isRet := instr.mnemonic == "ret" || instr.mnemonic == "retn" || instr.mnemonic == "retf"
  isSyscall := rules.notesSyscall && instr.mnemonic == "syscall"
  belowRsp :=
    if instr.kind = .store ∨ instr.kind = .load then
      (instr.operands.filterMap (fun operand =>
        match operand with
        | .mem memory => rules.belowRsp memory
        | _ => none)).getLast?
    else none

/-- The findings of a call. -/
def callFindings (rules : Rules) (index : Nat) (state : StackState) : List AbiFinding :=
  (if state.isAligned then [] else
    [⟨"STACK_ALIGN_CALL", .error,
      "call at index " ++ toString index ++ ": RSP is " ++ toString state.rspAlign
        ++ "-byte aligned (delta " ++ toString state.rspDelta ++ "); " ++ rules.name
        ++ " requires 16-byte alignment " ++ rules.atCall, some index⟩]) ++
  match rules.shadowBytes with
  | none => []
  | some bytes =>
    if state.rspDelta < bytes then
      [⟨"SHADOW_SPACE_MISSING", .error,
        "call at index " ++ toString index ++ ": only " ++ toString state.rspDelta
          ++ " bytes of stack reserved since entry, expected at least the " ++ toString bytes
          ++ "-byte shadow store for the Microsoft x64 ABI", some index⟩]
    else []

/-- The findings of a return. -/
def retFindings (index : Nat) (delta : Int64) : List AbiFinding :=
  if delta = 0 then [] else
    [⟨"STACK_BALANCE_RET", .error,
      "ret at index " ++ toString index ++ ": RSP delta is " ++ toString delta
        ++ ", expected 0; the stack must be balanced before returning", some index⟩]

/-- The state of the walk over a body. -/
structure Walk where
  findings : List AbiFinding
  rspDelta : Int64
  callSites : List CallSiteState
  isLeaf : Bool
  hasSyscall : Bool
  lowest : Int64
deriving DecidableEq, Repr

/-- The state before the first instruction. -/
def Walk.start : Walk := ⟨[], 0, [], true, false, 0⟩

/-- One turn of the walk. A frame restored from `rbp` is taken to be the one right after
`push rbp`. -/
def Walk.visit (rules : Rules) (walk : Walk) (instr : LoweredInstr) (index : Nat) : Walk :=
  if isMovRspFromRbp instr then { walk with rspDelta := 8 }
  else
    let state := StackState.of walk.rspDelta
    let effect := step rules instr
    { findings := walk.findings ++ (if effect.isCall then callFindings rules index state else []) ++
        (if effect.isRet then retFindings index walk.rspDelta else [])
      rspDelta := walk.rspDelta + effect.rspChange
      callSites := if effect.isCall then walk.callSites ++ [⟨index, state⟩] else walk.callSites
      isLeaf := walk.isLeaf && !effect.isCall
      hasSyscall := walk.hasSyscall || effect.isSyscall
      lowest := match effect.belowRsp with
        | some displacement => if displacement < walk.lowest then displacement else walk.lowest
        | none => walk.lowest }

/-- The walk over a body. -/
def walk (rules : Rules) (instrs : List LoweredInstr) : Walk :=
  instrs.zipIdx.foldl (fun walk (instr, index) => walk.visit rules instr index) Walk.start

end Semasm.X86.Abi
