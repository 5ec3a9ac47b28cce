import Semasm.X86.Abi.Rules

/-!
# The Microsoft x64 checker

At every call the home space must be reserved beside the alignment, and no access
below the stack pointer is allowed.
-/

namespace Semasm.X86.Abi.Win64

/-- `NONVOLATILE_WIN64`. The stack pointer is left to the walk. -/
def nonvolatileWin64 : List Gp := [.rbx, .rbp, .rdi, .rsi, .r12, .r13, .r14, .r15]

/-- `SHADOW_BYTES`. -/
def shadowBytes : Int64 := 32

/-- `below_rsp_displacement`. -/
def belowRspDisplacement (memory : MemOperand) : Option Int64 :=
  match memory.base with
  | some base =>
    if isRsp base ∧ memory.index.isNone ∧ memory.disp < 0 then some memory.disp else none
  | none => none

/-- The rules of Microsoft x64. -/
def rules : Rules where
  name := "the Microsoft x64 ABI"
  atCall := "immediately before every call"
  nonvolatile := nonvolatileWin64
  shadowBytes := some shadowBytes
  belowRsp := belowRspDisplacement
  notesSyscall := false

/-- The result of analysing a body against the Microsoft x64 rules. -/
structure AbiReport where
  findings : List AbiFinding
  isLeaf : Bool
  finalRspDelta : Int64
  maxRedZoneDisp : Int64
  callSites : List CallSiteState
deriving DecidableEq, Repr

/-- `analyze`. -/
def analyze (instrs : List LoweredInstr) : AbiReport :=
  let walk := walk rules instrs
  { findings := walk.findings ++ checkCalleeSaved rules instrs ++ checkRipIndex instrs ++
      (if walk.lowest < 0 then
        [⟨"RED_ZONE_NOT_ALLOWED", .error,
          "function accesses RSP-relative memory at displacement " ++ toString walk.lowest
            ++ " below the stack pointer; the Microsoft x64 ABI "
            ++ "has no red zone and such accesses are unsafe across calls", none⟩]
      else [])
    isLeaf := walk.isLeaf
    finalRspDelta := walk.rspDelta
    maxRedZoneDisp := walk.lowest
    callSites := walk.callSites }

end Semasm.X86.Abi.Win64
