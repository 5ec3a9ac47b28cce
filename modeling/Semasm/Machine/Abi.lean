import Semasm.Library.Displacement
import Semasm.X86.Abi.Rules
import Mathlib.Tactic.ByContra

/-!
# The load-store checkers

The AAPCS64 and the LP64 checkers walk a function body once with a tracked stack delta and
scan its ends for the registers it saves and restores. The two differ in how they read an
instruction and in the words of their messages; `Checker` holds these differences.

The stack delta is a machine integer that wraps around.
-/

namespace Semasm.Machine.Abi

open Library
open X86 (OpKind)
open X86.Abi (AbiFinding Severity)

/-- `STACK_ALIGN`. -/
def stackAlign : Int64 := 16

/-- `ENTRY_SP_MOD`: at function entry the stack pointer is aligned. -/
def entrySpMod : Int64 := 0

/-- The tracked stack state at one point during the walk. -/
structure StackState where
  spDelta : Int64
  spAlign : Int64
deriving DecidableEq, Repr

/-- The stack state of a delta. -/
def StackState.of (delta : Int64) : StackState :=
  ⟨delta, ((entrySpMod + delta) % stackAlign + stackAlign) % stackAlign⟩

/-- `StackState::is_aligned`. -/
def StackState.isAligned (state : StackState) : Bool := state.spAlign == 0

/-- Stack state immediately before a call. -/
structure CallSiteState where
  index : Nat
  before : StackState
deriving DecidableEq, Repr

/-- Effect of one instruction on the walk. -/
structure Step where
  spChange : Int64
  isCall : Bool
  isRet : Bool
deriving DecidableEq, Repr

/-- What an analysis reports. -/
structure AbiReport where
  findings : List AbiFinding
  isLeaf : Bool
  finalSpDelta : Int64
  callSites : List CallSiteState
deriving DecidableEq, Repr

/-- `AbiReport::is_clean`: no finding is an error or a warning. -/
def AbiReport.isClean (report : AbiReport) : Bool :=
  !report.findings.any (fun finding =>
    finding.severity == .error || finding.severity == .warning)

/-- What distinguishes the two checkers. -/
structure Checker (Instr Gp : Type) where
  /-- The convention's name in messages. -/
  name : String
  /-- The name of a call in messages. -/
  callName : String
  /-- The name of a register in messages. -/
  gpName : Gp → String
  /-- The kind of an instruction. -/
  kind : Instr → OpKind
  /-- The effect of an instruction. -/
  step : Instr → Step
  /-- The registers of the register operands. -/
  named : Instr → List Gp
  /-- The registers stored through the stack pointer. -/
  spStoreTargets : Instr → List Gp
  /-- The registers loaded through the stack pointer. -/
  spLoadTargets : Instr → List Gp
  /-- A register must be preserved, the stack pointer apart. -/
  nonvolatile : Gp → Bool
  /-- The register with the return address. -/
  link : Gp
  /-- The finding about a return address that is not saved. -/
  linkClobbered : AbiFinding

namespace Checker

variable {Instr Gp : Type} [DecidableEq Gp] (checker : Checker Instr Gp)

/-- A register is listed once. -/
def addOnce (out : List Gp) (cell : Gp) : List Gp := if cell ∈ out then out else out ++ [cell]

/-- `written_nonvolatile`: the nonvolatile registers that a register operand names. -/
def writtenNonvolatile (instrs : List Instr) : List Gp :=
  ((instrs.flatMap checker.named).filter checker.nonvolatile).foldl addOnce []

/-- `prologue_saved`: the registers stored through the stack pointer by the first unbroken
run of such stores. -/
def prologueSaved (instrs : List Instr) : List Gp :=
  let saves (instr : Instr) : Bool := !(checker.spStoreTargets instr).isEmpty
  (((instrs.dropWhile (fun instr => !saves instr)).takeWhile saves).flatMap
    checker.spStoreTargets).foldl addOnce []

/-- The epilogue goes on, backwards, with an instruction. -/
def inEpilogue (instr : Instr) : Bool :=
  checker.kind instr == .ret || checker.kind instr == .binary || checker.kind instr == .unknown ||
    !(checker.spLoadTargets instr).isEmpty

/-- `epilogue_restored`: the registers loaded through the stack pointer behind the last
instruction that is not part of the epilogue, scanned backwards. -/
def epilogueRestored (instrs : List Instr) : List Gp :=
  ((instrs.reverse.takeWhile checker.inEpilogue).flatMap checker.spLoadTargets).foldl addOnce []

/-- `check_callee_saved`. -/
def checkCalleeSaved (instrs : List Instr) : List AbiFinding :=
  let saved := checker.prologueSaved instrs
  let restored := checker.epilogueRestored instrs
  (checker.writtenNonvolatile instrs).flatMap (fun cell =>
    (if cell ∈ saved then [] else
      [⟨"CALLEE_SAVED_NOT_PRESERVED", .error,
        "nonvolatile register " ++ checker.gpName cell
          ++ " is written but never saved in the prologue; " ++ checker.name
          ++ " requires callee-saved registers to be preserved", none⟩]) ++
    if cell ∈ restored then [] else
      [⟨"CALLEE_SAVED_NOT_RESTORED", .error,
        "nonvolatile register " ++ checker.gpName cell
          ++ " is written but never restored in the epilogue; " ++ checker.name
          ++ " requires callee-saved registers to be restored", none⟩])

/-- The findings of a call. -/
def callFindings (index : Nat) (state : StackState) : List AbiFinding :=
  if state.isAligned then [] else
    [⟨"STACK_ALIGN_CALL", .error,
      checker.callName ++ " at index " ++ toString index ++ ": SP is " ++ toString state.spAlign
        ++ "-byte aligned (delta " ++ toString state.spDelta ++ "); " ++ checker.name
        ++ " requires 16-byte alignment at every call", some index⟩]

/-- The findings of a return. -/
def retFindings (index : Nat) (delta : Int64) : List AbiFinding :=
  if delta = 0 then [] else
    [⟨"STACK_BALANCE_RET", .error,
      "ret at index " ++ toString index ++ ": SP delta is " ++ toString delta
        ++ ", expected 0; the stack must be balanced before returning", some index⟩]

/-- The state of the walk over a body. -/
structure Walk where
  findings : List AbiFinding
  spDelta : Int64
  callSites : List CallSiteState
  isLeaf : Bool
  linkEverSaved : Bool
deriving DecidableEq, Repr

/-- The state before the first instruction. -/
def Walk.start : Walk := ⟨[], 0, [], true, false⟩

/-- One turn of the walk. -/
def visit (walk : Walk) (instr : Instr) (index : Nat) : Walk :=
  let state := StackState.of walk.spDelta
  let effect := checker.step instr
  { findings := walk.findings ++
      (if effect.isCall then checker.callFindings index state else []) ++
      (if effect.isRet then retFindings index walk.spDelta else [])
    spDelta := walk.spDelta + effect.spChange
    callSites := if effect.isCall then walk.callSites ++ [⟨index, state⟩] else walk.callSites
    isLeaf := walk.isLeaf && !effect.isCall
    linkEverSaved := walk.linkEverSaved || (checker.spStoreTargets instr).contains checker.link }

/-- The walk over a body. -/
def walk (instrs : List Instr) : Walk :=
  instrs.zipIdx.foldl (fun walk entry => checker.visit walk entry.1 entry.2) Walk.start

/-- `analyze`. The return address counts as written where a register operand names its
register. -/
def analyze (instrs : List Instr) : AbiReport :=
  let walk := checker.walk instrs
  { findings := walk.findings ++ checker.checkCalleeSaved instrs ++
      if !walk.isLeaf && !walk.linkEverSaved && (instrs.flatMap checker.named).contains checker.link
      then [checker.linkClobbered] else []
    isLeaf := walk.isLeaf
    finalSpDelta := walk.spDelta
    callSites := walk.callSites }

end Checker

end Semasm.Machine.Abi
