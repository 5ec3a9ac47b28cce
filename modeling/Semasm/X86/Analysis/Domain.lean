import Mathlib.Data.Fintype.Basic
import Mathlib.Data.Fintype.Pi
import Semasm.X86.Lower

/-!
# The abstract state of the forward analysis

For each general-purpose register the analysis keeps an abstract value once it
was assigned, and beside the registers the change of the stack pointer, the
context of the last comparison and two flags. Joining two states keeps a register
that only one of them has as that one has it.
-/

namespace Semasm.X86

namespace Analysis

/-- Every register. -/
def allGp : List Gp :=
  [.rax, .rbx, .rcx, .rdx, .rsi, .rdi, .rsp, .rbp, .r8, .r9, .r10, .r11, .r12, .r13, .r14, .r15]

theorem mem_allGp (cell : Gp) : cell ∈ allGp := by
  cases cell <;> decide

instance : Fintype Gp := ⟨⟨allGp, by decide⟩, mem_allGp⟩

/-- An abstract register value. -/
inductive AbsVal where
  | uninit
  | const (value : Int64)
  | conflict
deriving DecidableEq, Repr

/-- `AbsVal::join`. -/
def AbsVal.join : AbsVal → AbsVal → AbsVal
  | .const one, .const two => if one = two then .const one else .conflict
  | .uninit, .uninit => .uninit
  | _, _ => .conflict

/-- Abstract state of one register: its value and the width last seen writing it. -/
structure RegAbs where
  value : AbsVal
  width : Width
deriving DecidableEq, Repr

/-- The join of two register states keeps the larger width. -/
def RegAbs.join (one two : RegAbs) : RegAbs :=
  ⟨one.value.join two.value, if two.width.bits ≤ one.width.bits then one.width else two.width⟩

/-- The signedness context carried after a comparison. -/
inductive CmpContext where
  | none | signed | unsigned
deriving DecidableEq, Repr

/-- The join of two contexts. -/
def CmpContext.join : CmpContext → CmpContext → CmpContext
  | .none, other | other, .none => other
  | .signed, .signed => .signed
  | _, _ => .unsigned

/-- Abstract state at a program point. -/
structure BlockState where
  regs : Gp → Option RegAbs
  rspDelta : Int64
  rspKnown : Bool
  cmp : CmpContext
  memoryKnown : Bool
deriving DecidableEq

/-- `BlockState::bottom`: the state at the entry of the analysed region. -/
def BlockState.bottom : BlockState := ⟨fun _ => .none, 0, true, .none, true⟩

/-- The join of what two states keep of a register. -/
def joinRegs : Option RegAbs → Option RegAbs → Option RegAbs
  | some one, some two => some (one.join two)
  | some one, .none => some one
  | .none, other => other

/-- `BlockState::join`. -/
def BlockState.join (one two : BlockState) : BlockState where
  regs cell := joinRegs (one.regs cell) (two.regs cell)
  rspDelta := if one.rspDelta = two.rspDelta then one.rspDelta
    else if one.rspDelta ≤ two.rspDelta then one.rspDelta else two.rspDelta
  rspKnown := one.rspKnown && two.rspKnown && one.rspDelta == two.rspDelta
  cmp := one.cmp.join two.cmp
  memoryKnown := one.memoryKnown && two.memoryKnown

/-- The state with one register set. -/
def BlockState.insert (state : BlockState) (cell : Gp) (value : RegAbs) : BlockState :=
  { state with regs := Function.update state.regs cell (some value) }

@[simp] theorem BlockState.insert_same (state : BlockState) (cell : Gp) (value : RegAbs) :
    (state.insert cell value).regs cell = some value :=
  Function.update_self _ _ _

@[simp] theorem BlockState.insert_other (state : BlockState) (cell other : Gp) (value : RegAbs)
    (different : other ≠ cell) : (state.insert cell value).regs other = state.regs other :=
  Function.update_of_ne different _ _

/-- `gp_of`: the cell behind a register view. -/
def gpOf (register : Register) : Option Gp :=
  match register.storage with
  | .gp cell => some cell
  | _ => .none

/-- The general-purpose register that the first operand names, with its width. -/
def firstCell (operands : List Operand) : Option (Gp × Width) :=
  match operands.head? with
  | some (.reg register) => (gpOf register).map (fun cell => (cell, register.width))
  | _ => .none

/-- The state with an unknown value in the register that the first operand names. -/
def BlockState.clobberFirst (state : BlockState) (operands : List Operand) : BlockState :=
  match firstCell operands with
  | some (cell, width) => state.insert cell ⟨.conflict, width⟩
  | .none => state

/-- `VOLATILE_GP`: the caller-saved registers of System V. -/
def volatileGp : List Gp := [.rax, .rcx, .rdx, .rsi, .rdi, .r8, .r9, .r10, .r11]

/-- The state with an unknown value in some registers. -/
def BlockState.clobberAll (state : BlockState) (cells : List Gp) : BlockState :=
  cells.foldl (fun state cell => state.insert cell ⟨.conflict, .b64⟩) state

/-- `invalidate_unknown`. -/
def BlockState.invalidateUnknown (state : BlockState) : BlockState :=
  { state.clobberAll allGp with cmp := .none, rspKnown := false, memoryKnown := false }

/-- The value a move leaves, from its second operand. -/
def movedValue (state : BlockState) (operands : List Operand) : AbsVal :=
  match (operands[1]? : Option Operand) with
  | some (.imm value) => .const value
  | some (.reg source) =>
    match (gpOf source).bind state.regs with
    | some found => found.value
    | .none => .conflict
  | _ => .conflict

/-- The state after a move into the register that the first operand names. -/
def BlockState.moved (state : BlockState) (operands : List Operand) : BlockState :=
  match firstCell operands with
  | some (cell, width) => state.insert cell ⟨movedValue state operands, width⟩
  | .none => state

/-- The stack pointer adjustment of `push` and `pop`. -/
def BlockState.adjustStack (state : BlockState) (mnemonic : String) : BlockState :=
  if mnemonic = "push" ∧ state.rspKnown then { state with rspDelta := state.rspDelta + 8 }
  else if mnemonic = "pop" ∧ state.rspKnown then { state with rspDelta := state.rspDelta - 8 }
  else state

@[simp] theorem BlockState.adjustStack_regs (state : BlockState) (mnemonic : String) :
    (state.adjustStack mnemonic).regs = state.regs := by
  unfold BlockState.adjustStack
  split
  · rfl
  · split <;> rfl

/-- `transfer`: the abstract effect of one instruction. -/
def transfer (instr : LoweredInstr) (state : BlockState) : BlockState :=
  match instr.kind with
  | .store => (state.moved instr.operands).adjustStack instr.mnemonic
  | .load | .binary | .select => state.clobberFirst instr.operands
  | .compare =>
    { state with cmp := if instr.signed = some true then .signed else .unsigned }
  | .call =>
    let clobbered := state.clobberAll volatileGp
    if clobbered.rspKnown then { clobbered with rspDelta := clobbered.rspDelta + 8 } else clobbered
  | .unknown => state.invalidateUnknown
  | .branch | .ret | .nop => state

/-- What is kept of a register after some are clobbered. -/
theorem BlockState.clobberAll_regs (state : BlockState) (cells : List Gp) (cell : Gp) :
    (state.clobberAll cells).regs cell =
      if cell ∈ cells then some ⟨.conflict, .b64⟩ else state.regs cell := by
  unfold BlockState.clobberAll
  induction cells generalizing state with
  | nil => rfl
  | cons first cells inductionHypothesis =>
    rw [List.foldl_cons, inductionHypothesis]
    by_cases later : cell ∈ cells
    · rw [if_pos later, if_pos (List.mem_cons_of_mem _ later)]
    · rw [if_neg later]
      by_cases same : cell = first
      · subst same
        rw [if_pos List.mem_cons_self, BlockState.insert_same]
      · rw [if_neg (by simp [same, later]), BlockState.insert_other _ _ _ _ same]

example : AbsVal.join .uninit (.const 3) = .conflict := by decide

end Analysis

end Semasm.X86
