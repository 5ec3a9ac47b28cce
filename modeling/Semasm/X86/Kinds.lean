import Semasm.X86.ProgramRuns

/-!
# Kinds of executed instructions

Lowering gives every instruction the kind of its mnemonic. So the kind of an
instruction that executes is the one of its operation.
-/

namespace Semasm.X86

open Decode

/-- The kind and the signedness of the instruction are those of its mnemonic. -/
def LoweredInstr.Supported (instr : LoweredInstr) : Prop :=
  supportedKind (Text.asciiLower instr.mnemonic) = some (instr.kind, instr.signed)

instance (instr : LoweredInstr) : Decidable instr.Supported :=
  inferInstanceAs (Decidable (_ = _))

/-- Lowered instructions are supported. -/
theorem lower_supported (physical : PhysicalInstruction) (instr : LoweredInstr)
    (lowered : lower physical = .lowered instr) : instr.Supported := by
  unfold lower at lowered
  split at lowered
  · cases lowered
  · rename_i kind signed known
    split at lowered
    · cases lowered
    · cases lowered
      exact known

/-- The kind of an operation. -/
def Op.kind : Op → OpKind
  | .move | .push | .pop => .store
  | .lea | .movzx => .load
  | .alu _ | .inc | .dec | .shl | .shr => .binary
  | .cmp | .test => .compare
  | .jump | .branch _ => .branch
  | .call => .call
  | .ret => .ret
  | .syscall => .unknown
  | .select _ => .select

/-- The kind of a supported instruction is the one of its operation. -/
theorem LoweredInstr.Supported.kind_eq {instr : LoweredInstr} (supported : instr.Supported) (op : Op)
    (known : instr.op = some op) : instr.kind = op.kind := by
  have table := Op.ofMnemonic_forall
    (fun mnemonic op => (supportedKind mnemonic).map Prod.fst = some op.kind) (by decide) _ _ known
  rw [supported] at table
  exact Option.some.inj table

/-- A prefix taken off is in front of the rest. -/
theorem stripPrefix_append (start text rest : List Char)
    (stripped : Text.stripPrefix start text = some rest) : text = start ++ rest := by
  induction start generalizing text with
  | nil =>
    cases text <;> simpa [Text.stripPrefix] using stripped
  | cons expected start inductionHypothesis =>
    cases text with
    | nil => cases stripped
    | cons c text =>
      rw [Text.stripPrefix] at stripped
      split at stripped
      next same => rw [inductionHypothesis text stripped, same, List.cons_append]
      next => cases stripped

/-- A condition with a signedness makes a conditional move. -/
theorem cmov_known (code : String) (signed : Option Bool) (known : cmovSigned code = some signed) :
    (Op.ofMnemonic ("cmov" ++ code)).isSome = true := by
  unfold cmovSigned at known
  split at known <;> first | decide | cases known

theorem op_of_classified (mnemonic : String) (found : OpKind × Option Bool)
    (classified : classifyCmov mnemonic = some found) : (Op.ofMnemonic mnemonic).isSome = true := by
  unfold classifyCmov at classified
  split at classified
  next code stripped =>
    obtain ⟨signed, known, _⟩ := Option.map_eq_some_iff.mp classified
    have text := stripPrefix_append _ _ _ stripped
    have name : mnemonic = "cmov" ++ String.ofList code := by
      apply String.toList_inj.mp
      simpa using text
    rw [name]
    exact cmov_known _ signed known
  next => cases classified

/-- Every supported mnemonic has an operation. -/
theorem op_of_supported (mnemonic : String) (found : OpKind × Option Bool)
    (supported : supportedKind mnemonic = some found) : (Op.ofMnemonic mnemonic).isSome = true := by
  unfold supportedKind at supported
  split at supported <;> first | exact op_of_classified _ found supported | decide
/-- A supported instruction has an operation. -/
theorem LoweredInstr.Supported.exists_op {instr : LoweredInstr} (supported : instr.Supported) :
    ∃ op, instr.op = some op :=
  Option.isSome_iff_exists.mp (op_of_supported _ _ supported)

/-- The state in which the instruction at a moment of a run leaves: the one of its
outcome, the one in which a callee starts, or the one after a return. -/
inductive Leaves (lowered : List LoweredInstr) (envs : Nat → Environment) (point : RunPoint) :
    State → Prop
  | done (instr : LoweredInstr) (outcome : Outcome) (found : lowered[point.position]? = some instr)
      (executed : exec (envs point.clock) instr point.state = some outcome)
      (stays : instr.op ≠ some .ret) : Leaves lowered envs point (outcome.result point.state)
  | entered (instr : LoweredInstr) (found : lowered[point.position]? = some instr)
      (calls : instr.op = some .call) :
      Leaves lowered envs point (point.state.called (envs point.clock))
  | returned (instr : LoweredInstr) (found : lowered[point.position]? = some instr)
      (returns : instr.op = some .ret) :
      Leaves lowered envs point (point.state.returned instr.operands)

/-- Only an instruction of the program is left. -/
theorem Leaves.found {lowered : List LoweredInstr} {envs : Nat → Environment} {point : RunPoint}
    {after : State} (leaves : Leaves lowered envs point after) :
    ∃ instr, lowered[point.position]? = some instr := by
  cases leaves with
  | done instr _ found => exact ⟨instr, found⟩
  | entered instr found => exact ⟨instr, found⟩
  | returned instr found => exact ⟨instr, found⟩

/-- A step of a program leaves the instruction at its moment. -/
theorem ProgramStep.leaves {lowered : List LoweredInstr} {physical : List PhysicalInstruction}
    {envs : Nat → Environment} {point after : RunPoint}
    (step : ProgramStep lowered physical envs point after) :
    Leaves lowered envs point after.state := by
  rcases step with ⟨instr, outcome, found, executed, through⟩ | transfer
  · refine .done instr outcome found executed ?_
    intro returns
    obtain ⟨op, known, ran⟩ := op_of_exec _ _ _ _ executed
    rw [returns] at known
    cases known
    have leaves : outcome.next = .leave := by
      simp only [Op.exec] at ran
      unfold execRet at ran
      split at ran
      · cases ran
        rfl
      · cases ran
        rfl
      · cases ran
    rw [leaves] at through
    cases through
  · cases transfer with
    | jump instr op outcome operand address position found known jumps executed =>
      refine .done instr outcome found executed ?_
      rw [known]
      rcases jumps with rfl | ⟨condition, rfl⟩ <;> simp
    | enter instr operand address position found known => exact .entered instr found known
    | back instr position found known => exact .returned instr found known

end Semasm.X86
