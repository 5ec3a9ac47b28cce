import Mathlib.Tactic.ByContra
import Mathlib.Tactic.SplitIfs
import Mathlib.Tactic.Tauto
import Semasm.X86.Abi.SysV
import Semasm.X86.Abi.Win64

/-!
# What a clean verdict says

The two checkers under one name, the stack delta each tracks before an instruction,
and the facts a clean verdict gives about calls, returns and written registers.
-/

namespace Semasm.X86.Abi

/-- The calling convention of a checker. -/
inductive Convention where
  | sysV | win64
deriving DecidableEq, Repr

namespace Convention

/-- The rules of a convention. -/
def rules : Convention → Rules
  | .sysV => SysV.rules
  | .win64 => Win64.rules

/-- The findings of a checker. -/
def findings (convention : Convention) (instrs : List LoweredInstr) : List AbiFinding :=
  match convention with
  | .sysV => (SysV.analyze instrs).findings
  | .win64 => (Win64.analyze instrs).findings

/-- The checker judges the body clean. -/
def Clean (convention : Convention) (instrs : List LoweredInstr) : Prop :=
  isClean (convention.findings instrs) = true

instance (convention : Convention) (instrs : List LoweredInstr) :
    Decidable (convention.Clean instrs) :=
  inferInstanceAs (Decidable (_ = _))

/-- The stack delta tracked before the instruction at a position. -/
def trackedDelta (convention : Convention) (instrs : List LoweredInstr) (position : Nat) : Int64 :=
  (walk convention.rules (instrs.take position)).rspDelta

end Convention

/-- The walk over one more instruction. -/
theorem walk_append (rules : Rules) (instrs : List LoweredInstr) (instr : LoweredInstr) :
    walk rules (instrs ++ [instr]) = (walk rules instrs).visit rules instr instrs.length := by
  simp [walk, List.zipIdx_append]

/-- The delta after one turn of the walk. -/
theorem visit_delta (rules : Rules) (walk : Walk) (instr : LoweredInstr) (index : Nat) :
    (walk.visit rules instr index).rspDelta =
      if isMovRspFromRbp instr then 8 else walk.rspDelta + rspChange instr := by
  unfold Walk.visit
  split_ifs <;> rfl

theorem trackedDelta_zero (convention : Convention) (instrs : List LoweredInstr) :
    convention.trackedDelta instrs 0 = 0 := rfl

/-- The delta tracked behind an instruction. -/
theorem trackedDelta_succ (convention : Convention) (instrs : List LoweredInstr) (position : Nat)
    (instr : LoweredInstr) (found : instrs[position]? = some instr) :
    convention.trackedDelta instrs (position + 1) =
      if isMovRspFromRbp instr then 8
      else convention.trackedDelta instrs position + rspChange instr := by
  unfold Convention.trackedDelta
  rw [List.take_add_one, found, Option.toList_some, walk_append, visit_delta]

/-- Later turns keep the findings. -/
theorem findings_kept (rules : Rules) (entries : List (LoweredInstr × Nat)) (walk : Walk) :
    walk.findings ⊆ (entries.foldl (fun walk (instr, index) => walk.visit rules instr index) walk).findings := by
  induction entries generalizing walk with
  | nil => exact fun _ member => member
  | cons entry rest inductionHypothesis =>
    apply fun finding member => inductionHypothesis (walk.visit rules entry.1 entry.2) ?_
    unfold Walk.visit
    split_ifs
    · exact member
    · exact List.mem_append_left _ (List.mem_append_left _ member)

/-- The findings of a turn are among those of the walk. -/
theorem findings_of_visit (rules : Rules) (instrs : List LoweredInstr) (position : Nat)
    (instr : LoweredInstr) (found : instrs[position]? = some instr) :
    ((walk rules (instrs.take position)).visit rules instr position).findings ⊆
      (walk rules instrs).findings := by
  obtain ⟨inside, rfl⟩ := List.getElem?_eq_some_iff.mp found
  have length : (instrs.take position).length = position := by
    rw [List.length_take]
    omega
  have cut : walk rules instrs =
      ((instrs.drop (position + 1)).zipIdx (position + 1)).foldl
        (fun walk (instr, index) => walk.visit rules instr index)
        (walk rules (instrs.take position ++ [instrs[position]])) := by
    rw [walk, walk, ← List.foldl_append, List.take_append_getElem inside]
    congr 1
    conv_lhs => rw [← List.take_append_drop (position + 1) instrs]
    rw [List.zipIdx_append, List.length_take, Nat.min_eq_left inside, Nat.zero_add]
  rw [cut, walk_append, length]
  exact findings_kept _ _ _

/-- The findings of the walk are among those of the checker. -/
theorem walk_findings (convention : Convention) (instrs : List LoweredInstr) :
    (walk convention.rules instrs).findings ⊆ convention.findings instrs := by
  intro finding member
  cases convention with
  | sysV => simp only [Convention.findings, SysV.analyze, List.mem_append]; tauto
  | win64 => simp only [Convention.findings, Win64.analyze, List.mem_append]; tauto

/-- The findings of the callee-saved scan are among those of the checker. -/
theorem calleeSaved_findings (convention : Convention) (instrs : List LoweredInstr) :
    checkCalleeSaved convention.rules instrs ⊆ convention.findings instrs := by
  intro finding member
  cases convention with
  | sysV => simp only [Convention.findings, SysV.analyze, List.mem_append]; tauto
  | win64 => simp only [Convention.findings, Win64.analyze, List.mem_append]; tauto

/-- A clean body has no error. -/
theorem Convention.Clean.no_error {convention : Convention} {instrs : List LoweredInstr}
    (clean : convention.Clean instrs) (finding : AbiFinding)
    (member : finding ∈ convention.findings instrs) : finding.severity ≠ .error := by
  have checked := List.all_eq_true.mp clean finding member
  simpa using checked

/-- A call without an error is aligned and has its home space. -/
theorem callFindings_error_free (rules : Rules) (index : Nat) (state : StackState)
    (free : ∀ finding ∈ callFindings rules index state, finding.severity ≠ .error) :
    state.isAligned = true ∧ ∀ bytes ∈ rules.shadowBytes, ¬ state.rspDelta < bytes := by
  unfold callFindings at free
  constructor
  · by_contra misaligned
    simp [misaligned] at free
  · intro bytes asked short
    rw [Option.mem_def] at asked
    simp only [asked, if_pos short] at free
    exact free _ (List.mem_append_right _ (List.mem_singleton_self _)) rfl

/-- A return without an error is balanced. -/
theorem retFindings_error_free (index : Nat) (delta : Int64)
    (free : ∀ finding ∈ retFindings index delta, finding.severity ≠ .error) : delta = 0 := by
  by_contra unbalanced
  simp [retFindings, unbalanced] at free

/-- At every call of a clean body the tracked delta is aligned and reserves the home
space where the convention has one. -/
theorem Convention.Clean.call {convention : Convention} {instrs : List LoweredInstr}
    (clean : convention.Clean instrs) (position : Nat) (instr : LoweredInstr)
    (found : instrs[position]? = some instr) (calls : instr.mnemonic = "call") :
    (StackState.of (convention.trackedDelta instrs position)).isAligned = true ∧
      ∀ bytes ∈ convention.rules.shadowBytes,
        ¬ convention.trackedDelta instrs position < bytes := by
  apply callFindings_error_free convention.rules position
    (StackState.of (convention.trackedDelta instrs position))
  intro finding member
  apply clean.no_error finding
  apply walk_findings
  apply findings_of_visit _ _ position instr found
  have listed := List.mem_append_right
    (walk convention.rules (instrs.take position)).findings member
  simpa [Walk.visit, isMovRspFromRbp, calls, step, Convention.trackedDelta] using listed

/-- At every return of a clean body the tracked delta is zero. -/
theorem Convention.Clean.ret {convention : Convention} {instrs : List LoweredInstr}
    (clean : convention.Clean instrs) (position : Nat) (instr : LoweredInstr)
    (found : instrs[position]? = some instr)
    (returns : instr.mnemonic = "ret" ∨ instr.mnemonic = "retn" ∨ instr.mnemonic = "retf") :
    convention.trackedDelta instrs position = 0 := by
  apply retFindings_error_free position
  intro finding member
  apply clean.no_error finding
  apply walk_findings
  apply findings_of_visit _ _ position instr found
  have listed := List.mem_append_right
    (walk convention.rules (instrs.take position)).findings member
  rcases returns with name | name | name <;>
    simpa [Walk.visit, isMovRspFromRbp, name, step, Convention.trackedDelta] using listed

end Semasm.X86.Abi
