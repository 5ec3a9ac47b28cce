import Semasm.Cli.CfgLeaf
import Semasm.Cfg.Transfers

/-!
# What the control-flow leaf gate guarantees

For an accepted stream every announced branch goes to the first byte of an
instruction, or to the printed address zero. The gate has no rule for the target
of a direct call, for the way on from the last instruction, or for a transfer the
groups do not announce, so these remain as the condition.
-/

namespace Semasm.Cli

open Agent Decode Cfg

/-- The unconditional mnemonics are not conditional ones. -/
theorem conditional_of_unconditional (mnemonic : String)
    (listed : unconditionalMnemonics.contains mnemonic = true) :
    isConditionalBranchMnemonic mnemonic = false := by
  simp only [unconditionalMnemonics, List.contains_eq_mem, List.mem_cons, List.not_mem_nil,
    or_false, decide_eq_true_eq] at listed
  rcases listed with rfl | rfl | rfl | rfl | rfl <;> decide

/-- The call mnemonics are not conditional branches. -/
theorem conditional_of_call (mnemonic : String) (listed : callMnemonics.contains mnemonic = true) :
    isConditionalBranchMnemonic mnemonic = false := by
  simp only [callMnemonics, List.contains_eq_mem, List.mem_cons, List.not_mem_nil, or_false,
    decide_eq_true_eq] at listed
  rcases listed with rfl | rfl | rfl | rfl | rfl <;> decide

/-- The role of a branch that a group announces. -/
theorem classify_of_jump (ins : PhysicalInstruction) (returns : isReturn ins = false)
    (noCall : ins.groups.contains "call" = false) (jump : ins.groups.contains "jump" = true) :
    classify ins =
      match branchTarget ins with
      | some address =>
        if unconditionalMnemonics.contains (Text.asciiLower ins.mnemonic) then
          .unconditionalBranch none address
        else .conditionalBranch none address
      | none => .indirect := by
  simp only [isReturn, Bool.or_eq_false_iff] at returns
  simp only [classify, branchTarget, returns.1.1, returns.2, noCall, jump, Bool.or_self,
    Bool.false_eq_true, if_true, if_false]
  by_cases listed : unconditionalMnemonics.contains (Text.asciiLower ins.mnemonic) = true
  · rw [if_pos listed]
    cases parseTarget ins with
    | some address => exact (if_pos listed).symm
    | none => simp [conditional_of_unconditional _ listed]
  · rw [if_neg listed]
    cases parseTarget ins with
    | some address => exact (if_neg listed).symm
    | none =>
      by_cases conditional : isConditionalBranchMnemonic (Text.asciiLower ins.mnemonic) = true
      · simp only [conditional, if_true]
        rw [if_neg listed]
      · simp [conditional]

/-- An announced branch is classified with the target it prints. -/
theorem classify_of_taken (ins : PhysicalInstruction) (target : UInt64)
    (taken : .taken target ∈ transfers ins) (announced : ¬ Unannounced ins) :
    classify ins = .unconditionalBranch none target ∨
      classify ins = .conditionalBranch none target := by
  unfold transfers at taken
  split at taken
  · cases taken
  rename_i returns
  split at taken
  · cases parsed : parseTarget ins <;> simp [parsed] at taken
  rename_i calls
  split at taken
  · rename_i branches
    simp only [isCall, Bool.or_eq_true, not_or, Bool.not_eq_true] at calls
    have jump : ins.groups.contains "jump" = true := by
      by_contra absent
      exact announced ⟨calls.1, Bool.not_eq_true _ ▸ absent, Or.inr branches⟩
    rw [classify_of_jump ins (Bool.not_eq_true _ ▸ returns) calls.1 jump]
    cases printed : branchTarget ins with
    | none =>
      simp only [printed] at taken
      split at taken <;> simp at taken
    | some address =>
      have same : target = address := by
        simp only [printed] at taken
        split at taken <;> simpa using taken
      rw [same]
      by_cases listed : unconditionalMnemonics.contains (Text.asciiLower ins.mnemonic) = true
      · exact Or.inl (if_pos listed)
      · exact Or.inr (if_neg listed)
  · simp at taken

/-- The gate rejects an announced transfer without a printed target.

Proof: with the call group such an instruction is an indirect call. Without it
the jump group is there, and no conditional mnemonic excuses the missing target,
since a mnemonic of a call is not one. -/
theorem rejected_of_anywhere (ins : PhysicalInstruction)
    (unprinted : .anywhere ∈ transfers ins) (announced : ¬ Unannounced ins) :
    instructionRejection ins ≠ none := by
  have rejectsIndirect : classify ins = .indirect → instructionRejection ins ≠ none := by
    intro role
    simp [instructionRejection, role]
  unfold transfers at unprinted
  split at unprinted
  · cases unprinted
  rename_i returns
  have notReturn : isReturn ins = false := Bool.not_eq_true _ ▸ returns
  by_cases grouped : ins.groups.contains "call" = true
  · have calls : isCall ins = true := by simp only [isCall, grouped, Bool.true_or]
    rw [if_pos calls] at unprinted
    cases parsed : parseTarget ins with
    | some address => simp [parsed] at unprinted
    | none =>
      simp only [isReturn, Bool.or_eq_false_iff] at notReturn
      have role : classify ins = .call none none := by
        simp only [classify, notReturn.1.1, notReturn.2, grouped, parsed, Bool.or_self,
          Bool.false_eq_true, if_true, if_false]
      simp [instructionRejection, role]
  · have noCall : ins.groups.contains "call" = false := Bool.not_eq_true _ ▸ grouped
    apply rejectsIndirect
    by_cases calls : isCall ins = true
    · have jump : ins.groups.contains "jump" = true := by
        by_contra absent
        exact announced ⟨noCall, Bool.not_eq_true _ ▸ absent, Or.inl calls⟩
      rw [if_pos calls] at unprinted
      cases parsed : parseTarget ins with
      | some address => simp [parsed] at unprinted
      | none =>
        have listed : callMnemonics.contains (Text.asciiLower ins.mnemonic) = true := by
          simpa only [isCall, noCall, Bool.false_or] using calls
        rw [classify_of_jump ins notReturn noCall jump]
        simp [branchTarget, parsed, conditional_of_call _ listed]
    · rw [if_neg calls] at unprinted
      by_cases branches : isBranch ins = true
      · have jump : ins.groups.contains "jump" = true := by
          by_contra absent
          exact announced ⟨noCall, Bool.not_eq_true _ ▸ absent, Or.inr branches⟩
        rw [if_pos branches] at unprinted
        rw [classify_of_jump ins notReturn noCall jump]
        cases printed : branchTarget ins with
        | none => rfl
        | some address =>
          simp only [printed] at unprinted
          split at unprinted <;> simp at unprinted
      · rw [if_neg branches] at unprinted
        simp at unprinted

/-- An accepted stream resolves every announced branch. -/
theorem taken_inside (physical : List PhysicalInstruction)
    (decodeCoverage loweringCoverage : Coverage)
    (accepted : checkCfgLeaf physical decodeCoverage loweringCoverage = .ok ())
    (ins : PhysicalInstruction) (member : ins ∈ physical) (target : UInt64)
    (taken : .taken target ∈ transfers ins) (announced : ¬ Unannounced ins) :
    target = 0 ∨ Lands physical target := by
  obtain ⟨_, graph, built, blocks⟩ := (checkCfgLeaf_ok_iff _ _ _).mp accepted
  have terminates : (classify ins).isTerminator = true := by
    rcases classify_of_taken ins target taken announced with role | role <;> rw [role] <;> rfl
  obtain ⟨block, inside, blockEnd⟩ := build_terminator physical graph built ins member terminates
  have allowed := blocks block inside
  apply or_iff_not_imp_left.mpr
  intro nonzero
  cases resolved : blockAt physical target with
  | none =>
    exfalso
    rcases classify_of_taken ins target taken announced with role | role <;>
      simp [blockRejection, blockEnd, role, resolvedEnd, resolved, nonzero] at allowed
  | some index =>
    obtain ⟨found, known, _⟩ := Option.bind_eq_some_iff.mp resolved
    exact lands_of_addrToInstr physical target found known

/-- `xor eax, eax` and `ret` at address zero. -/
def zeroAndReturn : List PhysicalInstruction :=
  [⟨0, [0x31, 0xC0], "xor", ["eax", "eax"], ["eax"], ["eflags", "eax"], [], true⟩,
   ⟨2, [0xC3], "ret", [], ["rsp"], ["rsp"], ["ret", "mode64"], true⟩]

/-- A call of an address outside the stream, and `ret`. -/
def callsOutside : List PhysicalInstruction :=
  [⟨0, [0xE8, 0xFB, 0, 0, 0], "call", ["0x100"], ["rsp", "rip"], ["rsp"],
      ["call", "branch_relative", "mode64"], true⟩,
   ⟨5, [0xC3], "ret", [], ["rsp"], ["rsp"], ["ret", "mode64"], true⟩]

/-- One instruction with nothing behind it. -/
def runsOffTheEnd : List PhysicalInstruction :=
  [⟨0, [0x31, 0xC0], "xor", ["eax", "eax"], ["eax"], ["eflags", "eax"], [], true⟩]

end Semasm.Cli
