import Mathlib.Order.Lattice
import Semasm.X86.Analysis.Driver

/-!
# The join-semilattice of block states

Values join flatly: equal ones stay and any two others conflict. A register that
only one state has is kept, so absence is the least record; of two widths the
larger stays. Comparison contexts form a chain, the stack depth joins to the deeper
one and stays known only where both know the same. Each join is commutative,
associative and idempotent, and so is the join of states.
-/

namespace Semasm.X86.Analysis

/-! ## Values and records -/

/-- Values join flatly. -/
theorem AbsVal.join_eq (one two : AbsVal) :
    one.join two = if one = two then one else .conflict := by
  by_cases same : one = two
  · subst same
    rw [if_pos rfl]
    cases one with
    | const value => exact if_pos rfl
    | uninit | conflict => rfl
  · rw [if_neg same]
    cases one with
    | const first =>
      cases two with
      | const second => exact if_neg fun equal => same (congrArg AbsVal.const equal)
      | uninit | conflict => rfl
    | uninit =>
      cases two with
      | uninit => exact absurd rfl same
      | const | conflict => rfl
    | conflict => cases two <;> rfl

theorem AbsVal.join_self (value : AbsVal) : value.join value = value := by
  rw [AbsVal.join_eq, if_pos rfl]

theorem AbsVal.join_comm (one two : AbsVal) : one.join two = two.join one := by
  rw [AbsVal.join_eq, AbsVal.join_eq]
  by_cases same : one = two
  · rw [if_pos same, if_pos same.symm, same]
  · rw [if_neg same, if_neg fun equal => same equal.symm]

theorem AbsVal.conflict_join (value : AbsVal) : AbsVal.join .conflict value = .conflict := by
  rw [AbsVal.join_eq, ite_self]

theorem AbsVal.join_assoc (one two three : AbsVal) :
    (one.join two).join three = one.join (two.join three) := by
  by_cases first : one = two
  · subst first
    rw [AbsVal.join_self]
    by_cases second : one = three
    · subst second
      rw [AbsVal.join_self, AbsVal.join_self]
    · rw [AbsVal.join_eq one three, if_neg second, AbsVal.join_comm, AbsVal.conflict_join]
  · rw [AbsVal.join_eq one two, if_neg first, AbsVal.conflict_join]
    by_cases second : two = three
    · subst second
      rw [AbsVal.join_self, AbsVal.join_eq, if_neg first]
    · rw [AbsVal.join_eq two three, if_neg second, AbsVal.join_comm, AbsVal.conflict_join]

/-- The larger of two widths. -/
def wider (one two : Width) : Width := if two.bits ≤ one.bits then one else two

theorem wider_self (width : Width) : wider width width = width := by
  rw [wider, ite_self]

theorem wider_comm (one two : Width) : wider one two = wider two one := by
  cases one <;> cases two <;> rfl

theorem wider_assoc (one two three : Width) :
    wider (wider one two) three = wider one (wider two three) := by
  cases one <;> cases two <;> cases three <;> rfl

theorem RegAbs.join_eq (one two : RegAbs) :
    one.join two = ⟨one.value.join two.value, wider one.width two.width⟩ := rfl

theorem RegAbs.join_self (record : RegAbs) : record.join record = record := by
  rw [RegAbs.join_eq, AbsVal.join_self, wider_self]

theorem RegAbs.join_comm (one two : RegAbs) : one.join two = two.join one := by
  rw [RegAbs.join_eq, RegAbs.join_eq, AbsVal.join_comm, wider_comm]

theorem RegAbs.join_assoc (one two three : RegAbs) :
    (one.join two).join three = one.join (two.join three) := by
  simp only [RegAbs.join_eq, AbsVal.join_assoc, wider_assoc]

theorem joinRegs_self (record : Option RegAbs) : joinRegs record record = record := by
  cases record with
  | none => rfl
  | some record => exact congrArg some (RegAbs.join_self record)

theorem joinRegs_comm (one two : Option RegAbs) : joinRegs one two = joinRegs two one := by
  cases one with
  | none => cases two <;> rfl
  | some first =>
    cases two with
    | none => rfl
    | some second => exact congrArg some (RegAbs.join_comm first second)

theorem joinRegs_assoc (one two three : Option RegAbs) :
    joinRegs (joinRegs one two) three = joinRegs one (joinRegs two three) := by
  cases one with
  | none => cases two <;> cases three <;> rfl
  | some first =>
    cases two with
    | none => cases three <;> rfl
    | some second =>
      cases three with
      | none => rfl
      | some third => exact congrArg some (RegAbs.join_assoc first second third)

/-! ## Contexts and depths -/

theorem CmpContext.join_self (context : CmpContext) : context.join context = context := by
  cases context <;> rfl

theorem CmpContext.join_comm (one two : CmpContext) : one.join two = two.join one := by
  cases one <;> cases two <;> rfl

theorem CmpContext.join_assoc (one two three : CmpContext) :
    (one.join two).join three = one.join (two.join three) := by
  cases one <;> cases two <;> cases three <;> rfl

/-- The deeper of two stack depths. -/
def deeper (one two : Int64) : Int64 :=
  if one = two then one else if one ≤ two then one else two

theorem deeper_toInt (one two : Int64) : (deeper one two).toInt = min one.toInt two.toInt := by
  unfold deeper
  by_cases same : one = two
  · rw [if_pos same, same, min_self]
  · rw [if_neg same]
    by_cases less : one ≤ two
    · rw [if_pos less, min_eq_left (Int64.le_iff_toInt_le.1 less)]
    · have more := Int64.lt_iff_toInt_lt.1 (Int64.not_le.1 less)
      rw [if_neg less, min_eq_right more.le]

theorem deeper_self (depth : Int64) : deeper depth depth = depth := if_pos rfl

theorem deeper_comm (one two : Int64) : deeper one two = deeper two one := by
  rw [← Int64.toInt_inj, deeper_toInt, deeper_toInt, min_comm]

theorem deeper_assoc (one two three : Int64) :
    deeper (deeper one two) three = deeper one (deeper two three) := by
  rw [← Int64.toInt_inj]
  simp only [deeper_toInt, min_assoc]

/-- The deeper depth is the second one when that is no higher. -/
theorem deeper_eq_right (one two : Int64) : deeper one two = two ↔ two ≤ one := by
  rw [← Int64.toInt_inj, deeper_toInt, min_eq_right_iff, Int64.le_iff_toInt_le]

/-! ## States -/

theorem BlockState.join_eq (one two : BlockState) :
    one.join two =
      ⟨fun cell => joinRegs (one.regs cell) (two.regs cell), deeper one.rspDelta two.rspDelta,
        one.rspKnown && two.rspKnown && one.rspDelta == two.rspDelta, one.cmp.join two.cmp,
        one.memoryKnown && two.memoryKnown⟩ := rfl

theorem BlockState.join_self (state : BlockState) : state.join state = state := by
  simp only [BlockState.join_eq, joinRegs_self, deeper_self, CmpContext.join_self, Bool.and_self,
    beq_self_eq_true, Bool.and_true]

theorem BlockState.join_comm (one two : BlockState) : one.join two = two.join one := by
  simp only [BlockState.join_eq, BlockState.mk.injEq]
  refine ⟨funext fun cell => joinRegs_comm _ _, deeper_comm _ _, ?_, CmpContext.join_comm _ _,
    Bool.and_comm _ _⟩
  rw [Bool.and_comm one.rspKnown, BEq.comm]

/-- A depth stays known through two joins only where all three know the same. -/
theorem BlockState.join_assoc (one two three : BlockState) :
    (one.join two).join three = one.join (two.join three) := by
  simp only [BlockState.join_eq, BlockState.mk.injEq]
  refine ⟨funext fun cell => joinRegs_assoc _ _ _, deeper_assoc _ _ _, ?_,
    CmpContext.join_assoc _ _ _, Bool.and_assoc _ _ _⟩
  rw [Bool.eq_iff_iff]
  simp only [Bool.and_eq_true, beq_iff_eq]
  constructor
  · rintro ⟨⟨⟨⟨known, known'⟩, same⟩, known''⟩, same'⟩
    rw [same, deeper_self] at same'
    rw [same, same', deeper_self]
    exact ⟨⟨known, ⟨known', known''⟩, rfl⟩, rfl⟩
  · rintro ⟨⟨known, ⟨known', known''⟩, same⟩, same'⟩
    rw [same, deeper_self] at same'
    rw [same, same', deeper_self]
    exact ⟨⟨⟨⟨known, known'⟩, rfl⟩, known''⟩, rfl⟩

instance : Max BlockState := ⟨BlockState.join⟩

/-- Block states under the order that their join induces: one state is below another
when joining it in changes nothing. -/
instance : SemilatticeSup BlockState :=
  SemilatticeSup.mk' BlockState.join_comm BlockState.join_assoc BlockState.join_self

theorem BlockState.le_iff_join (one two : BlockState) : one ≤ two ↔ one.join two = two := Iff.rfl

/-- One state is below another, field by field: a depth known above is the same below. -/
theorem BlockState.le_iff (one two : BlockState) :
    one ≤ two ↔ (∀ cell, joinRegs (one.regs cell) (two.regs cell) = two.regs cell) ∧
      (two.rspDelta ≤ one.rspDelta ∧
        (two.rspKnown = true → one.rspKnown = true ∧ one.rspDelta = two.rspDelta)) ∧
      one.cmp.join two.cmp = two.cmp ∧ (two.memoryKnown = true → one.memoryKnown = true) := by
  have known : ∀ first second same : Bool,
      ((first && second && same) = second ↔ (second = true → first = true ∧ same = true)) := by
    decide
  have memory : ∀ first second : Bool, ((first && second) = second ↔ (second = true → first = true)) := by
    decide
  obtain ⟨regs, depth, knows, cmp, keeps⟩ := two
  rw [BlockState.le_iff_join, BlockState.join_eq, BlockState.mk.injEq, deeper_eq_right, known, memory,
    beq_iff_eq, funext_iff, and_assoc]

end Semasm.X86.Analysis
