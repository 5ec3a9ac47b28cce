import Semasm.Contract.Atoms
import Semasm.Library.Verdicts

/-!
# What an expression judgement says

A valuation gives identifiers their integers and truth values, and gives every
node the evaluator never judges an arbitrary value. Pointer and length
parameters are identifiers, so the valuation also fixes the byte spans of the
regions. A judgement is sound when it is true under every valuation that agrees
with the bindings.

The evaluator combines operand judgements with its own tables. Three entries of
these tables go above what the operands support. An evaluation that takes none
of them, and whose region atoms are answered rightly, is sound.
-/

namespace Semasm.Contract

open Library

/-- What a judgement says of its expression. -/
def ExprJudgement.verdict : ExprJudgement → Verdict
  | .provenTrue => .holds
  | .provenFalse => .fails
  | .trueUnderPrecondition => .assumed
  | .incomplete | .notEvaluated => .undecided

theorem ExprJudgement.provenTrue_of_verdict {judgement : ExprJudgement}
    (same : judgement.verdict = .holds) : judgement = .provenTrue := by
  cases judgement <;> first | rfl | cases same

theorem ExprJudgement.provenFalse_of_verdict {judgement : ExprJudgement}
    (same : judgement.verdict = .fails) : judgement = .provenFalse := by
  cases judgement <;> first | rfl | cases same

theorem ExprJudgement.conditional_of_verdict {judgement : ExprJudgement}
    (same : judgement.verdict = .assumed) : judgement = .trueUnderPrecondition := by
  cases judgement <;> first | rfl | cases same

/-- Values of the identifiers and of the nodes that carry no meaning of their own. -/
structure Valuation where
  int : String → Int
  bool : String → Bool
  opaqueInt : Expr → Int
  opaqueTruth : Expr → Bool

namespace Valuation

/-- The parameters of the regions are identifiers. -/
def assignment (valuation : Valuation) : Assignment := ⟨valuation.int, valuation.int⟩

/-- The valuation takes the bound values. -/
def Agrees (valuation : Valuation) (bindings : ExprBindings) : Prop :=
  (∀ name value, bindings.ints name = some value → valuation.int name = value.toInt) ∧
    ∀ name value, bindings.bools name = some value → valuation.bool name = value

/-- The integer a comparison reads on one side. -/
def number (valuation : Valuation) : Expr → Int
  | .int value _ => value.toInt
  | .ident name _ => valuation.int name
  | other => valuation.opaqueInt other

/-- The proposition an expression denotes. -/
def Truth (valuation : Valuation) (memory : CheckedMemory) : Expr → Prop
  | .bool value _ => value = true
  | .ident name _ => valuation.bool name = true
  | .unary .not operand _ => ¬ Truth valuation memory operand
  | .binary .and left right _ => Truth valuation memory left ∧ Truth valuation memory right
  | .binary .or left right _ => Truth valuation memory left ∨ Truth valuation memory right
  | .binary .implies left right _ => Truth valuation memory left → Truth valuation memory right
  | .binary op left right span =>
    match op.compare with
    | some test => test (valuation.number left) (valuation.number right) = true
    | none => valuation.opaqueTruth (.binary op left right span) = true
  | .call callee args span =>
    match matchRegionsAtom callee args with
    | some (require, left, right) => Related memory valuation.assignment require left right
    | none => valuation.opaqueTruth (.call callee args span) = true
  | other => valuation.opaqueTruth other = true

end Valuation

/-- The judgement is true under every valuation that agrees with the bindings. -/
def ExprSound (memory : CheckedMemory) (bindings : ExprBindings) (expr : Expr)
    (judgement : ExprJudgement) : Prop :=
  judgement.verdict.Sound (fun valuation : Valuation => valuation.Agrees bindings)
    (fun valuation => PreconditionsHold memory valuation.assignment)
    (fun valuation => valuation.Truth memory expr)

/-- The skipped left operand of an unforced conjunction is taken to hold. -/
def AndDefect (force : Bool) (left right : ExprJudgement) : Prop :=
  force = false ∧ left = .notEvaluated ∧ (right = .provenTrue ∨ right = .trueUnderPrecondition)
deriving Decidable

/-- The skipped left operand of an unforced disjunction is taken to fail. -/
def OrDefect (force : Bool) (left right : ExprJudgement) : Prop :=
  force = false ∧ left = .notEvaluated ∧ right = .provenFalse
deriving Decidable

/-- An antecedent that holds only conditionally, or was skipped, is taken to hold. -/
def ImpliesDefect (force : Bool) (left right : ExprJudgement) : Prop :=
  right = .provenFalse ∧ (left = .trueUnderPrecondition ∨ force = true ∧ left = .notEvaluated)
deriving Decidable

/-- The conjunction table says no more than its operands support, except at its defect. -/
theorem judgeAnd_saysLess_iff (force : Bool) (left right : Judged) :
    (judgeAnd force left right).1.verdict.SaysLess (left.1.verdict.and right.1.verdict) ↔
      ¬ AndDefect force left.1 right.1 := by
  obtain ⟨left, leftBasis⟩ := left
  obtain ⟨right, rightBasis⟩ := right
  cases force <;> cases left <;> cases right <;>
    simp [judgeAnd, afterHolds, AndDefect, ExprJudgement.verdict, Verdict.and, Verdict.SaysLess]

/-- The disjunction table says no more than its operands support, except at its defect. -/
theorem judgeOr_saysLess_iff (force : Bool) (left right : Judged) :
    (judgeOr force left right).1.verdict.SaysLess (left.1.verdict.or right.1.verdict) ↔
      ¬ OrDefect force left.1 right.1 := by
  obtain ⟨left, leftBasis⟩ := left
  obtain ⟨right, rightBasis⟩ := right
  cases force <;> cases left <;> cases right <;>
    simp [judgeOr, OrDefect, ExprJudgement.verdict, Verdict.or, Verdict.SaysLess]

/-- The implication table says no more than its operands support, except at its defect. -/
theorem judgeImplies_saysLess_iff (force : Bool) (left right : Judged) :
    (judgeImplies force left right).1.verdict.SaysLess
        (left.1.verdict.implies right.1.verdict) ↔
      ¬ ImpliesDefect force left.1 right.1 := by
  obtain ⟨left, leftBasis⟩ := left
  obtain ⟨right, rightBasis⟩ := right
  cases force <;> cases left <;> cases right <;>
    simp [judgeImplies, afterHolds, ImpliesDefect, ExprJudgement.verdict, Verdict.implies,
      Verdict.not, Verdict.or, Verdict.SaysLess]

/-- The negation table says no more than its operand supports. -/
theorem judgeNot_saysLess (operand : Judged) :
    (judgeNot operand).1.verdict.SaysLess operand.1.verdict.not := by
  obtain ⟨operand, basis⟩ := operand
  cases operand <;> simp [judgeNot, ExprJudgement.verdict, Verdict.not, Verdict.SaysLess]

section Connectives

variable {World : Type} {worlds background left right : World → Prop} {first second : Judged}

/-- A conjunction is sound when its evaluated operands are and it avoids the defect. -/
theorem judgeAnd_sound (force : Bool)
    (leftSound : first.1.verdict.Sound worlds background left)
    (rightSound : first.1 ≠ .provenFalse → first.1 ≠ .incomplete →
      second.1.verdict.Sound worlds background right)
    (avoided : ¬ AndDefect force first.1 second.1) :
    (judgeAnd force first second).1.verdict.Sound worlds background
      (fun world => left world ∧ right world) := by
  by_cases evaluated : first.1 ≠ .provenFalse ∧ first.1 ≠ .incomplete
  · exact Verdict.sound_of_saysLess ((judgeAnd_saysLess_iff force first second).mpr avoided)
      (Verdict.sound_and leftSound (rightSound evaluated.1 evaluated.2))
  · have unread : (judgeAnd force first second).1 =
        (judgeAnd force first (.notEvaluated, "")).1 := by
      obtain ⟨first, basis⟩ := first
      cases first <;> simp_all [judgeAnd]
    have open_ : ¬ AndDefect force first.1 .notEvaluated := by simp [AndDefect]
    rw [unread]
    exact Verdict.sound_of_saysLess
      ((judgeAnd_saysLess_iff force first (.notEvaluated, "")).mpr open_)
      (Verdict.sound_and leftSound Verdict.sound_undecided)

/-- A disjunction is sound when its evaluated operands are and it avoids the defect. -/
theorem judgeOr_sound (force : Bool)
    (leftSound : first.1.verdict.Sound worlds background left)
    (rightSound : first.1 = .provenFalse ∨ first.1 = .notEvaluated →
      second.1.verdict.Sound worlds background right)
    (avoided : ¬ OrDefect force first.1 second.1) :
    (judgeOr force first second).1.verdict.Sound worlds background
      (fun world => left world ∨ right world) := by
  by_cases evaluated : first.1 = .provenFalse ∨ first.1 = .notEvaluated
  · exact Verdict.sound_of_saysLess ((judgeOr_saysLess_iff force first second).mpr avoided)
      (Verdict.sound_or leftSound (rightSound evaluated))
  · have unread : (judgeOr force first second).1 =
        (judgeOr force first (.notEvaluated, "")).1 := by
      obtain ⟨first, basis⟩ := first
      cases first <;> simp_all [judgeOr]
    have open_ : ¬ OrDefect force first.1 .notEvaluated := by simp [OrDefect]
    rw [unread]
    exact Verdict.sound_of_saysLess
      ((judgeOr_saysLess_iff force first (.notEvaluated, "")).mpr open_)
      (Verdict.sound_or leftSound Verdict.sound_undecided)

/-- An implication is sound when its evaluated operands are and it avoids the defect. -/
theorem judgeImplies_sound (force : Bool)
    (leftSound : first.1.verdict.Sound worlds background left)
    (rightSound : first.1 = .provenTrue ∨ first.1 = .trueUnderPrecondition ∨
        first.1 = .notEvaluated ∧ force = true →
      second.1.verdict.Sound worlds background right)
    (avoided : ¬ ImpliesDefect force first.1 second.1) :
    (judgeImplies force first second).1.verdict.Sound worlds background
      (fun world => left world → right world) := by
  by_cases evaluated : first.1 = .provenTrue ∨ first.1 = .trueUnderPrecondition ∨
      first.1 = .notEvaluated ∧ force = true
  · exact Verdict.sound_of_saysLess ((judgeImplies_saysLess_iff force first second).mpr avoided)
      (Verdict.sound_implies leftSound (rightSound evaluated))
  · have unread : (judgeImplies force first second).1 =
        (judgeImplies force first (.notEvaluated, "")).1 := by
      obtain ⟨first, basis⟩ := first
      cases first <;> simp_all [judgeImplies]
    have open_ : ¬ ImpliesDefect force first.1 .notEvaluated := by simp [ImpliesDefect]
    rw [unread]
    exact Verdict.sound_of_saysLess
      ((judgeImplies_saysLess_iff force first (.notEvaluated, "")).mpr open_)
      (Verdict.sound_implies leftSound Verdict.sound_undecided)

end Connectives

/-- No evaluated node takes a table entry above its operands, and every
evaluated region atom is answered rightly. -/
def Faithful (aliases : Option AliasAnalysisReport) (memory : CheckedMemory)
    (bindings : ExprBindings) : Bool → Expr → Prop
  | force, .unary .not operand _ => Faithful aliases memory bindings force operand
  | force, .binary .and left right _ =>
    let force := force || containsRegionAtom left || containsRegionAtom right
    let first := (evalExpr aliases bindings force left).1
    let second := (evalExpr aliases bindings force right).1
    Faithful aliases memory bindings force left ∧
      (first ≠ .provenFalse → first ≠ .incomplete → Faithful aliases memory bindings force right) ∧
      ¬ AndDefect force first second
  | force, .binary .or left right _ =>
    let force := force || containsRegionAtom left || containsRegionAtom right
    let first := (evalExpr aliases bindings force left).1
    let second := (evalExpr aliases bindings force right).1
    Faithful aliases memory bindings force left ∧
      (first = .provenFalse ∨ first = .notEvaluated →
        Faithful aliases memory bindings force right) ∧
      ¬ OrDefect force first second
  | force, .binary .implies left right _ =>
    let forced := force || containsRegionAtom left || containsRegionAtom right
    let first := (evalExpr aliases bindings force left).1
    let second := (evalExpr aliases bindings true right).1
    Faithful aliases memory bindings force left ∧
      (first = .provenTrue ∨ first = .trueUnderPrecondition ∨
          first = .notEvaluated ∧ forced = true →
        Faithful aliases memory bindings true right) ∧
      ¬ ImpliesDefect forced first second
  | _, .call callee args _ =>
    match matchRegionsAtom callee args with
    | some (require, left, right) => AtomRight memory require left right
    | none => True
  | _, _ => True

/-- A judgement that decides nothing is sound. -/
theorem exprSound_of_undecided (memory : CheckedMemory) (bindings : ExprBindings) (expr : Expr)
    (judgement : ExprJudgement) (undecided : judgement.verdict = .undecided) :
    ExprSound memory bindings expr judgement := by
  rw [ExprSound, undecided]
  exact Verdict.sound_undecided

/-- Skipping and giving up decide nothing. -/
theorem skipOrIncomplete_verdict (force : Bool) (incompleteBasis skipBasis : String) :
    (skipOrIncomplete force incompleteBasis skipBasis).1.verdict = .undecided := by
  cases force <;> rfl

/-- A decided proposition is judged as its Boolean value. -/
theorem exprSound_ofBool (memory : CheckedMemory) (bindings : ExprBindings) (expr : Expr)
    (value : Bool) (denotes : ∀ valuation : Valuation, valuation.Agrees bindings →
      (valuation.Truth memory expr ↔ value = true)) :
    ExprSound memory bindings expr (.ofBool value) := by
  cases value with
  | true =>
    exact ⟨fun _ valuation agrees => (denotes valuation agrees).mpr rfl, nofun, nofun⟩
  | false =>
    exact ⟨nofun, fun _ valuation agrees holds => by simpa using (denotes valuation agrees).mp holds,
      nofun⟩

/-- A bound side of a comparison is the integer the valuation gives it. -/
theorem number_of_intValue (bindings : ExprBindings) (valuation : Valuation)
    (agrees : valuation.Agrees bindings) (expr : Expr) (value : Int64)
    (bound : intValue bindings expr = some value) : valuation.number expr = value.toInt := by
  cases expr <;> simp only [intValue, reduceCtorEq] at bound
  case int literal span =>
    cases bound
    rfl
  case ident name span => exact agrees.1 name value bound

/-- A comparison is answered on bound integers or not at all. -/
theorem evalCmp_sound (memory : CheckedMemory) (bindings : ExprBindings) (force : Bool)
    (expr left right : Expr) (test : Int → Int → Bool)
    (denotes : ∀ valuation : Valuation, valuation.Truth memory expr ↔
      test (valuation.number left) (valuation.number right) = true) :
    ExprSound memory bindings expr (evalCmp test left right bindings force).1 := by
  simp only [evalCmp]
  split
  · exact exprSound_of_undecided _ _ _ _ (skipOrIncomplete_verdict _ _ _)
  next leftValue leftBound =>
    split
    · exact exprSound_of_undecided _ _ _ _ (skipOrIncomplete_verdict _ _ _)
    next rightValue rightBound =>
      refine exprSound_ofBool _ _ _ _ (fun valuation agrees => ?_)
      rw [denotes, number_of_intValue bindings valuation agrees left leftValue leftBound,
        number_of_intValue bindings valuation agrees right rightValue rightBound]

/-- The call of an atom is judged as the atom itself. -/
theorem evalCall_sound (memory : CheckedMemory) (accesses : List ObservedMemoryAccess)
    (bindings : ExprBindings) (force : Bool) (callee : Expr) (args : List Expr)
    (span : SourceSpan)
    (faithful : match matchRegionsAtom callee args with
      | some (require, left, right) => AtomRight memory require left right
      | none => True) :
    ExprSound memory bindings (.call callee args span)
      (evalCall callee args (some (evaluateAlias memory accesses)) force).1 := by
  cases matched : matchRegionsAtom callee args with
  | none =>
    refine exprSound_of_undecided _ _ _ _ ?_
    simp only [evalCall, matched]
    split_ifs <;> rfl
  | some atom =>
    obtain ⟨require, left, right⟩ := atom
    simp only [matched] at faithful
    have canonical : (evalCall callee args (some (evaluateAlias memory accesses)) force).1 =
        (evalExpr (some (evaluateAlias memory accesses)) bindings force
          (regionsAtom (fun _ => span) require left right)).1 := by
      have same : matchRegionsAtom (.member (.ident "regions" span) require.asStr span)
          [.ident left span, .ident right span] = some (require, left, right) := by
        cases require <;> rfl
      simp only [regionsAtom, evalExpr, evalCall, matched, same]
    have sound := (atom_sound_iff memory accesses bindings force (fun _ => span) require left
      right).mpr faithful
    rw [canonical]
    have denotes (valuation : Valuation) : valuation.Truth memory (.call callee args span) ↔
        Related memory valuation.assignment require left right := by
      simp only [Valuation.Truth, matched]
    constructor
    · intro judged valuation _
      exact (denotes valuation).mpr (sound.proven (ExprJudgement.provenTrue_of_verdict judged) valuation.assignment)
    · intro judged valuation _ holds
      exact sound.refuted (ExprJudgement.provenFalse_of_verdict judged) valuation.assignment ((denotes valuation).mp holds)
    · intro judged valuation _ preconditions
      exact (denotes valuation).mpr (sound.conditional
        (ExprJudgement.conditional_of_verdict judged) valuation.assignment preconditions)

/-- A faithful evaluation is sound.

The induction follows the evaluator: each connective stays below the verdict its
operands support, and an operand that is not evaluated does not matter. -/
theorem evalExpr_sound (memory : CheckedMemory) (accesses : List ObservedMemoryAccess)
    (bindings : ExprBindings) : ∀ (force : Bool) (expr : Expr),
    Faithful (some (evaluateAlias memory accesses)) memory bindings force expr →
    ExprSound memory bindings expr
      (evalExpr (some (evaluateAlias memory accesses)) bindings force expr).1
  | _, .bool value _, _ => exprSound_ofBool _ _ _ _ (fun _ _ => Iff.rfl)
  | _, .int _ _, _ => exprSound_of_undecided _ _ _ _ rfl
  | force, .ident name span, _ => by
    simp only [evalExpr]
    split
    next value bound =>
      refine exprSound_ofBool _ _ _ _ (fun valuation agrees => ?_)
      rw [Valuation.Truth, agrees.2 name value bound]
    · exact exprSound_of_undecided _ _ _ _ (skipOrIncomplete_verdict _ _ _)
  | force, .unary .not operand _, faithful =>
    Verdict.sound_of_saysLess (judgeNot_saysLess _)
      (Verdict.sound_not (evalExpr_sound memory accesses bindings force operand faithful))
  | _, .unary .neg _ _, _ =>
    exprSound_of_undecided _ _ _ _ (skipOrIncomplete_verdict _ _ _)
  | force, .binary .and left right _, faithful =>
    judgeAnd_sound _ (evalExpr_sound memory accesses bindings _ left faithful.1)
      (fun notFalse notIncomplete => evalExpr_sound memory accesses bindings _ right
        (faithful.2.1 notFalse notIncomplete))
      faithful.2.2
  | force, .binary .or left right _, faithful =>
    judgeOr_sound _ (evalExpr_sound memory accesses bindings _ left faithful.1)
      (fun evaluated => evalExpr_sound memory accesses bindings _ right
        (faithful.2.1 evaluated))
      faithful.2.2
  | force, .binary .implies left right _, faithful =>
    judgeImplies_sound _ (evalExpr_sound memory accesses bindings force left faithful.1)
      (fun evaluated => evalExpr_sound memory accesses bindings true right
        (faithful.2.1 evaluated))
      faithful.2.2
  | _, .binary .eq _ _ _, _ | _, .binary .ne _ _ _, _ | _, .binary .lt _ _ _, _
  | _, .binary .le _ _ _, _ | _, .binary .gt _ _ _, _ | _, .binary .ge _ _ _, _ =>
    evalCmp_sound _ _ _ _ _ _ _ (fun _ => Iff.rfl)
  | _, .binary .add _ _ _, _ | _, .binary .sub _ _ _, _ | _, .binary .mul _ _ _, _
  | _, .binary .div _ _ _, _ =>
    exprSound_of_undecided _ _ _ _ (skipOrIncomplete_verdict _ _ _)
  | force, .call callee args span, faithful =>
    evalCall_sound memory accesses bindings force callee args span faithful
  | force, .member base field span, _ => exprSound_of_undecided _ _ _ _ (by
      simp only [evalExpr]
      split_ifs <;> rfl)
  | force, .index base position span, _ => exprSound_of_undecided _ _ _ _ (by
      simp only [evalExpr]
      split_ifs <;> rfl)
  | force, .range start stop span, _ => exprSound_of_undecided _ _ _ _ (by
      simp only [evalExpr]
      split_ifs <;> rfl)

/-- No name is bound. -/
def unbound : ExprBindings := ⟨fun _ => none, fun _ => none⟩

/-- The condition `n == 0 and true`. -/
def zeroAndTrue : Expr :=
  .binary .and (.binary .eq (.ident "n" ⟨0, 1⟩) (.int 0 ⟨5, 6⟩) ⟨0, 6⟩) (.bool true ⟨11, 15⟩) ⟨0, 15⟩

/-- The skipped comparison is taken to hold: the conjunction is judged true
although it fails for one. -/
theorem skipped_conjunct_is_taken_to_hold :
    Accepted twoNames ∧
      ¬ ExprSound twoNames unbound zeroAndTrue
        (evalExpr (some (evaluateAlias twoNames [])) unbound false zeroAndTrue).1 := by
  refine ⟨twoNames_accepted, fun sound => ?_⟩
  let one : Valuation := ⟨fun _ => 1, fun _ => true, fun _ => 0, fun _ => true⟩
  have denotes : one.Truth twoNames zeroAndTrue := sound.proven (by decide) one ⟨nofun, nofun⟩
  have oneIsZero : ((1 : Int) == 0) = true := denotes.1
  exact absurd oneIsZero (by decide)

/-- The condition `regions.equal(whole,copy) and (true or n == 0)`. -/
def equalAndTrue : Expr :=
  .binary .and (regionsAtom (fun _ => ⟨0, 0⟩) .equal "whole" "copy")
    (.binary .or (.bool true ⟨0, 0⟩)
      (.binary .eq (.ident "n" ⟨0, 0⟩) (.int 0 ⟨0, 0⟩) ⟨0, 0⟩) ⟨0, 0⟩) ⟨0, 0⟩

/-- A conjunction of an equality atom and a disjunction, judged true and true. -/
theorem equalAndTrue_sound :
    ExprSound twoNames unbound equalAndTrue
      (evalExpr (some (evaluateAlias twoNames [])) unbound false equalAndTrue).1 := by
  refine evalExpr_sound twoNames [] unbound false equalAndTrue ⟨?_, fun _ _ => ⟨?_, ?_, ?_⟩, ?_⟩
  · intro relation reversed left right found leftFound rightFound
    cases found
    cases leftFound
    cases rightFound
    exact fun _ _ => rfl
  · trivial
  · exact fun _ => trivial
  · decide
  · decide

end Semasm.Contract
