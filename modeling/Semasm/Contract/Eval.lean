import Semasm.Contract.Alias

/-!
# Evaluation of contract expressions

The evaluator judges an expression with five outcomes. A region atom is answered
from the first row of the alias report that names its two regions in either
order; a comparison is answered when both sides are integer literals or bound
names. Everything else is either skipped or, below a connective that holds a
region atom, reported as incomplete: the `force` flag carries that decision.
-/

namespace Semasm.Contract

/-- Judgement of one expression. -/
inductive ExprJudgement where
  | provenTrue | provenFalse | trueUnderPrecondition | incomplete | notEvaluated
deriving DecidableEq, Repr

/-- Concrete bindings for names. -/
structure ExprBindings where
  ints : String → Option Int64
  bools : String → Option Bool

/-- A judgement with its basis text. -/
abbrev Judged := ExprJudgement × String

/-- The judgement of a decided proposition. -/
def ExprJudgement.ofBool (value : Bool) : ExprJudgement :=
  if value then .provenTrue else .provenFalse

/-- `skip_or_incomplete`. -/
def skipOrIncomplete (forceAttempt : Bool) (incompleteBasis skipBasis : String) : Judged :=
  if forceAttempt then (.incomplete, incompleteBasis) else (.notEvaluated, skipBasis)

/-- `int_value`. -/
def intValue (bindings : ExprBindings) : Expr → Option Int64
  | .int value _ => some value
  | .ident name _ => bindings.ints name
  | _ => none

/-- `match_regions_atom`: predicate and the two region names. -/
def matchRegionsAtom : Expr → List Expr → Option (RelationRequire × String × String)
  | .member (.ident receiver _) field _, [.ident left _, .ident right _] =>
    if receiver = "regions" then
      (RelationRequire.parse field).map (fun require => (require, left, right))
    else none
  | _, _ => none

/-- `looks_like_regions_receiver`. -/
def looksLikeRegionsReceiver : Expr → Bool
  | .member (.ident receiver _) _ _ => receiver == "regions"
  | _ => false

mutual

/-- `contains_region_atom`. -/
def containsRegionAtom : Expr → Bool
  | .call callee args _ =>
    if (matchRegionsAtom callee args).isSome || looksLikeRegionsReceiver callee then true
    else containsRegionAtom callee || anyContainsRegionAtom args
  | .unary _ operand _ => containsRegionAtom operand
  | .binary _ left right _ => containsRegionAtom left || containsRegionAtom right
  | .member base _ _ => containsRegionAtom base
  | .index base position _ => containsRegionAtom base || containsRegionAtom position
  | .range start stop _ => containsRegionAtom start || containsRegionAtom stop
  | .ident _ _ | .int _ _ | .bool _ _ => false

/-- Some argument contains a region atom. -/
def anyContainsRegionAtom : List Expr → Bool
  | [] => false
  | arg :: rest => containsRegionAtom arg || anyContainsRegionAtom rest

end

/-- `lookup_relation_row`, on the rows of the report. -/
def lookupRelationRow (left right : String) :
    List AliasRelationEvidence → Option (AliasRelationEvidence × RelationObserved)
  | [] => none
  | row :: rest =>
    if row.left = left ∧ row.right = right then some (row, row.observed)
    else if row.left = right ∧ row.right = left then
      -- A stored containment says nothing about the other order.
      let observed := match row.observed with
        | .provenContains => .mayOverlap
        | other => other
      some (row, observed)
    else lookupRelationRow left right rest

/-- `judge_require`. -/
def judgeRequire (require : RelationRequire) (row : AliasRelationEvidence)
    (observed : RelationObserved) (left right : String) : Judged :=
  let atom := s!"regions_{require.asStr}({left},{right})<="
  if relationSatisfies require observed then (.provenTrue, s!"{atom} {observed.asStr}")
  else if row.evidenceBasis = .declaredPrecondition ∧ row.required = require.asStr then
    (.trueUnderPrecondition, s!"{atom}declared_precondition")
  else if observed = .mayOverlap ∨ observed = .notEvaluated ∨ observed = .invalidRegion then
    (.incomplete, s!"{atom} {observed.asStr}")
  else (.provenFalse, s!"{atom} {observed.asStr}")

/-- `eval_call`, on the parts of the call. -/
def evalCall (callee : Expr) (args : List Expr) (aliases : Option AliasAnalysisReport)
    (forceAttempt : Bool) : Judged :=
  match matchRegionsAtom callee args with
  | none =>
    if forceAttempt || looksLikeRegionsReceiver callee then
      (.incomplete, "unknown_regions_predicate")
    else (.notEvaluated, "non_subset_call_not_evaluated")
  | some (require, left, right) =>
    match aliases with
    | none => (.notEvaluated, s!"regions_{require.asStr}_no_alias_slice")
    | some report =>
      match lookupRelationRow left right report.relations with
      | none => (.incomplete, s!"no_alias_row:{left}/{right}")
      | some (row, observed) => judgeRequire require row observed left right

/-- The comparison an operator denotes on integers; other operators compare nothing. -/
def BinOp.compare : BinOp → Option (Int → Int → Bool)
  | .eq => some (fun left right => left == right)
  | .ne => some (fun left right => left != right)
  | .lt => some (fun left right => decide (left < right))
  | .le => some (fun left right => decide (left ≤ right))
  | .gt => some (fun left right => decide (left > right))
  | .ge => some (fun left right => decide (left ≥ right))
  | _ => none

/-- `eval_cmp`, for a comparison operator. -/
def evalCmp (test : Int → Int → Bool) (left right : Expr) (bindings : ExprBindings)
    (forceAttempt : Bool) : Judged :=
  let force := forceAttempt || (containsRegionAtom left || containsRegionAtom right)
  match intValue bindings left with
  | none => skipOrIncomplete force "cmp_left_unbound" "cmp_unbound_not_evaluated"
  | some l =>
    match intValue bindings right with
    | none => skipOrIncomplete force "cmp_right_unbound" "cmp_unbound_not_evaluated"
    | some r => (.ofBool (test l.toInt r.toInt), s!"cmp:{l.toInt}?{r.toInt}")

/-- The outcome of a negation. -/
def judgeNot : Judged → Judged
  | (.provenTrue, basis) => (.provenFalse, s!"not({basis})")
  | (.provenFalse, basis) => (.provenTrue, s!"not({basis})")
  | (.trueUnderPrecondition, basis) => (.incomplete, s!"not_under_precondition({basis})")
  | (other, basis) => (other, s!"not({basis})")

/-- The right operand's contribution once the left one holds; both connectives
that need two true sides share it. -/
def afterHolds (leftUnder : Bool) (skipped : ExprJudgement) : ExprJudgement → ExprJudgement
  | .provenFalse => .provenFalse
  | .incomplete => .incomplete
  | .notEvaluated => skipped
  | .trueUnderPrecondition => .trueUnderPrecondition
  | .provenTrue => if leftUnder then .trueUnderPrecondition else .provenTrue

/-- `eval_and`, given both operands' outcomes; the right one is read only where
the source evaluates it. -/
def judgeAnd (force : Bool) (left right : Judged) : Judged :=
  match left.1 with
  | .provenFalse => (.provenFalse, s!"and_short:{left.2}")
  | .provenTrue | .trueUnderPrecondition =>
    (afterHolds (left.1 = .trueUnderPrecondition) (if force then .incomplete else .notEvaluated)
      right.1, s!"and:{left.2}&{right.2}")
  | .incomplete => (.incomplete, s!"and_left:{left.2}")
  | .notEvaluated =>
    match right.1 with
    | .notEvaluated => (.notEvaluated, s!"and_skip:{left.2}")
    | .provenFalse => (.provenFalse, s!"and:{left.2}&{right.2}")
    | other =>
      if force then (.incomplete, s!"and_partial:{left.2}&{right.2}")
      else (other, s!"and_right_only:{right.2}")

/-- `eval_or`, given both operands' outcomes. -/
def judgeOr (force : Bool) (left right : Judged) : Judged :=
  match left.1 with
  | .provenTrue => (.provenTrue, s!"or_short:{left.2}")
  | .trueUnderPrecondition => (.trueUnderPrecondition, s!"or_short:{left.2}")
  | .provenFalse => (right.1, s!"or:{left.2}|{right.2}")
  | .incomplete => (.incomplete, s!"or_left:{left.2}")
  | .notEvaluated =>
    match right.1 with
    | .notEvaluated => (.notEvaluated, s!"or_skip:{left.2}")
    | .provenTrue => (.provenTrue, s!"or:{left.2}|{right.2}")
    | other =>
      if force then (.incomplete, s!"or_partial:{left.2}|{right.2}")
      else (other, s!"or_right_only:{right.2}")

/-- The implication arm of `eval_expr`, given both operands' outcomes. The right
one is evaluated with the flag set. -/
def judgeImplies (force : Bool) (left right : Judged) : Judged :=
  match left.1 with
  | .provenFalse => (.provenTrue, s!"implies_vacuous:{left.2}")
  | .provenTrue | .trueUnderPrecondition =>
    (afterHolds (left.1 = .trueUnderPrecondition) .notEvaluated right.1,
      s!"implies:{left.2}=>{right.2}")
  | .incomplete => (.incomplete, s!"implies_antecedent:{left.2}")
  | .notEvaluated =>
    if force then
      match right.1 with
      | .notEvaluated => (.notEvaluated, s!"implies_skipped:{left.2}")
      | other => (other, s!"implies_partial:{left.2}=>{right.2}")
    else (.notEvaluated, s!"implies_not_evaluated:{left.2}")

/-- `eval_expr`. -/
def evalExpr (aliases : Option AliasAnalysisReport) (bindings : ExprBindings) :
    Bool → Expr → Judged
  | _, .bool value _ => (.ofBool value, s!"bool_literal:{value}")
  | _, .int _ _ => (.incomplete, "bare_integer_not_a_proposition")
  | force, .ident name _ =>
    match bindings.bools name with
    | some value => (.ofBool value, s!"bound_bool:{name}")
    | none => skipOrIncomplete force s!"unbound_ident:{name}" "unbound_ident_not_evaluated"
  | force, .unary .not operand _ => judgeNot (evalExpr aliases bindings force operand)
  | force, .unary .neg _ _ =>
    skipOrIncomplete force "unary_neg_out_of_subset" "unary_neg_not_evaluated"
  | force, .binary .and left right _ =>
    let force := force || containsRegionAtom left || containsRegionAtom right
    judgeAnd force (evalExpr aliases bindings force left) (evalExpr aliases bindings force right)
  | force, .binary .or left right _ =>
    let force := force || containsRegionAtom left || containsRegionAtom right
    judgeOr force (evalExpr aliases bindings force left) (evalExpr aliases bindings force right)
  | force, .binary .implies left right _ =>
    judgeImplies (force || containsRegionAtom left || containsRegionAtom right)
      (evalExpr aliases bindings force left) (evalExpr aliases bindings true right)
  | force, .binary op left right _ =>
    match op.compare with
    | some test => evalCmp test left right bindings force
    | none => skipOrIncomplete force "arithmetic_out_of_subset" "arithmetic_not_evaluated"
  | force, .call callee args _ => evalCall callee args aliases force
  | force, .member base field span =>
    if containsRegionAtom (.member base field span) || force then
      (.incomplete, "unsupported_construct_in_attempted_expr")
    else (.notEvaluated, "unsupported_construct_not_evaluated")
  | force, .index base position span =>
    if containsRegionAtom (.index base position span) || force then
      (.incomplete, "unsupported_construct_in_attempted_expr")
    else (.notEvaluated, "unsupported_construct_not_evaluated")
  | force, .range start stop span =>
    if containsRegionAtom (.range start stop span) || force then
      (.incomplete, "unsupported_construct_in_attempted_expr")
    else (.notEvaluated, "unsupported_construct_not_evaluated")

end Semasm.Contract
