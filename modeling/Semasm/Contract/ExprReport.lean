import Semasm.Contract.Eval

/-!
# The expression slice

Every required condition is evaluated before every ensured one. A required
comparison of an integer parameter with a literal is recorded as an obligation
of the caller instead. The slice is absent when nothing was attempted.
-/

namespace Semasm.Contract

/-- Aggregate status of the expression slice. -/
inductive ContractExprStatus where
  | passed | passedUnderPreconditions | incomplete | failed
deriving DecidableEq, Repr

/-- Where the expression appeared in the contract. -/
inductive ExprRole where
  | requires | ensures
deriving DecidableEq, Repr

/-- One row of the expression report. -/
structure ContractExprEvidence where
  role : ExprRole
  source : String
  judgement : ExprJudgement
  basis : String

/-- The expression report. -/
structure ContractExprReport where
  model : String
  status : ContractExprStatus
  expressions : List ContractExprEvidence
  assumptions : List String

/-- `integer_param_names`. -/
def integerParamNames (contract : CheckedContract) : List String :=
  (contract.parameters.filter (fun param => param.ty.isInteger)).map (·.name)

/-- The text of a comparison operator. -/
def BinOp.compareText : BinOp → Option String
  | .eq => some "=="
  | .ne => some "!="
  | .lt => some "<"
  | .le => some "<="
  | .gt => some ">"
  | .ge => some ">="
  | _ => none

/-- `try_caller_bound_obligation`: a parameter and a literal, in either order. -/
def tryCallerBoundObligation (expr : Expr) (bindings : ExprBindings)
    (integerParams : List String) : Option Judged :=
  match expr with
  | .binary op left right _ =>
    match op.compareText with
    | none => none
    | some text =>
      if (intValue bindings left).isSome ∧ (intValue bindings right).isSome then none
      else
        match left, right with
        | .ident name _, .int value _ =>
          if name ∈ integerParams then
            some (.trueUnderPrecondition,
              s!"caller_bound_obligation:{name}{text}{value.toInt}")
          else none
        | .int value _, .ident name _ =>
          if name ∈ integerParams then
            some (.trueUnderPrecondition,
              s!"caller_bound_obligation:{value.toInt}{text}{name}")
          else none
        | _, _ => none
  | _ => none

/-- `eval_condition`. -/
def evalCondition (role : ExprRole) (condition : CheckedCondition)
    (aliases : Option AliasAnalysisReport) (bindings : ExprBindings)
    (integerParams : List String) : ContractExprEvidence :=
  let obligation :=
    if role = .requires then tryCallerBoundObligation condition.expr bindings integerParams
    else none
  let (judgement, basis) := obligation.getD (evalExpr aliases bindings false condition.expr)
  ⟨role, condition.source, judgement, basis⟩

/-- What the rows have met so far. -/
structure ExprTally where
  anyFalse : Bool
  anyIncomplete : Bool
  anyTrue : Bool
  anyUnderPrecondition : Bool

/-- Account for one row. -/
def ExprTally.add (tally : ExprTally) (row : ContractExprEvidence) : ExprTally :=
  match row.judgement with
  | .provenFalse => { tally with anyFalse := true }
  | .incomplete => { tally with anyIncomplete := true }
  | .provenTrue => { tally with anyTrue := true }
  | .trueUnderPrecondition => { tally with anyTrue := true, anyUnderPrecondition := true }
  | .notEvaluated => tally

/-- The rows of a contract: its required conditions, then its ensured ones. -/
def expressionRows (contract : CheckedContract) (aliases : Option AliasAnalysisReport)
    (bindings : ExprBindings) : List ContractExprEvidence :=
  let integerParams := integerParamNames contract
  contract.requires.map
      (fun condition => evalCondition .requires condition aliases bindings integerParams) ++
    contract.ensures.map
      (fun condition => evalCondition .ensures condition aliases bindings integerParams)

/-- The status of the slice, from its rows. -/
def contractExprStatus (rows : List ContractExprEvidence) : ContractExprStatus :=
  let tally := rows.foldl ExprTally.add ⟨false, false, false, false⟩
  if tally.anyFalse then .failed
  else if tally.anyIncomplete then .incomplete
  else if tally.anyUnderPrecondition then .passedUnderPreconditions
  else if tally.anyTrue then .passed
  else .incomplete

/-- `evaluate_contract_expressions`. -/
def evaluateContractExpressions (contract : CheckedContract)
    (aliases : Option AliasAnalysisReport) (bindings : ExprBindings) :
    Option ContractExprReport :=
  let rows := expressionRows contract aliases bindings
  if rows.all (fun row => row.judgement = .notEvaluated) then none
  else
    some
      { model := "contract-expr-v1"
        status := contractExprStatus rows
        expressions := rows
        assumptions := ["subset_documented_in_CONTRACT_EXPR_V1_SUBSET",
          "regions_atoms_require_alias_evidence_when_present",
          "requires_int_param_literal_cmp_is_caller_bound_obligation"] }

end Semasm.Contract
