import Mathlib.Data.List.Sort
import Semasm.Contract.ExprParser
import Semasm.Contract.TypeParser
import Semasm.Contract.Validate

/-!
# Validation of a contract document

Validation goes once over each list of the document, in the order parameters,
returns, requires, ensures, effects, memory and target overrides. Every pass
keeps what it could check and pushes an error for what it could not; only at the
end are the checked parts put together, and only if no error was pushed.
-/

namespace Semasm.Contract

/-- A parameter as parsed from the document. -/
structure ParameterSchema where
  name : String
  ty : String
  role : Option String

/-- A return as parsed from the document. -/
structure ReturnSchema where
  name : String
  ty : String

/-- The `[function]` table. -/
structure FunctionSchema where
  name : String
  parameters : List ParameterSchema
  returns : List ReturnSchema
  requires : List String
  ensures : List String
  effects : List EffectSchema
  memory : Option MemoryBlockSchema
  targetOverrides : List String

/-- A contract document: the tables the parser returns. -/
structure ContractDocument where
  contractVersion : String
  function : FunctionSchema

/-- What validation returns. -/
structure CheckResult where
  contract : Option CheckedContract
  diagnostics : List Diagnostic

mutual

/-- `collect_idents`. -/
def collectIdents : Expr → List String
  | .ident name _ => [name]
  | .int _ _ | .bool _ _ => []
  | .member base _ _ => collectIdents base
  | .call callee args _ => collectIdents callee ++ collectAllIdents args
  | .range start stop _ => collectIdents start ++ collectIdents stop
  | .index base position _ => collectIdents base ++ collectIdents position
  | .unary _ operand _ => collectIdents operand
  | .binary _ left right _ => collectIdents left ++ collectIdents right

/-- The identifiers of a list of arguments. -/
def collectAllIdents : List Expr → List String
  | [] => []
  | arg :: rest => collectIdents arg ++ collectAllIdents rest

end

/-- `free_idents`: sorted, each name once. -/
def freeIdents (expr : Expr) : List String :=
  ((collectIdents expr).insertionSort (fun a b => a ≤ b)).dedup

/-- Check the parameters that remain, given the names met so far. -/
def checkParameters : List String → List ParameterSchema → List CheckedParam × List Diagnostic
  | _, [] => ([], [])
  | names, param :: rest =>
    let (parameters, diagnostics) := checkParameters (param.name :: names) rest
    let repeated : List Diagnostic :=
      if param.name ∈ names then [⟨"CTR002", s!"duplicate parameter `{param.name}`"⟩] else []
    match SemType.parse param.ty with
    | .ok (ty, _) => (⟨param.name, ty, param.role⟩ :: parameters, repeated ++ diagnostics)
    | .error message =>
      (parameters, repeated ++ ⟨"CTR003", s!"parameter `{param.name}`: {message}"⟩ :: diagnostics)

/-- Check the returns. -/
def checkReturns : List ReturnSchema → List CheckedReturn × List Diagnostic
  | [] => ([], [])
  | value :: rest =>
    let (returns, diagnostics) := checkReturns rest
    match SemType.parse value.ty with
    | .ok (ty, _) => (⟨value.name, ty⟩ :: returns, diagnostics)
    | .error message =>
      (returns, ⟨"CTR003", s!"return `{value.name}`: {message}"⟩ :: diagnostics)

/-- The diagnostics of the free identifiers that are not declared. -/
def unknownIdents (names : List String) (place : String) (expr : Expr) : List Diagnostic :=
  ((freeIdents expr).filter (fun name => name ∉ names)).map fun name =>
    ⟨"CTR005", s!"unknown identifier `{name}` in {place}"⟩

/-- `check_condition`. -/
def checkCondition (source : String) (names : List String) :
    Option CheckedCondition × List Diagnostic :=
  match Expr.parse source with
  | .ok expr => (some ⟨expr, source⟩, unknownIdents names s!"expression `{source}`" expr)
  | .error message => (none, [⟨"CTR004", s!"invalid expression `{source}`: {message}"⟩])

/-- Check a list of conditions; one that does not parse is left out. -/
def checkConditions (names : List String) : List String → List CheckedCondition × List Diagnostic
  | [] => ([], [])
  | source :: rest =>
    let checked := checkCondition source names
    let others := checkConditions names rest
    (checked.1.toList ++ others.1, checked.2 ++ others.2)

/-- The diagnostics of the region text of one effect: only an index is read. -/
def checkEffectRegion (names : List String) (effect : EffectSchema) : List Diagnostic :=
  match effect.region with
  | none => []
  | some region =>
    if '[' ∈ region.toList then
      match Expr.parse region with
      | .error message => [⟨"CTR004", s!"invalid effect region `{region}`: {message}"⟩]
      | .ok expr => unknownIdents names s!"effect region `{region}`" expr
    else []

/-- `check_effects`. -/
def checkEffects (effects : List EffectSchema) (names : List String) : List Diagnostic :=
  let kinds := effects.map (·.kind)
  effects.flatMap (checkEffectRegion names) ++
    if "no_memory" ∈ kinds ∧ ("memory_read" ∈ kinds ∨ "memory_write" ∈ kinds) then
      [⟨"CTR006",
        "contradictory memory effects: `no_memory` combined with memory_read/memory_write"⟩]
    else []

/-- The target names `TargetIdentity::parse_known` accepts. -/
def knownTargets : List String :=
  ["x86_64-unknown-linux-gnu", "x86_64-linux-gnu", "x86_64-pc-windows-msvc",
    "x86_64-windows-msvc", "aarch64-unknown-linux-gnu", "aarch64-linux-gnu",
    "riscv64gc-unknown-linux-gnu", "riscv64-linux-gnu"]

/-- The diagnostics of the target overrides. -/
def checkOverrides (overrides : List String) : List Diagnostic :=
  (overrides.filter (fun target => target ∉ knownTargets)).map fun target =>
    ⟨"CTR007", s!"invalid target override: not found: unknown or unsupported target `{target}` " ++
      "(planned targets are not yet registered)"⟩

/-- The names of the declared regions. -/
def regionNames (memory : Option MemoryBlockSchema) : List String :=
  match memory with
  | none => []
  | some block => block.regions.map (·.name)

/-- `validate_document`. -/
def validateDocument (doc : ContractDocument) : CheckResult :=
  if doc.contractVersion ≠ "0.1" then
    ⟨none, [⟨"CTR001", s!"unsupported contract version `{doc.contractVersion}` (only " ++
      "\"0.1\" is accepted)"⟩]⟩
  else
    let f := doc.function
    let names := f.parameters.map (·.name) ++ f.returns.map (·.name)
    let exprNames := names ++ "regions" :: regionNames f.memory
    let parameters := checkParameters [] f.parameters
    let returns := checkReturns f.returns
    let requires := checkConditions exprNames f.requires
    let ensures := checkConditions exprNames f.ensures
    let memory := checkMemory f.memory parameters.1
    let diagnostics := parameters.2 ++ (returns.2 ++ (requires.2 ++ (ensures.2 ++
      (checkEffects f.effects names ++ (memory.2 ++ checkOverrides f.targetOverrides)))))
    if diagnostics ≠ [] then ⟨none, diagnostics⟩
    else
      ⟨some ⟨f.name, parameters.1, returns.1, requires.1, ensures.1, f.effects, memory.1⟩, []⟩

/-- `check_str`, over the TOML parser. -/
def checkStr (fromToml : String → Except String ContractDocument) (text : String) : CheckResult :=
  match fromToml text with
  | .error message => ⟨none, [⟨"CTR000", s!"failed to parse contract TOML: {message}"⟩]⟩
  | .ok doc => validateDocument doc

end Semasm.Contract
