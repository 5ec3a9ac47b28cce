import Semasm.Agent.Harness.Shapes

/-!
# Test vectors

A vector has a name, its inputs in the order of the parameters and the expected
result. An external case gives inputs by parameter name under an id of the caller's; its
expected result comes from the oracle of a scalar shape. The calling shape of a vector
list is read off its first vector and checked against the contract's oracle.
-/

namespace Semasm.Agent.Harness

open Contract

/-- A JSON number. A negative integer is kept apart from the others. -/
inductive Number where
  | pos (value : UInt64)
  | neg (value : Int64)
  | float (bits : UInt64)
deriving DecidableEq, Repr

/-- A JSON value. -/
inductive Json where
  | null
  | bool (value : Bool)
  | number (value : Number)
  | string (text : String)
  | array (items : List Json)
  | object (fields : List (String × Json))

namespace Json

/-- `as_u64`. -/
def asU64 : Json → Option UInt64
  | .number (.pos value) => some value
  | _ => none

/-- `as_i64`. -/
def asI64 : Json → Option Int64
  | .number (.pos value) => if value.toNat < 2 ^ 63 then some value.toInt64 else none
  | .number (.neg value) => some value
  | _ => none

/-- `is_number`. -/
def isNumber : Json → Bool
  | .number _ => true
  | _ => false

/-- A null or an array. -/
def isBuffer : Json → Bool
  | .null | .array _ => true
  | _ => false

/-- `json!` of an unsigned value. -/
def ofU64 (value : UInt64) : Json := .number (.pos value)

/-- `json!` of a signed value. -/
def ofI64 (value : Int64) : Json :=
  if value < 0 then .number (.neg value) else .number (.pos value.toUInt64)

end Json

/-- A behavioural test vector. -/
structure TestVector where
  name : String
  inputs : List Json
  expected : Json

/-- The inputs of a case, by distinct names. -/
structure NamedInputs where
  entries : List (String × Json)
  distinct : (entries.map Prod.fst).Nodup

/-- The input of a name. -/
def NamedInputs.get (inputs : NamedInputs) (name : String) : Option Json :=
  inputs.entries.lookup name

/-- One named set of inputs under an id of the caller's. -/
structure ExternalVectorCase where
  id : String
  inputs : NamedInputs

/-- `external_i64`. -/
def externalI64 (caseId parameter : String) (value : Json) : Except String Int64 :=
  match value.asI64 with
  | some number => .ok number
  | none => .error ("external case '" ++ caseId ++ "' input '" ++ parameter ++
      "' must be an i64 JSON integer")

/-- `external_u64`. -/
def externalU64 (caseId parameter : String) (value : Json) : Except String UInt64 :=
  match value.asU64 with
  | some number => .ok number
  | none => .error ("external case '" ++ caseId ++ "' input '" ++ parameter ++
      "' must be a non-negative JSON integer")

/-- `MAX_FIXTURE_CAP`. -/
def maxFixtureCap : Nat := 256

/-- The expected result of an external case of a unary shape. -/
def expectedUnary (caseId : String) (op : PureIntUnaryI64Op) (x : Int64) : Except String Json :=
  if op = .sumRange ∧ x < 0 then
    .error ("external case '" ++ caseId ++
      "' violates sum_range precondition: input must be non-negative")
  else if op = .countdown ∧ maxFixtureCap < x.toInt.natAbs then
    .error ("external case '" ++ caseId ++ "' exceeds the bounded countdown fixture limit (" ++
      toString maxFixtureCap ++ ")")
  else .ok (Json.ofI64 (op.reduce x))

/-- The first two parameters of a contract of a binary shape with their inputs. -/
def firstTwo (contract : CheckedContract) (ordered : List Json) :
    Except String ((String × Json) × (String × Json)) :=
  match contract.parameters, ordered with
  | first :: second :: _, one :: two :: _ => .ok ((first.name, one), (second.name, two))
  | _, _ => .error "index out of bounds"

/-- The only parameter of a contract of a unary shape with its input. -/
def firstOne (contract : CheckedContract) (ordered : List Json) : Except String (String × Json) :=
  match contract.parameters, ordered with
  | first :: _, one :: _ => .ok (first.name, one)
  | _, _ => .error "index out of bounds"

/-- The expected result of an external case. -/
def externalExpected (contract : CheckedContract) (caseId : String) (ordered : List Json) :
    Except String Json :=
  match pureIntShape contract, pureIntI64Shape contract, pureIntUnaryI64Shape contract with
  | some op, _, _ => do
    let (one, two) ← firstTwo contract ordered
    let a ← externalU64 caseId one.1 one.2
    let b ← externalU64 caseId two.1 two.2
    return Json.ofU64 (op.reduce a b)
  | none, some op, _ => do
    let (one, two) ← firstTwo contract ordered
    let a ← externalI64 caseId one.1 one.2
    let b ← externalI64 caseId two.1 two.2
    return Json.ofI64 (op.reduce a b)
  | none, none, some op => do
    let one ← firstOne contract ordered
    let x ← externalI64 caseId one.1 one.2
    expectedUnary caseId op x
  | none, none, none =>
    .error "external vectors are currently admitted only for recognized scalar integer oracles"

/-- `derive_external_vector`. -/
def deriveExternalVector (contract : CheckedContract) (case : ExternalVectorCase) :
    Except String TestVector :=
  if (Text.trim case.id).isEmpty then .error "external case id must not be empty"
  else if case.inputs.entries.length ≠ contract.parameters.length ∨
      contract.parameters.any (fun param => (case.inputs.get param.name).isNone) then
    .error ("external case '" ++ case.id ++ "' must provide exactly these inputs: " ++
      ", ".intercalate (contract.parameters.map CheckedParam.name))
  else
    let ordered := contract.parameters.filterMap (fun param => case.inputs.get param.name)
    (externalExpected contract case.id ordered).map
      (fun expected => ⟨"external:" ++ case.id, ordered, expected⟩)

/-- `detect_harness_shape`. -/
def detectHarnessShape (vectors : List TestVector) : Except String HarnessShape :=
  match vectors with
  | [] => .error "no test vectors"
  | vector :: _ =>
    match vector.inputs with
    | [one] =>
      if one.isNumber then .ok .pureIntUnary else if one.isBuffer then .ok .cellLoad else unsupported 1
    | [one, two] =>
      if one.isBuffer && two.isNumber then .ok .i64Sum
      else if one.isNumber && two.isNumber then .ok .pureInt else unsupported 2
    | [one, two, three] =>
      if one.isBuffer && two.isBuffer && three.isNumber then .ok .memCmp
      else if one.isBuffer && two.isNumber && three.isNumber then .ok .bufferScan
      else unsupported 3
    | [one, two, three, four] =>
      if one.isBuffer && two.isNumber && three.isNumber && four.isNumber then .ok .replaceByte
      else unsupported 4
    | inputs => unsupported inputs.length
where
  /-- The error of an unknown layout. -/
  unsupported (count : Nat) : Except String HarnessShape :=
    .error ("unsupported test vector shape (" ++ toString count ++ " inputs); expected " ++
      "buffer-scan (3: array/null + two numbers), replace-byte (4: array/null + three numbers), " ++
      "memcmp (3: two arrays/null + length), i64-sum (2: array/null + length), " ++
      "pure-int (2 numeric), pure-int-unary (1 numeric), or cell-load (1: array/null)")

/-- The detected layout goes with the expected shape. -/
def compatible (expected detected : HarnessShape) : Bool :=
  detected == expected || (expected == .memset && detected == .bufferScan) ||
    (expected == .memcpy && detected == .memCmp) || (expected == .cellStore && detected == .i64Sum)

/-- `resolve_harness_shape`. -/
def resolveHarnessShape (contract : CheckedContract) (vectors : List TestVector) :
    Except String HarnessShape :=
  match recognizeBehaviorOracle contract with
  | none => .error "no recognized behavior oracle for contract shape"
  | some oracle => do
    let expected ← oracleExpectedShape oracle.id
    let detected ← detectHarnessShape vectors
    if compatible expected detected then .ok expected
    else .error ("oracle \x60" ++ oracle.id ++ "\x60 expects " ++ expected.name ++
      " vectors but harness detected " ++ detected.name)

end Semasm.Agent.Harness
