import Semasm.Contract.Checked
import Semasm.Text

/-!
# Recognized contract shapes

A contract is matched against the calling shapes the harness supports, by the types of
its parameters and returns, words of its name, its effects and the form of its
conditions. The first shape that matches names the builtin oracle.
-/

namespace Semasm.Agent.Harness

open Contract

/-- `DEFAULT_BUFFER_SCAN_NEEDLE`. -/
def defaultBufferScanNeedle : UInt8 := 0x41

/-- The name of the contract in lower case contains the text. -/
def named (contract : CheckedContract) (text : String) : Bool :=
  Text.contains (Text.asciiLower contract.name) text

/-- The contract declares an effect of the kind. -/
def hasEffect (contract : CheckedContract) (kind : String) : Bool :=
  contract.effects.any (fun effect => effect.kind == kind)

/-- A return has the type. -/
def returnsType (contract : CheckedContract) (ty : SemType) : Bool :=
  contract.returns.any (fun result => result.ty == ty)

/-- The parameters of the type. -/
def paramsOf (contract : CheckedContract) (ty : SemType) : List CheckedParam :=
  contract.parameters.filter (fun param => param.ty == ty)

/-- `ident_name`. -/
def identName : Expr → Option String
  | .ident name _ => some name
  | _ => none

/-- `int_value`. -/
def intValue : Expr → Option Int64
  | .int value _ => some value
  | _ => none

/-- `usize::try_from` of a signed value. -/
def toUsize (value : Int64) : Option UInt64 := if 0 ≤ value then some value.toUInt64 else none

/-- `u8::try_from` of a signed value. -/
def toU8 (value : Int64) : Option UInt8 :=
  if 0 ≤ value ∧ value < 256 then some (UInt8.ofNat value.toInt.toNat) else none

/-- `saturating_sub(1)`. -/
def minusOne (value : UInt64) : UInt64 := if value = 0 then 0 else value - 1

/-- `length_bound_from_expr`. -/
def lengthBoundFromExpr (lengthName : String) : Expr → Option UInt64
  | .binary op left right _ =>
    match op, identName left, identName right, intValue left, intValue right with
    | .le, some name, none, none, some bound =>
      if name = lengthName then toUsize bound else none
    | .lt, some name, none, none, some bound =>
      if name = lengthName then (toUsize bound).map minusOne else none
    | .ge, none, some name, some bound, none =>
      if name = lengthName then toUsize bound else none
    | .gt, none, some name, some bound, none =>
      if name = lengthName then (toUsize bound).map minusOne else none
    | _, _, _, _, _ => none
  | _ => none

/-- `length_bound_from_requires`: the least of the bounds. -/
def lengthBoundFromRequires (contract : CheckedContract) (lengthName : String) : Option UInt64 :=
  contract.requires.foldl (fun best condition =>
    match lengthBoundFromExpr lengthName condition.expr, best with
    | some bound, some existing => some (if bound < existing then bound else existing)
    | some bound, none => some bound
    | none, best => best) none

/-- `needle_from_expr`. -/
def needleFromExpr (needleName : String) : Expr → Option UInt8
  | .binary .eq left right _ =>
    match identName left, identName right, intValue left, intValue right with
    | some name, none, none, some value | none, some name, some value, none =>
      if name = needleName then toU8 value else none
    | _, _, _, _ => none
  | _ => none

/-- `needle_from_requires`. -/
def needleFromRequires (contract : CheckedContract) (needleName : String) : Option UInt8 :=
  contract.requires.findSome? (fun condition => needleFromExpr needleName condition.expr)

/-- `allows_null_when_empty`. -/
def allowsNullWhenEmpty (contract : CheckedContract) (ptrName lengthName : String) : Bool :=
  contract.effects.any (fun effect => effect.kind == "memory_read" &&
    effect.region.any (fun region => Text.trim region == ptrName ++ "[0.." ++ lengthName ++ "]"))

/-- A pointer type of the given constness, whatever the pointee. -/
def isPtrOf (isConst : Bool) : SemType → Bool
  | .ptr _ other => other == isConst
  | _ => false

/-- Which buffer-scan semantic the same calling shape implements. -/
inductive BufferScanOp where
  | count | findFirst | findLast
deriving DecidableEq, Repr

/-- `buffer_scan_op_from_name`. -/
def bufferScanOpFromName (contract : CheckedContract) : Option BufferScanOp :=
  let hasCount := named contract "count"
  let hasLast := named contract "last" || named contract "rfind"
  let hasFind := named contract "find" || named contract "index"
  match hasCount, hasLast, hasFind with
  | true, false, false => some .count
  | false, true, _ => some .findLast
  | false, false, true => some .findFirst
  | _, _, _ => none

/-- Resolved calling shape for the canonical buffer-scan function. -/
structure ScanShape where
  op : BufferScanOp
  needle : UInt8
  maxLength : Option UInt64
  allowsNullWhenEmpty : Bool
deriving DecidableEq, Repr

/-- `scan_shape`. -/
def scanShape (contract : CheckedContract) : Option ScanShape := do
  let ptr ← contract.parameters.find? (fun param => isPtrOf true param.ty)
  let length ← (paramsOf contract .usize).head?
  let needle ← (paramsOf contract (.uint 8)).head?
  if returnsType contract .usize then
    let op ← bufferScanOpFromName contract
    some ⟨op, (needleFromRequires contract needle.name).getD defaultBufferScanNeedle,
      lengthBoundFromRequires contract length.name,
      allowsNullWhenEmpty contract ptr.name length.name⟩
  else none

/-- Resolved calling shape for in-place byte replacement. -/
structure ReplaceByteShape where
  needle : UInt8
  replacement : UInt8
  maxLength : Option UInt64
deriving DecidableEq, Repr

/-- `replace_byte_shape`. -/
def replaceByteShape (contract : CheckedContract) : Option ReplaceByteShape :=
  if named contract "replace" && hasEffect contract "memory_write" then do
    let _ ← contract.parameters.find? (fun param => isPtrOf false param.ty)
    let length ← (paramsOf contract .usize).head?
    match paramsOf contract (.uint 8) with
    | needle :: replacement :: _ =>
      if returnsType contract .usize then
        some ⟨(needleFromRequires contract needle.name).getD defaultBufferScanNeedle,
          (needleFromRequires contract replacement.name).getD 0,
          lengthBoundFromRequires contract length.name⟩
      else none
    | _ => none
  else none

/-- Resolved calling shape for whole-buffer fill. -/
structure MemsetShape where
  value : UInt8
  maxLength : Option UInt64
deriving DecidableEq, Repr

/-- `memset_shape`. -/
def memsetShape (contract : CheckedContract) : Option MemsetShape :=
  if named contract "memset" && hasEffect contract "memory_write" then do
    let _ ← contract.parameters.find? (fun param => isPtrOf false param.ty)
    let length ← (paramsOf contract .usize).head?
    match paramsOf contract (.uint 8) with
    | [value] =>
      if returnsType contract .usize then
        some ⟨(needleFromRequires contract value.name).getD defaultBufferScanNeedle,
          lengthBoundFromRequires contract length.name⟩
      else none
    | _ => none
  else none

/-- Resolved calling shape for whole-buffer copy. -/
structure MemcpyShape where
  maxLength : Option UInt64
deriving DecidableEq, Repr

/-- `memcpy_shape`. -/
def memcpyShape (contract : CheckedContract) : Option MemcpyShape :=
  if named contract "memcpy" && hasEffect contract "memory_write" &&
      contract.parameters.length == 3 && contract.returns.length == 1 then do
    let _ ← (paramsOf contract (.ptr (.uint 8) false)).head?
    let _ ← (paramsOf contract (.ptr (.uint 8) true)).head?
    let length ← (paramsOf contract .usize).head?
    if returnsType contract .usize then
      some ⟨lengthBoundFromRequires contract length.name⟩
    else none
  else none

/-- Resolved calling shape for unsigned lexicographic byte comparison. -/
structure MemCmpShape where
  maxLength : Option UInt64
  allowsNull : Bool
deriving DecidableEq, Repr

/-- `memcmp_shape`. -/
def memcmpShape (contract : CheckedContract) : Option MemCmpShape :=
  if (named contract "memcmp" || named contract "bcmp") &&
      contract.parameters.length == 3 && contract.returns.length == 1 then
    match paramsOf contract (.ptr (.uint 8) true), paramsOf contract .usize with
    | [first, second], [length] =>
      if first.name ≠ second.name ∧ returnsType contract .isize then
        some ⟨lengthBoundFromRequires contract length.name,
          allowsNullWhenEmpty contract first.name length.name &&
            allowsNullWhenEmpty contract second.name length.name⟩
      else none
    | _, _ => none
  else none

/-- Resolved calling shape for the canonical i64 wrapping-sum function. -/
structure I64SumShape where
  maxLength : Option UInt64
  allowsNullWhenEmpty : Bool
deriving DecidableEq, Repr

/-- `i64_sum_shape`. -/
def i64SumShape (contract : CheckedContract) : Option I64SumShape := do
  let ptr ← (paramsOf contract (.ptr (.int 64) true)).head?
  let length ← (paramsOf contract .usize).head?
  if returnsType contract (.int 64) ∧ contract.parameters.length = 2 then
    some ⟨lengthBoundFromRequires contract length.name,
      allowsNullWhenEmpty contract ptr.name length.name⟩
  else none

/-- Recognized binary operation for `(usize, usize) -> usize`. -/
inductive PureIntOp where
  | min | max
deriving DecidableEq, Repr

/-- `PureIntOp::reduce`. -/
def PureIntOp.reduce : PureIntOp → UInt64 → UInt64 → UInt64
  | .min, a, b => if a ≤ b then a else b
  | .max, a, b => if a ≤ b then b else a

/-- The words that decide between two operations. -/
def oneOf {α : Type} (first second : Bool) (one two : α) : Option α :=
  match first, second with
  | true, false => some one
  | false, true => some two
  | _, _ => none

/-- `pure_int_op_from_name`. -/
def pureIntOpFromName (contract : CheckedContract) : Option PureIntOp :=
  oneOf (named contract "min") (named contract "max") .min .max

/-- `pure_int_op_from_ensures`. -/
def pureIntOpFromEnsures (contract : CheckedContract) : Option PureIntOp :=
  let sources := contract.ensures.map (fun condition =>
    Text.asciiLower (String.ofList
      (condition.source.toList.filter (fun c => !Text.isWhitespace c))))
  oneOf (sources.contains "result<=a" && sources.contains "result<=b")
    (sources.contains "result>=a" && sources.contains "result>=b") .min .max

/-- The operation that the name and the conditions agree on. -/
def agreed {α : Type} [DecidableEq α] (byName byEnsures : Option α) : Option α :=
  match byName, byEnsures with
  | some one, some two => if one = two then some one else none
  | some one, none => some one
  | none, some two => some two
  | none, none => none

/-- `pure_int_types`. -/
def pureIntTypes (contract : CheckedContract) : Bool :=
  (paramsOf contract .usize).length == 2 &&
    !contract.parameters.any (fun param => param.ty.isPtr || param.ty == .uint 8) &&
    returnsType contract .usize

/-- `pure_int_shape`. -/
def pureIntShape (contract : CheckedContract) : Option PureIntOp :=
  if pureIntTypes contract then agreed (pureIntOpFromName contract) (pureIntOpFromEnsures contract)
  else none

/-- Recognized binary operation for `(i64, i64) -> i64`. -/
inductive PureIntI64Op where
  | add | sub | min | max | addThenDouble
deriving DecidableEq, Repr

/-- `PureIntI64Op::reduce`. -/
def PureIntI64Op.reduce : PureIntI64Op → Int64 → Int64 → Int64
  | .add, a, b => a + b
  | .sub, a, b => a - b
  | .min, a, b => if a ≤ b then a else b
  | .max, a, b => if a ≤ b then b else a
  | .addThenDouble, a, b => (a + b) * 2

/-- `name_token_hit`. -/
def nameTokenHit (contract : CheckedContract) (needle : String) : Bool :=
  let lower := Text.asciiLower contract.name
  lower == needle || Text.startsWith lower (needle ++ "_") || Text.endsWith lower ("_" ++ needle) ||
    Text.contains lower ("_" ++ needle ++ "_")

/-- The operation of the only test that hits. -/
def onlyHit {α : Type} (tests : List (Bool × α)) : Option α :=
  match tests.filter (fun test => test.1) with
  | [(_, op)] => some op
  | _ => none

/-- `pure_int_i64_op_from_name`. -/
def pureIntI64OpFromName (contract : CheckedContract) : Option PureIntI64Op :=
  if named contract "add_then" || named contract "then_double" then some .addThenDouble
  else
    onlyHit [(nameTokenHit contract "add" || nameTokenHit contract "sum", .add),
      (nameTokenHit contract "sub", .sub), (nameTokenHit contract "min", .min),
      (nameTokenHit contract "max", .max)]

/-- `pure_int_i64_op_from_ensures`. -/
def pureIntI64OpFromEnsures (contract : CheckedContract) : Option PureIntI64Op :=
  (pureIntOpFromEnsures contract).map (fun op =>
    match op with
    | .min => .min
    | .max => .max)

/-- `pure_int_i64_types`. -/
def pureIntI64Types (contract : CheckedContract) : Bool :=
  contract.parameters.length == 2 && (paramsOf contract (.int 64)).length == 2 &&
    returnsType contract (.int 64)

/-- `pure_int_i64_shape`. -/
def pureIntI64Shape (contract : CheckedContract) : Option PureIntI64Op :=
  if pureIntI64Types contract then
    agreed (pureIntI64OpFromName contract) (pureIntI64OpFromEnsures contract)
  else none

/-- Recognized unary operation for `(i64) -> i64`. -/
inductive PureIntUnaryI64Op where
  | identity | abs | sumRange | countdown | double | inc | addBase100
deriving DecidableEq, Repr

/-- `PureIntUnaryI64Op::reduce`. -/
def PureIntUnaryI64Op.reduce : PureIntUnaryI64Op → Int64 → Int64
  | .identity, x | .countdown, x => x
  | .abs, x => if x < 0 then -x else x
  | .sumRange, x => x * (x + 1) / 2
  | .double, x => x * 2
  | .inc, x => x + 1
  | .addBase100, x => x + 100

/-- `pure_int_unary_i64_types`. -/
def pureIntUnaryI64Types (contract : CheckedContract) : Bool :=
  contract.parameters.length == 1 && (paramsOf contract (.int 64)).length == 1 &&
    returnsType contract (.int 64)

/-- `pure_int_unary_i64_shape`. -/
def pureIntUnaryI64Shape (contract : CheckedContract) : Option PureIntUnaryI64Op :=
  if pureIntUnaryI64Types contract then
    onlyHit [(named contract "abs", .abs), (named contract "sum_range", .sumRange),
      (named contract "countdown", .countdown),
      (named contract "scale" || (named contract "double" && !named contract "then"), .double),
      (nameTokenHit contract "inc" || named contract "increment", .inc),
      (named contract "add_base", .addBase100),
      (named contract "return" || named contract "identity" || named contract "stack_local" ||
        named contract "spill", .identity)]
  else none

/-- `cell_load_shape`. -/
def cellLoadShape (contract : CheckedContract) : Bool := named contract "load_byte0"

/-- `cell_store_shape`. -/
def cellStoreShape (contract : CheckedContract) : Bool := named contract "store_byte0"

/-- `is_read_only_buffer_scan`. -/
def isReadOnlyBufferScan (contract : CheckedContract) : Bool :=
  if cellLoadShape contract then true
  else if cellStoreShape contract then false
  else if (pureIntShape contract).isSome || (pureIntI64Shape contract).isSome ||
      (pureIntUnaryI64Shape contract).isSome then
    !hasEffect contract "memory_write"
  else if (scanShape contract).isNone && (memcmpShape contract).isNone &&
      (i64SumShape contract).isNone then false
  else hasEffect contract "memory_read" && !hasEffect contract "memory_write"

/-- Resolved calling shape for the harness generator. -/
inductive HarnessShape where
  | bufferScan | replaceByte | memset | memCmp | memcpy | i64Sum | pureInt | pureIntUnary
  | cellLoad | cellStore
deriving DecidableEq, Repr

/-- The name of a shape in messages. -/
def HarnessShape.name : HarnessShape → String
  | .bufferScan => "BufferScan" | .replaceByte => "ReplaceByte" | .memset => "Memset"
  | .memCmp => "MemCmp" | .memcpy => "Memcpy" | .i64Sum => "I64Sum" | .pureInt => "PureInt"
  | .pureIntUnary => "PureIntUnary" | .cellLoad => "CellLoad" | .cellStore => "CellStore"

/-- Recognized builtin behavioral oracle for a contract shape. -/
structure RecognizedOracle where
  id : String
  version : Nat
  claim : String
deriving DecidableEq, Repr

/-- `PureIntOp::claim`. -/
def PureIntOp.claim : PureIntOp → String
  | .min => "result equals min(a, b) for the recognized two-usize pure-integer shape"
  | .max => "result equals max(a, b) for the recognized two-usize pure-integer shape"

/-- `PureIntI64Op::claim`. -/
def PureIntI64Op.claim : PureIntI64Op → String
  | .add => "result equals a.wrapping_add(b) for the recognized two-i64 pure-integer shape"
  | .sub => "result equals a.wrapping_sub(b) for the recognized two-i64 pure-integer shape"
  | .min => "result equals min(a, b) for the recognized two-i64 pure-integer shape"
  | .max => "result equals max(a, b) for the recognized two-i64 pure-integer shape"
  | .addThenDouble => "result equals 2.wrapping_mul(a.wrapping_add(b)) for the recognized " ++
      "add-then-double shape"

/-- `PureIntUnaryI64Op::claim`. -/
def PureIntUnaryI64Op.claim : PureIntUnaryI64Op → String
  | .identity => "result equals x for the recognized one-i64 pure-integer shape"
  | .abs => "result equals x.wrapping_abs() for the recognized one-i64 pure-integer shape"
  | .sumRange => "result equals the wrapping sum 0+1+…+n for the recognized one-i64 sum_range shape"
  | .countdown => "result equals n after counting n down to 0 for the recognized one-i64 " ++
      "countdown shape"
  | .double => "result equals x.wrapping_mul(2) for the recognized one-i64 scale/double shape"
  | .inc => "result equals x.wrapping_add(1) for the recognized one-i64 inc shape"
  | .addBase100 => "result equals x.wrapping_add(100) for the recognized one-i64 add_base shape"

/-- The oracle of a buffer scan. -/
def BufferScanOp.oracle : BufferScanOp → RecognizedOracle
  | .count => ⟨"builtin.buffer.count_equal_u8", 2,
      "result equals the number of bytes in buffer[0..length] equal to needle"⟩
  | .findFirst => ⟨"builtin.buffer.find_first_u8", 1,
      "result equals the first index of needle in buffer[0..length], or length when absent"⟩
  | .findLast => ⟨"builtin.buffer.find_last_u8", 1,
      "result equals the last index of needle in buffer[0..length], or length when absent"⟩

/-- The recognized oracle of a contract without a scalar or a cell shape. -/
def recognizeBuffer (contract : CheckedContract) : Option RecognizedOracle :=
  match scanShape contract with
  | some shape => some shape.op.oracle
  | none =>
    if (replaceByteShape contract).isSome then
      some ⟨"builtin.buffer.replace_byte", 1, "result equals how many buffer[0..length] bytes " ++
        "equal to needle were replaced with replacement; buffer bytes must match"⟩
    else if (memsetShape contract).isSome then
      some ⟨"builtin.buffer.memset", 1,
        "every buffer[0..length] byte equals value after the call; result is always 0"⟩
    else if (memcpyShape contract).isSome then
      some ⟨"builtin.buffer.memcpy", 1, "dst[0..length] equals src[0..length] after the call; " ++
        "src is unchanged; result is always 0"⟩
    else if (memcmpShape contract).isSome then
      some ⟨"builtin.buffer.memcmp_i8", 1, "result is -1, 0, or 1 from unsigned lexicographic " ++
        "comparison of a[0..length] and b[0..length]"⟩
    else if (i64SumShape contract).isSome then
      some ⟨"builtin.buffer.wrapping_sum_i64", 2,
        "result equals the wrapping sum of i64 elements in values[0..length]"⟩
    else none

/-- The recognized oracle of a contract with a scalar shape. -/
def recognizeScalar (contract : CheckedContract) : Option RecognizedOracle :=
  match pureIntShape contract, pureIntI64Shape contract, pureIntUnaryI64Shape contract with
  | some op, _, _ => some ⟨"builtin.pure_int.binary_usize", 2, op.claim⟩
  | none, some op, _ => some ⟨"builtin.pure_int.binary_i64", 2, op.claim⟩
  | none, none, some op => some ⟨"builtin.pure_int.unary_i64", 3, op.claim⟩
  | none, none, none => none

/-- The recognized oracle of a contract with a cell shape. -/
def recognizeCell (contract : CheckedContract) : Option RecognizedOracle :=
  if cellLoadShape contract then
    some ⟨"builtin.buffer.load_byte0", 1,
      "result equals the zero-extended byte at buffer[0] (fixed 1-byte cell)"⟩
  else if cellStoreShape contract then
    some ⟨"builtin.buffer.store_byte0", 1,
      "stores value at buffer[0] (fixed 1-byte cell) and returns the zero-extended value"⟩
  else none

/-- `recognize_behavior_oracle`. -/
def recognizeBehaviorOracle (contract : CheckedContract) : Option RecognizedOracle :=
  (recognizeBuffer contract).or ((recognizeScalar contract).or (recognizeCell contract))

/-- `oracle_expected_shape`. -/
def oracleExpectedShape (id : String) : Except String HarnessShape :=
  match id with
  | "builtin.buffer.count_equal_u8" | "builtin.buffer.find_first_u8"
  | "builtin.buffer.find_last_u8" => .ok .bufferScan
  | "builtin.buffer.replace_byte" => .ok .replaceByte
  | "builtin.buffer.memset" => .ok .memset
  | "builtin.buffer.memcpy" => .ok .memcpy
  | "builtin.buffer.memcmp_i8" => .ok .memCmp
  | "builtin.buffer.wrapping_sum_i64" => .ok .i64Sum
  | "builtin.pure_int.binary_usize" | "builtin.pure_int.binary_i64" => .ok .pureInt
  | "builtin.pure_int.unary_i64" => .ok .pureIntUnary
  | "builtin.buffer.load_byte0" => .ok .cellLoad
  | "builtin.buffer.store_byte0" => .ok .cellStore
  | other => .error ("unrecognized oracle id `" ++ other ++ "`")

/-- A scalar type list has no pointer. -/
theorem noPtr_of_scalar (contract : CheckedContract)
    (scalar : pureIntTypes contract = true ∨ pureIntI64Types contract = true ∨
      pureIntUnaryI64Types contract = true) :
    ∀ param ∈ contract.parameters, param.ty.isPtr = false := by
  intro param member
  have whole : (paramsOf contract (.int 64)).length = contract.parameters.length →
      param.ty.isPtr = false := by
    intro same
    have all := List.length_filter_eq_length_iff.mp same param member
    rw [beq_iff_eq] at all
    rw [all]
    rfl
  rcases scalar with usize | pair | single
  · simp only [pureIntTypes, Bool.and_eq_true, Bool.not_eq_true', List.any_eq_false] at usize
    have own := usize.1.2 param member
    simp only [Bool.or_eq_true, not_or] at own
    simpa using own.1
  · simp only [pureIntI64Types, Bool.and_eq_true, beq_iff_eq] at pair
    exact whole (by omega)
  · simp only [pureIntUnaryI64Types, Bool.and_eq_true, beq_iff_eq] at single
    exact whole (by omega)

/-- No parameter has a pointer type. -/
theorem paramsOf_ptr (contract : CheckedContract)
    (noPtr : ∀ param ∈ contract.parameters, param.ty.isPtr = false) (inner : SemType)
    (isConst : Bool) : paramsOf contract (.ptr inner isConst) = [] := by
  apply List.filter_eq_nil_iff.mpr
  intro param member same
  have own := noPtr param member
  rw [beq_iff_eq] at same
  rw [same] at own
  cases own

/-- No buffer shape matches a contract without pointers. -/
theorem recognizeBuffer_noPtr (contract : CheckedContract)
    (noPtr : ∀ param ∈ contract.parameters, param.ty.isPtr = false) :
    recognizeBuffer contract = none := by
  have found : ∀ isConst, contract.parameters.find? (fun param => isPtrOf isConst param.ty) = none := by
    intro isConst
    apply List.find?_eq_none.mpr
    intro param member same
    have own := noPtr param member
    cases ty : param.ty <;> simp [ty, isPtrOf, SemType.isPtr] at own same
  have typed := paramsOf_ptr contract noPtr
  simp [recognizeBuffer, scanShape, replaceByteShape, memsetShape, memcpyShape, memcmpShape,
    i64SumShape, found, typed]

end Semasm.Agent.Harness
