import Mathlib.Order.Lattice
import Semasm.Agent.Harness.Reference
import Semasm.Library.Extremes

/-!
# The numbers that vectors pass

A clause of the contract that compares an integer parameter with a literal binds the input
at the position of the parameter. What the vectors of a shape pass at a position are some
fixed numbers, the constants read off the contract and the fixture length, so the clause
holds in all of them exactly when it fits the least and the greatest of these.
-/

namespace Semasm.Agent.Harness

open Contract Library.Extremes

/-- The comparison of an operator. -/
def comparisonOf : BinOp → Option Comparison
  | .lt => some .lt
  | .le => some .le
  | .gt => some .gt
  | .ge => some .ge
  | .eq => some .eq
  | .ne => some .ne
  | _ => none

/-- The number that a literal writes, with a sign or without. -/
def literalValue : Expr → Option Int
  | .int value _ => some value.toInt
  | .unary .neg (.int value _) _ => some (-value.toInt)
  | _ => none

/-- A clause that compares the name with a literal, in either order. -/
def literalClause (name : String) : Expr → Option (Comparison × Int)
  | .binary op left right _ =>
    match identName left, literalValue right, literalValue left, identName right with
    | some other, some bound, _, _ =>
      if other = name then (comparisonOf op).map (fun comparison => (comparison, bound)) else none
    | _, _, some bound, some other =>
      if other = name then (comparisonOf op).map (fun comparison => (comparison.mirror, bound))
      else none
    | _, _, _, _ => none
  | _ => none

/-- An input as an integer. -/
def Json.asInt : Json → Option Int
  | .number (.pos value) => some value.toNat
  | .number (.neg value) => some value.toInt
  | _ => none

/-- What a contract requires of the number passed at a position. -/
def Bound (contract : CheckedContract) (position : Nat) (comparison : Comparison) (bound : Int) :
    Prop :=
  ∃ condition ∈ contract.requires, ∃ param, contract.parameters[position]? = some param ∧
    param.ty.isInteger = true ∧ literalClause param.name condition.expr = some (comparison, bound)

/-- The inputs meet every clause that compares an integer parameter with a literal. -/
def MeetsClauses (contract : CheckedContract) (inputs : List Json) : Prop :=
  ∀ position comparison bound, Bound contract position comparison bound →
    ∃ value, (inputs[position]?).bind Json.asInt = some value ∧ comparison.Holds value bound

/-- The numbers passed at the positions of a shape. A position without an extent is passed
buffers, or nothing. -/
abbrev Columns := List (Option (Extent Int))

/-- The extent at a position. -/
def Columns.extentAt (columns : Columns) (position : Nat) : Option (Extent Int) :=
  columns.getD position none

/-- What the vectors pass at a position, as numbers. -/
def numbersAt (vectors : List TestVector) (position : Nat) : List (Option Int) :=
  vectors.map (fun vector => (vector.inputs[position]?).bind Json.asInt)

/-- The columns hold the numbers that the vectors pass. -/
def Columns.Describe (columns : Columns) (vectors : List TestVector) : Prop :=
  ∀ position, match columns.extentAt position with
    | some extent => numbersAt vectors position ⊆ extent.values.map some ∧
        extent.values.map some ⊆ numbersAt vectors position
    | none => none ∈ numbersAt vectors position

/-- Every clause is on a position that is passed numbers, and fits them. -/
def ClausesFit (contract : CheckedContract) (columns : Columns) : Prop :=
  ∀ position comparison bound, Bound contract position comparison bound →
    ∃ extent, columns.extentAt position = some extent ∧ comparison.Fits extent bound

/-- The vectors meet the clauses exactly when the clauses fit the columns. -/
theorem meetsClauses_iff (contract : CheckedContract) (columns : Columns) (vectors : List TestVector)
    (describe : columns.Describe vectors) :
    (∀ vector ∈ vectors, MeetsClauses contract vector.inputs) ↔ ClausesFit contract columns := by
  constructor
  · intro met position comparison bound bounded
    have described := describe position
    split at described
    next extent found =>
      refine ⟨extent, found, (extent.forall_holds_iff comparison bound).mp ?_⟩
      intro value member
      obtain ⟨vector, listed, passed⟩ := List.mem_map.mp (described.2 (List.mem_map_of_mem member))
      obtain ⟨other, same, holds⟩ := met vector listed position comparison bound bounded
      rw [passed] at same
      cases same
      exact holds
    next =>
      obtain ⟨vector, listed, passed⟩ := List.mem_map.mp described
      obtain ⟨other, same, _⟩ := met vector listed position comparison bound bounded
      rw [passed] at same
      cases same
  · intro fits vector listed position comparison bound bounded
    obtain ⟨extent, found, fit⟩ := fits position comparison bound bounded
    have described := describe position
    rw [found] at described
    obtain ⟨value, member, passed⟩ :=
      List.mem_map.mp (described.1 (List.mem_map.mpr ⟨vector, listed, rfl⟩))
    exact ⟨value, passed.symm, (extent.forall_holds_iff comparison bound).mpr fit value member⟩

/-! ## The columns of the shapes -/

/-- Some fixed lengths from zero and the fixture length. -/
def lengthExtent (fixed : List Int) (top : Int) (fits : 0 ∈ fixed ∧ top ∈ fixed ∧
    ∀ value ∈ fixed, 0 ≤ value ∧ value ≤ top) (maxLength : Option UInt64) : Extent Int where
  values := fixed ++ [(fixtureLength maxLength : Int)]
  least := 0
  greatest := max top (fixtureLength maxLength)
  least_mem := List.mem_append_left _ fits.1
  greatest_mem := by
    rcases max_choice top (fixtureLength maxLength : Int) with same | same <;> rw [same]
    · exact List.mem_append_left _ fits.2.1
    · exact List.mem_append_right _ (List.mem_singleton_self _)
  between := by
    intro value member
    rcases List.mem_append.mp member with old | new
    · have inside := fits.2.2 value old
      exact ⟨inside.1, le_max_of_le_left inside.2⟩
    · rw [List.mem_singleton.mp new]
      exact ⟨Int.natCast_nonneg _, le_max_right _ _⟩

/-- A byte as a number. -/
def byteExtent (byte : UInt8) : Extent Int := Extent.single (byte.toNat : Int)

/-- Two bytes as numbers. -/
def pairExtent (one two : UInt8) : Extent Int where
  values := [(one.toNat : Int), (two.toNat : Int)]
  least := min (one.toNat : Int) two.toNat
  greatest := max (one.toNat : Int) two.toNat
  least_mem := by
    rcases min_choice (one.toNat : Int) two.toNat with same | same <;> simp [same]
  greatest_mem := by
    rcases max_choice (one.toNat : Int) two.toNat with same | same <;> simp [same]
  between := by simp

/-- Fixed numbers. -/
def fixedExtent (values : List Int) (least greatest : Int) (fits : least ∈ values ∧
    greatest ∈ values ∧ ∀ value ∈ values, least ≤ value ∧ value ≤ greatest) : Extent Int where
  values := values
  least := least
  greatest := greatest
  least_mem := fits.1
  greatest_mem := fits.2.1
  between := fits.2.2

/-- The lengths of a replacement. The one of three bytes is left out when the needle is the
replacement. -/
def replaceLengths (shape : ReplaceByteShape) : Extent Int :=
  if shape.needle = shape.replacement then lengthExtent [0, 1, 5] 5 (by decide) shape.maxLength
  else lengthExtent [0, 1, 3, 5] 5 (by decide) shape.maxLength

/-- The numbers of a unary shape. -/
def unaryExtent : PureIntUnaryI64Op → Extent Int
  | .sumRange => fixedExtent [0, 1, 5, 10, 20] 0 20 (by decide)
  | .countdown => fixedExtent [0, 5, 10, -3, -1] (-3) 10 (by decide)
  | .double | .inc | .addBase100 | .identity | .abs =>
    fixedExtent [0, 5, -5, 9223372036854775807, -9223372036854775808] (-9223372036854775808)
      9223372036854775807 (by decide)

/-- The numbers that the vectors of a shape pass. -/
def RecognizedShape.columns : RecognizedShape → Columns
  | .scan shape => [none, some (lengthExtent [0, 1, 2, 3] 3 (by decide) shape.maxLength),
      some (byteExtent shape.needle)]
  | .replaceByte shape => [none, some (replaceLengths shape), some (byteExtent shape.needle),
      some (pairExtent shape.needle shape.replacement)]
  | .memset shape => [none, some (lengthExtent [0, 1, 3, 5] 5 (by decide) shape.maxLength),
      some (byteExtent shape.value)]
  | .memcpy shape => [none, none, some (lengthExtent [0, 1, 5] 5 (by decide) shape.maxLength)]
  | .memcmp shape => [none, none, some (lengthExtent [0, 1, 3, 4] 4 (by decide) shape.maxLength)]
  | .i64Sum shape => [none, some (lengthExtent [0, 1, 2, 3, 4] 4 (by decide) shape.maxLength)]
  | .pureInt _ => [some (fixedExtent [0, 1, 5, 7, 100] 0 100 (by decide)),
      some (fixedExtent [0, 2, 3, 7, 1000000, 50] 0 1000000 (by decide))]
  | .pureIntI64 _ =>
    [some (fixedExtent [0, 5, -3, -5, -7, 1000000, 9223372036854775807, -9223372036854775808]
        (-9223372036854775808) 9223372036854775807 (by decide)),
      some (fixedExtent [0, 3, 7, -2, -7, -50, 1, -1] (-50) 7 (by decide))]
  | .pureIntUnaryI64 op => [some (unaryExtent op)]
  | .cellLoad => [none]
  | .cellStore => [none, some (fixedExtent [7, 0, 0x22, 0xff] 0 0xff (by decide))]

/-! ## The vectors pass these numbers -/

@[simp] theorem asInt_bytesJson (bytes : List UInt8) : (bytesJson bytes).asInt = none := rfl

@[simp] theorem asInt_wordsJson (words : List Int64) : (wordsJson words).asInt = none := rfl

@[simp] theorem asInt_null : Json.null.asInt = none := rfl

theorem asInt_ofU64 (value : UInt64) : (Json.ofU64 value).asInt = some (value.toNat : Int) := rfl

@[simp] theorem asInt_byteJson (byte : UInt8) : (byteJson byte).asInt = some (byte.toNat : Int) := by
  simp [byteJson, asInt_ofU64]

@[simp] theorem asInt_ofI64 (value : Int64) : (Json.ofI64 value).asInt = some value.toInt := by
  unfold Json.ofI64
  split
  · rfl
  next nonNegative =>
    have number := Int64.toNat_toUInt64_of_le (Int64.not_lt.mp nonNegative)
    have positive := Int64.le_iff_toInt_le.mp (Int64.not_lt.mp nonNegative)
    simp only [Json.asInt, number]
    change some ((value.toInt.toNat : Nat) : Int) = some value.toInt
    rw [Int.toNat_of_nonneg positive]

@[simp] theorem scanVector_inputs (needle : UInt8) (name : String) (buffer : Json)
    (length expected : UInt64) :
    (scanVector needle name buffer length expected).inputs =
      [buffer, .ofU64 length, byteJson needle] := rfl

@[simp] theorem replaceVector_inputs (name : String) (buffer : Json) (length : UInt64)
    (needle replacement : UInt8) (expected : UInt64) :
    (replaceVector name buffer length needle replacement expected).inputs =
      [buffer, .ofU64 length, byteJson needle, byteJson replacement] := rfl

@[simp] theorem pairVector_inputs (name : String) (first second : Json) (length : UInt64)
    (expected : Json) :
    (pairVector name first second length expected).inputs = [first, second, .ofU64 length] := rfl

@[simp] theorem sumVector_inputs (name : String) (buffer : Json) (length : UInt64) (expected : Int64) :
    (sumVector name buffer length expected).inputs = [buffer, .ofU64 length] := rfl

@[simp] theorem lengthExtent_values (fixed : List Int) (top : Int) (fits : 0 ∈ fixed ∧ top ∈ fixed ∧
    ∀ value ∈ fixed, 0 ≤ value ∧ value ≤ top) (maxLength : Option UInt64) :
    (lengthExtent fixed top fits maxLength).values = fixed ++ [(fixtureLength maxLength : Int)] := rfl

@[simp] theorem byteExtent_values (byte : UInt8) : (byteExtent byte).values = [(byte.toNat : Int)] := rfl

@[simp] theorem fixedExtent_values (values : List Int) (least greatest : Int) (fits : least ∈ values ∧
    greatest ∈ values ∧ ∀ value ∈ values, least ≤ value ∧ value ≤ greatest) :
    (fixedExtent values least greatest fits).values = values := rfl

@[simp] theorem maxValue_toInt : Int64.maxValue.toInt = 9223372036854775807 := by decide

@[simp] theorem pairExtent_values (one two : UInt8) :
    (pairExtent one two).values = [(one.toNat : Int), (two.toNat : Int)] := rfl

/-- Vectors that pass the numbers of others add nothing to the columns. -/
theorem Columns.Describe.append {columns : Columns} {vectors : List TestVector}
    (describe : columns.Describe vectors) (others : List TestVector)
    (same : ∀ vector ∈ others, ∃ before ∈ vectors, ∀ position : Nat,
      (before.inputs[position]?).bind Json.asInt = (vector.inputs[position]?).bind Json.asInt) :
    columns.Describe (vectors ++ others) := by
  intro position
  have more : numbersAt vectors position ⊆ numbersAt (vectors ++ others) position := by
    simp [numbersAt]
  have fewer : numbersAt (vectors ++ others) position ⊆ numbersAt vectors position := by
    intro number member
    obtain ⟨vector, listed, rfl⟩ := List.mem_map.mp member
    rcases List.mem_append.mp listed with old | new
    · exact List.mem_map.mpr ⟨vector, old, rfl⟩
    · obtain ⟨before, old, alike⟩ := same vector new
      exact List.mem_map.mpr ⟨before, old, alike position⟩
  have described := describe position
  split at described
  next extent _ =>
    exact ⟨List.Subset.trans fewer described.1, List.Subset.trans described.2 more⟩
  next => exact more described

/-- The vector with a null pointer passes the numbers of the empty input. -/
theorem nullScanVector_numbers (shape : ScanShape) (first : TestVector) (rest : List TestVector)
    (empty : first.inputs = [.null, .ofU64 0, byteJson shape.needle]) :
    ∀ vector ∈ nullScanVector shape, ∃ before ∈ first :: rest, ∀ position : Nat,
      (before.inputs[position]?).bind Json.asInt = (vector.inputs[position]?).bind Json.asInt := by
  intro vector member
  unfold nullScanVector at member
  split at member
  · rw [List.mem_singleton.mp member]
    exact ⟨first, List.mem_cons_self, fun position => by rw [empty]; rfl⟩
  · cases member

/-- The numbers of the scans. -/
theorem describe_count (shape : ScanShape) :
    (RecognizedShape.scan shape).columns.Describe (synthesizeBufferScanVectors shape) := by
  have whole := fixtureLength_toNat shape.maxLength
  refine Columns.Describe.append ?_ _ (nullScanVector_numbers shape _ _ rfl)
  generalize UInt64.ofNat (fixtureLength shape.maxLength) = size at whole ⊢
  intro position
  match position with
  | 0 => simp [RecognizedShape.columns, Columns.extentAt, numbersAt]
  | 1 => simp [RecognizedShape.columns, Columns.extentAt, numbersAt, asInt_ofU64, ← whole]
  | 2 => simp [RecognizedShape.columns, Columns.extentAt, numbersAt]
  | position + 3 => simp [RecognizedShape.columns, Columns.extentAt, numbersAt]

theorem describe_findFirst (shape : ScanShape) :
    (RecognizedShape.scan shape).columns.Describe (synthesizeFindFirstVectors shape) := by
  have whole := fixtureLength_toNat shape.maxLength
  refine Columns.Describe.append ?_ _ (nullScanVector_numbers shape _ _ rfl)
  generalize UInt64.ofNat (fixtureLength shape.maxLength) = size at whole ⊢
  intro position
  match position with
  | 0 => simp [RecognizedShape.columns, Columns.extentAt, numbersAt]
  | 1 => simp [RecognizedShape.columns, Columns.extentAt, numbersAt, asInt_ofU64, ← whole]
  | 2 => simp [RecognizedShape.columns, Columns.extentAt, numbersAt]
  | position + 3 => simp [RecognizedShape.columns, Columns.extentAt, numbersAt]

theorem describe_findLast (shape : ScanShape) :
    (RecognizedShape.scan shape).columns.Describe (synthesizeFindLastVectors shape) := by
  have whole := fixtureLength_toNat shape.maxLength
  refine Columns.Describe.append ?_ _ (nullScanVector_numbers shape _ _ rfl)
  generalize UInt64.ofNat (fixtureLength shape.maxLength) = size at whole ⊢
  intro position
  match position with
  | 0 => simp [RecognizedShape.columns, Columns.extentAt, numbersAt]
  | 1 => simp [RecognizedShape.columns, Columns.extentAt, numbersAt, asInt_ofU64, ← whole]
  | 2 => simp [RecognizedShape.columns, Columns.extentAt, numbersAt]
  | position + 3 => simp [RecognizedShape.columns, Columns.extentAt, numbersAt]

/-- The numbers of a replacement. -/
theorem describe_replaceByte (shape : ReplaceByteShape) :
    (RecognizedShape.replaceByte shape).columns.Describe (synthesizeReplaceByteVectors shape) := by
  have whole := fixtureLength_toNat shape.maxLength
  unfold synthesizeReplaceByteVectors RecognizedShape.columns replaceLengths
  generalize UInt64.ofNat (fixtureLength shape.maxLength) = size at whole ⊢
  intro position
  match position with
  | 0 => simp [Columns.extentAt, numbersAt]
  | 1 =>
    by_cases same : shape.needle = shape.replacement <;>
      simp [Columns.extentAt, numbersAt, asInt_ofU64, ← whole, same]
  | 2 =>
    by_cases same : shape.needle = shape.replacement <;>
      simp [Columns.extentAt, numbersAt, same]
  | 3 =>
    by_cases same : shape.needle = shape.replacement <;>
      simp [Columns.extentAt, numbersAt, same]
  | position + 4 => simp [Columns.extentAt, numbersAt]

/-- The numbers of a fill. -/
theorem describe_memset (shape : MemsetShape) :
    (RecognizedShape.memset shape).columns.Describe (synthesizeMemsetVectors shape) := by
  have whole := fixtureLength_toNat shape.maxLength
  unfold synthesizeMemsetVectors RecognizedShape.columns
  generalize UInt64.ofNat (fixtureLength shape.maxLength) = size at whole ⊢
  intro position
  match position with
  | 0 => simp [Columns.extentAt, numbersAt]
  | 1 => simp [Columns.extentAt, numbersAt, asInt_ofU64, ← whole]
  | 2 => simp [Columns.extentAt, numbersAt]
  | position + 3 => simp [Columns.extentAt, numbersAt]

/-- The numbers of a copy. -/
theorem describe_memcpy (shape : MemcpyShape) :
    (RecognizedShape.memcpy shape).columns.Describe (synthesizeMemcpyVectors shape) := by
  have whole := fixtureLength_toNat shape.maxLength
  unfold synthesizeMemcpyVectors RecognizedShape.columns
  generalize UInt64.ofNat (fixtureLength shape.maxLength) = size at whole ⊢
  intro position
  match position with
  | 0 => simp [Columns.extentAt, numbersAt]
  | 1 => simp [Columns.extentAt, numbersAt]
  | 2 => simp [Columns.extentAt, numbersAt, asInt_ofU64, ← whole]
  | position + 3 => simp [Columns.extentAt, numbersAt]

/-- The numbers of a comparison. -/
theorem describe_memcmp (shape : MemCmpShape) :
    (RecognizedShape.memcmp shape).columns.Describe (synthesizeMemcmpVectors shape) := by
  have whole := fixtureLength_toNat shape.maxLength
  refine Columns.Describe.append ?_ _ ?_
  · generalize UInt64.ofNat (fixtureLength shape.maxLength) = size at whole ⊢
    intro position
    match position with
    | 0 => simp [RecognizedShape.columns, Columns.extentAt, numbersAt]
    | 1 => simp [RecognizedShape.columns, Columns.extentAt, numbersAt]
    | 2 => simp [RecognizedShape.columns, Columns.extentAt, numbersAt, asInt_ofU64, ← whole]
    | position + 3 => simp [RecognizedShape.columns, Columns.extentAt, numbersAt]
  · intro vector member
    split at member
    · rw [List.mem_singleton.mp member]
      refine ⟨_, List.mem_cons_self, fun position => ?_⟩
      match position with
      | 0 | 1 | 2 => rfl
      | position + 3 => rfl
    · cases member

/-- The numbers of a sum. -/
theorem describe_sum (shape : I64SumShape) :
    (RecognizedShape.i64Sum shape).columns.Describe (synthesizeI64SumVectors shape) := by
  have whole := fixtureLength_toNat shape.maxLength
  refine Columns.Describe.append ?_ _ ?_
  · generalize UInt64.ofNat (fixtureLength shape.maxLength) = size at whole ⊢
    intro position
    match position with
    | 0 => simp [RecognizedShape.columns, Columns.extentAt, numbersAt]
    | 1 => simp [RecognizedShape.columns, Columns.extentAt, numbersAt, asInt_ofU64, ← whole]
    | position + 2 => simp [RecognizedShape.columns, Columns.extentAt, numbersAt]
  · intro vector member
    split at member
    · rw [List.mem_singleton.mp member]
      exact ⟨_, List.mem_cons_self, fun position => rfl⟩
    · cases member

/-- The numbers of the scalar shapes and the cells. -/
theorem describe_pureInt (op : PureIntOp) :
    (RecognizedShape.pureInt op).columns.Describe (synthesizePureIntVectors op) := by
  unfold synthesizePureIntVectors RecognizedShape.columns
  intro position
  match position with
  | 0 => simp [Columns.extentAt, numbersAt, asInt_ofU64]
  | 1 => simp [Columns.extentAt, numbersAt, asInt_ofU64]
  | position + 2 => simp [Columns.extentAt, numbersAt]

theorem describe_pureIntI64 (op : PureIntI64Op) :
    (RecognizedShape.pureIntI64 op).columns.Describe (synthesizePureIntI64Vectors op) := by
  unfold synthesizePureIntI64Vectors RecognizedShape.columns
  intro position
  match position with
  | 0 => simp [Columns.extentAt, numbersAt]
  | 1 => simp [Columns.extentAt, numbersAt]
  | position + 2 => simp [Columns.extentAt, numbersAt]

theorem describe_pureIntUnaryI64 (op : PureIntUnaryI64Op) :
    (RecognizedShape.pureIntUnaryI64 op).columns.Describe (synthesizePureIntUnaryI64Vectors op) := by
  unfold synthesizePureIntUnaryI64Vectors RecognizedShape.columns
  intro position
  match position with
  | 0 => cases op <;> simp [Columns.extentAt, numbersAt, unaryCases, unaryExtent]
  | position + 1 => cases op <;> simp [Columns.extentAt, numbersAt, unaryCases]

theorem describe_cellLoad : RecognizedShape.cellLoad.columns.Describe synthesizeCellLoadVectors := by
  unfold synthesizeCellLoadVectors RecognizedShape.columns
  intro position
  match position with
  | 0 => simp [Columns.extentAt, numbersAt]
  | position + 1 => simp [Columns.extentAt, numbersAt]

theorem describe_cellStore : RecognizedShape.cellStore.columns.Describe synthesizeCellStoreVectors := by
  unfold synthesizeCellStoreVectors RecognizedShape.columns
  intro position
  match position with
  | 0 => simp [Columns.extentAt, numbersAt]
  | 1 => simp [Columns.extentAt, numbersAt]
  | position + 2 => simp [Columns.extentAt, numbersAt]

end Semasm.Agent.Harness
