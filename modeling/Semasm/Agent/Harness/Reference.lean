import Mathlib.Algebra.Ring.Int.Defs
import Mathlib.Algebra.BigOperators.Group.Finset.Basic
import Semasm.Agent.Harness.Synthesis

/-!
# What the oracles compute

Each oracle has a reference function on the inputs of a vector: a result, and the bytes
left in a buffer that is read back. A vector is right when it expects these.
-/

namespace Semasm.Agent.Harness

open Contract

/-- A number that is a byte. -/
def byteOf (value : Json) : Option UInt8 :=
  value.asU64.bind (fun number => if number.toNat < 256 then some number.toUInt8 else none)

/-- The elements of a buffer, which may be null. -/
def elementsOf {α : Type} (read : Json → Option α) : Json → Option (List α)
  | .null => some []
  | .array items => items.mapM read
  | _ => none

/-- The elements of a buffer up to a length. -/
def upTo {α : Type} (read : Json → Option α) (buffer length : Json) : Option (List α) := do
  let elements ← elementsOf read buffer
  let count ← length.asU64
  if count.toNat ≤ elements.length then some (elements.take count.toNat) else none

/-- What a scan finds. -/
def BufferScanOp.meaning (bytes : List UInt8) (needle : UInt8) : BufferScanOp → Nat
  | .count => bytes.count needle
  | .findFirst => bytes.idxOf needle
  | .findLast =>
    (((List.range bytes.length).filter (fun place => bytes[place]? = some needle)).getLast?).getD
      bytes.length

/-- The sign of the first difference. -/
def compareBytes (first second : List UInt8) : Int64 :=
  match (first.zip second).find? (fun pair => pair.1 ≠ pair.2) with
  | some (one, two) => if one < two then -1 else 1
  | none => 0

/-- The least or the greatest of two. -/
def PureIntOp.meaning (a b : Nat) : PureIntOp → Nat
  | .min => Min.min a b
  | .max => Max.max a b

/-- The operation over the integers. -/
def PureIntI64Op.meaning (a b : Int) : PureIntI64Op → Int
  | .add => a + b
  | .sub => a - b
  | .min => Min.min a b
  | .max => Max.max a b
  | .addThenDouble => 2 * (a + b)

/-- The operation over the integers. A range is summed from zero. -/
def PureIntUnaryI64Op.meaning (x : Int) : PureIntUnaryI64Op → Int
  | .identity | .countdown => x
  | .abs => x.natAbs
  | .sumRange => ((List.range (x.toNat + 1)).map Int.ofNat).sum
  | .double => 2 * x
  | .inc => x + 1
  | .addBase100 => x + 100

/-- The result of the oracle of a shape on some inputs, and the bytes it leaves in a buffer
that is read back after the call. -/
def RecognizedShape.reference (shape : RecognizedShape) (inputs : List Json) :
    Option (Json × List UInt8) :=
  match shape, inputs with
  | .scan shape, [buffer, length, needle] => do
    let bytes ← upTo byteOf buffer length
    let needle ← byteOf needle
    some (.ofU64 (UInt64.ofNat (shape.op.meaning bytes needle)), [])
  | .replaceByte _, [buffer, length, needle, replacement] => do
    let bytes ← upTo byteOf buffer length
    let needle ← byteOf needle
    let replacement ← byteOf replacement
    some (.ofU64 (UInt64.ofNat (bytes.count needle)),
      bytes.map (fun byte => if byte = needle then replacement else byte))
  | .memset _, [buffer, length, value] => do
    let bytes ← upTo byteOf buffer length
    let value ← byteOf value
    some (.ofU64 0, List.replicate bytes.length value)
  | .memcpy _, [target, source, length] => do
    let _ ← upTo byteOf target length
    let bytes ← upTo byteOf source length
    some (.ofU64 0, bytes)
  | .memcmp _, [first, second, length] => do
    let one ← upTo byteOf first length
    let two ← upTo byteOf second length
    some (.ofI64 (compareBytes one two), [])
  | .i64Sum _, [buffer, length] => do
    let words ← upTo Json.asI64 buffer length
    some (.ofI64 (Int64.ofInt (words.map Int64.toInt).sum), [])
  | .pureInt op, [a, b] => do
    let a ← a.asU64
    let b ← b.asU64
    some (.ofU64 (UInt64.ofNat (op.meaning a.toNat b.toNat)), [])
  | .pureIntI64 op, [a, b] => do
    let a ← a.asI64
    let b ← b.asI64
    some (.ofI64 (Int64.ofInt (op.meaning a.toInt b.toInt)), [])
  | .pureIntUnaryI64 op, [x] => do
    let x ← x.asI64
    some (.ofI64 (Int64.ofInt (op.meaning x.toInt)), [])
  | .cellLoad, [cell] => do
    let bytes ← elementsOf byteOf cell
    let byte ← bytes.head?
    some (byteJson byte, [])
  | .cellStore, [cell, value] => do
    let _ ← elementsOf byteOf cell
    let value ← byteOf value
    some (byteJson value, [])
  | _, _ => none

/-- The bytes that the evaluator expects in a buffer read back after the call. -/
def expectedBytes : RecognizedShape → List Json → List UInt8
  | .replaceByte _ => expectedReplaceByteBuffer
  | .memset _ => expectedMemsetBuffer
  | .memcpy _ => expectedMemcpyBuffer
  | _ => fun _ => []

/-- A vector expects what the oracle computes from its inputs. -/
def Expects (shape : RecognizedShape) (vector : TestVector) : Prop :=
  shape.reference vector.inputs = some (vector.expected, expectedBytes shape vector.inputs)

/-! ## Reading inputs back -/

@[simp] theorem asU64_ofU64 (value : UInt64) : (Json.ofU64 value).asU64 = some value := rfl

@[simp] theorem ofU64_inj (one two : UInt64) : Json.ofU64 one = Json.ofU64 two ↔ one = two := by
  simp [Json.ofU64]

@[simp] theorem asI64_ofI64 (value : Int64) : (Json.ofI64 value).asI64 = some value := by
  unfold Json.ofI64
  split
  · rfl
  next nonNegative =>
    have small : value.toUInt64.toNat < 2 ^ 63 := by
      rw [Int64.toNat_toUInt64_of_le (Int64.not_lt.mp nonNegative)]
      have bound := value.toInt_lt
      change value.toInt.toNat < 2 ^ 63
      omega
    simp only [Json.asI64, if_pos small, Int64.toInt64_toUInt64]

@[simp] theorem byteOf_byteJson (byte : UInt8) : byteOf (byteJson byte) = some byte := by
  have small : byte.toUInt64.toNat < 256 := by
    have := byte.toNat_lt
    simpa using this
  simp only [byteOf, byteJson, asU64_ofU64, Option.bind_some, if_pos small]
  simp

/-- A list read element by element is the list that was written. -/
theorem elementsOf_map {α : Type} (read : Json → Option α) (write : α → Json)
    (inverse : ∀ value, read (write value) = some value) (values : List α) :
    elementsOf read (.array (values.map write)) = some values := by
  simp only [elementsOf]
  induction values with
  | nil => rfl
  | cons value values inductionHypothesis =>
    simp only [List.map_cons, List.mapM_cons, inverse, inductionHypothesis]
    rfl

/-- A buffer written with its length is read back whole. -/
theorem upTo_map {α : Type} (read : Json → Option α) (write : α → Json)
    (inverse : ∀ value, read (write value) = some value) (values : List α) (length : UInt64)
    (whole : length.toNat = values.length) :
    upTo read (.array (values.map write)) (.ofU64 length) = some values := by
  simp [upTo, elementsOf_map read write inverse, whole]

theorem upTo_bytes (bytes : List UInt8) (length : UInt64) (whole : length.toNat = bytes.length) :
    upTo byteOf (bytesJson bytes) (.ofU64 length) = some bytes :=
  upTo_map byteOf byteJson byteOf_byteJson bytes length whole

theorem upTo_words (words : List Int64) (length : UInt64) (whole : length.toNat = words.length) :
    upTo Json.asI64 (wordsJson words) (.ofU64 length) = some words :=
  upTo_map Json.asI64 Json.ofI64 asI64_ofI64 words length whole

@[simp] theorem upTo_null {α : Type} (read : Json → Option α) :
    upTo read .null (.ofU64 0) = some [] := rfl

end Semasm.Agent.Harness
