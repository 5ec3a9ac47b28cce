import Semasm.Agent.Harness.ScanVectors

/-!
# The synthesized vectors expect what the oracles compute

A template filled with the constants of a contract keeps the expectation written for it,
so a needle that occurs among its other bytes makes it wrong. These needles are all that
goes wrong.
-/

namespace Semasm.Agent.Harness

open Contract

/-- The low bytes of an array of bytes. -/
theorem lowBytes_map (bytes : List UInt8) :
    (bytes.map byteJson).map (fun item => (item.asU64.getD 0).toUInt8) = bytes := by
  rw [List.map_map]
  exact List.map_id'' (fun byte => by simp [byteJson]) bytes

/-! ## Shapes that write -/

/-- What a replacement vector must expect. -/
theorem expects_replace (shape : ReplaceByteShape) (needle replacement : UInt8) (name : String)
    (bytes : List UInt8) (length expected : UInt64) (whole : length.toNat = bytes.length) :
    Expects (.replaceByte shape)
        (replaceVector name (bytesJson bytes) length needle replacement expected) ↔
      UInt64.ofNat (bytes.count needle) = expected := by
  have left : expectedReplaceByteBuffer
      [bytesJson bytes, .ofU64 length, byteJson needle, byteJson replacement] =
      bytes.map (fun byte => if byte = needle then replacement else byte) := by
    simp only [expectedReplaceByteBuffer, lowBytes, bytesJson, List.getElem?_cons_zero, lowBytes_map]
    simp [vectorNeedle, vectorReplacement, inputU64, byteJson]
  simp [Expects, RecognizedShape.reference, replaceVector, upTo_bytes bytes length whole,
    expectedBytes, left]

/-- A replacement in nothing leaves nothing. -/
theorem expects_replace_null (shape : ReplaceByteShape) (needle replacement : UInt8) (name : String) :
    Expects (.replaceByte shape) (replaceVector name .null 0 needle replacement 0) := by
  simp [Expects, RecognizedShape.reference, replaceVector, expectedBytes, expectedReplaceByteBuffer,
    lowBytes]

/-- The needles that make no template of a replacement wrong. -/
def ReplaceByteShape.FitsTemplates (shape : ReplaceByteShape) : Prop :=
  shape.needle ≠ 1 ∧ shape.needle ≠ 2 ∧ (shape.needle = 7 → shape.replacement = 7)

/-- The templates of a replacement are right except for the needles one, two and seven, the
last only when it is replaced by another byte. -/
theorem expects_replaceByte_iff (shape : ReplaceByteShape) :
    (∀ vector ∈ synthesizeReplaceByteVectors shape, Expects (.replaceByte shape) vector) ↔
      shape.FitsTemplates := by
  have whole := fixtureLength_toNat shape.maxLength
  have bounds := fixtureLength_bounds shape.maxLength
  have longest (bytes : List UInt8) (size : bytes.length = fixtureLength shape.maxLength) :
      Expects (.replaceByte shape) (replaceVector "maximum configured fixture length" (bytesJson bytes)
        (UInt64.ofNat (fixtureLength shape.maxLength)) shape.needle shape.replacement
        (UInt64.ofNat (bytes.count shape.needle))) :=
    (expects_replace _ _ _ _ _ _ _ (whole.trans size.symm)).mpr rfl
  have single : UInt64.ofNat ([shape.needle].count shape.needle) = 1 := by simp
  have missed : UInt64.ofNat ([shape.needle + 1].count shape.needle) = 0 := by
    simp
  have mixed : UInt64.ofNat ([shape.needle, 1, shape.needle, 2, shape.needle].count shape.needle) = 3 ↔
      shape.needle ≠ 1 ∧ shape.needle ≠ 2 := by
    by_cases one : shape.needle = 1
    · rw [one]
      decide
    by_cases two : shape.needle = 2
    · rw [two]
      decide
    · simp [one, two, Ne.symm one, Ne.symm two]
  have same : UInt64.ofNat ([shape.needle, shape.needle, 7].count shape.needle) = 2 ↔
      shape.needle ≠ 7 := by
    by_cases seven : shape.needle = 7
    · rw [seven]
      decide
    · simp [seven]
  simp only [synthesizeReplaceByteVectors, List.forall_mem_append, List.forall_mem_cons,
    expects_replace_null, true_and]
  rw [expects_replace _ _ _ _ _ _ _ rfl, expects_replace _ _ _ _ _ _ _ rfl,
    expects_replace _ _ _ _ _ _ _ rfl, mixed]
  rw [eq_true (longest _ (by split <;> simp; omega)), single, missed]
  by_cases equal : shape.needle = shape.replacement
  · rw [if_neg (not_not.mpr equal)]
    simp [ReplaceByteShape.FitsTemplates, ← equal]
  · rw [if_pos equal, List.forall_mem_cons, expects_replace _ _ _ _ _ _ _ rfl, same]
    have seven : shape.needle ≠ 7 ↔ (shape.needle = 7 → shape.replacement = 7) :=
      ⟨fun other same => absurd same other, fun kept same => equal (same.trans (kept same).symm)⟩
    simp [ReplaceByteShape.FitsTemplates, ← seven, and_assoc]

/-- A fill vector expects zero and a filled buffer. -/
theorem expects_memset (shape : MemsetShape) (value : UInt8) (name : String) (bytes : List UInt8)
    (length : UInt64) (whole : length.toNat = bytes.length) :
    Expects (.memset shape) (scanVector value name (bytesJson bytes) length 0) := by
  have left : expectedMemsetBuffer [bytesJson bytes, .ofU64 length, byteJson value] =
      List.replicate bytes.length value := by
    simp [expectedMemsetBuffer, vectorNeedle, vectorLength, inputU64, byteJson, whole]
  simp [Expects, RecognizedShape.reference, scanVector, upTo_bytes bytes length whole, expectedBytes,
    left]

/-- The templates of a fill are right. -/
theorem expects_memset_all (shape : MemsetShape) :
    ∀ vector ∈ synthesizeMemsetVectors shape, Expects (.memset shape) vector := by
  have whole := fixtureLength_toNat shape.maxLength
  have empty : Expects (.memset shape) (scanVector shape.value "empty input" .null 0 0) := by
    simp [Expects, RecognizedShape.reference, scanVector, expectedBytes, expectedMemsetBuffer,
      vectorLength, inputU64]
  simp only [synthesizeMemsetVectors, List.forall_mem_cons]
  exact ⟨empty, expects_memset _ _ _ _ _ rfl, expects_memset _ _ _ _ _ rfl,
    expects_memset _ _ _ _ _ rfl, expects_memset _ _ _ _ _ (by simp [whole]),
    List.forall_mem_nil _⟩

/-- A copy vector expects zero and the source in the target. -/
theorem expects_memcpy (shape : MemcpyShape) (name : String) (target source : List UInt8)
    (length : UInt64) (whole : length.toNat = source.length) (fits : target.length = source.length) :
    Expects (.memcpy shape) (pairVector name (bytesJson target) (bytesJson source) length (.ofU64 0)) := by
  have left : expectedMemcpyBuffer [bytesJson target, bytesJson source, .ofU64 length] = source := by
    simp only [expectedMemcpyBuffer, lowBytes, bytesJson, List.getElem?_cons_succ,
      List.getElem?_cons_zero, lowBytes_map]
  simp [Expects, RecognizedShape.reference, pairVector, upTo_bytes source length whole,
    upTo_bytes target length (whole.trans fits.symm), expectedBytes, left]

/-- The templates of a copy are right. -/
theorem expects_memcpy_all (shape : MemcpyShape) :
    ∀ vector ∈ synthesizeMemcpyVectors shape, Expects (.memcpy shape) vector := by
  have whole := fixtureLength_toNat shape.maxLength
  simp only [synthesizeMemcpyVectors, List.forall_mem_cons]
  exact ⟨rfl, expects_memcpy _ _ _ _ _ rfl rfl, expects_memcpy _ _ _ _ _ rfl rfl,
    expects_memcpy _ _ _ _ _ (by simp [whole]) (by simp), List.forall_mem_nil _⟩

/-! ## Shapes that only read -/

/-- What a comparison vector must expect. -/
theorem expects_memcmp (shape : MemCmpShape) (name : String) (first second : List UInt8)
    (length : UInt64) (expected : Int64) (whole : length.toNat = first.length)
    (fits : second.length = first.length) (compared : compareBytes first second = expected) :
    Expects (.memcmp shape)
      (pairVector name (bytesJson first) (bytesJson second) length (.ofI64 expected)) := by
  simp [Expects, RecognizedShape.reference, pairVector, upTo_bytes first length whole,
    upTo_bytes second length (whole.trans fits.symm), expectedBytes, compared]

/-- A list differs nowhere from itself. -/
theorem compareBytes_self (bytes : List UInt8) : compareBytes bytes bytes = 0 := by
  have alike : (bytes.zip bytes).find? (fun pair => pair.1 ≠ pair.2) = none := by
    induction bytes with
    | nil => rfl
    | cons byte bytes inductionHypothesis =>
      rw [List.zip_cons_cons, List.find?_cons_of_neg (by simp), inductionHypothesis]
  rw [compareBytes, alike]

/-- The templates of a comparison are right. -/
theorem expects_memcmp_all (shape : MemCmpShape) :
    ∀ vector ∈ synthesizeMemcmpVectors shape, Expects (.memcmp shape) vector := by
  have whole := fixtureLength_toNat shape.maxLength
  have nulls : ∀ vector ∈ if shape.allowsNull then
        [pairVector "null buffers with zero length" .null .null 0 (.ofI64 0)] else [],
      Expects (.memcmp shape) vector := by
    split
    · exact List.forall_mem_singleton.mpr rfl
    · exact List.forall_mem_nil _
  simp only [synthesizeMemcmpVectors, List.forall_mem_append, List.forall_mem_cons]
  exact ⟨⟨expects_memcmp _ _ _ _ _ _ rfl rfl rfl, expects_memcmp _ _ _ _ _ _ rfl rfl rfl,
    expects_memcmp _ _ _ _ _ _ rfl rfl rfl, expects_memcmp _ _ _ _ _ _ rfl rfl rfl,
    expects_memcmp _ _ _ _ _ _ rfl rfl rfl,
    expects_memcmp _ _ _ _ _ _ (by simp [whole]) rfl (compareBytes_self _), List.forall_mem_nil _⟩,
    nulls⟩

/-- What a sum vector must expect. -/
theorem expects_sum (shape : I64SumShape) (name : String) (words : List Int64) (length : UInt64)
    (expected : Int64) (whole : length.toNat = words.length)
    (summed : Int64.ofInt (words.map Int64.toInt).sum = expected) :
    Expects (.i64Sum shape) (sumVector name (wordsJson words) length expected) := by
  simp [Expects, RecognizedShape.reference, sumVector, upTo_words words length whole, expectedBytes,
    summed]

/-- The templates of a sum are right. -/
theorem expects_sum_all (shape : I64SumShape) :
    ∀ vector ∈ synthesizeI64SumVectors shape, Expects (.i64Sum shape) vector := by
  have whole := fixtureLength_toNat shape.maxLength
  have bounds := fixtureLength_bounds shape.maxLength
  have nulls : ∀ vector ∈ if shape.allowsNullWhenEmpty then
        [sumVector "null pointer with zero length" .null 0 0] else [],
      Expects (.i64Sum shape) vector := by
    split
    · exact List.forall_mem_singleton.mpr rfl
    · exact List.forall_mem_nil _
  have ones : Int64.ofInt ((List.replicate (fixtureLength shape.maxLength) (1 : Int64)).map
      Int64.toInt).sum = if fixtureLength shape.maxLength < 2 ^ 63 then
        Int64.ofNat (fixtureLength shape.maxLength) else Int64.maxValue := by
    rw [if_pos (by omega), List.map_replicate, List.sum_replicate]
    simp [Int64.ofInt_eq_ofNat]
  simp only [synthesizeI64SumVectors, List.forall_mem_append, List.forall_mem_cons]
  exact ⟨⟨rfl, expects_sum _ _ _ _ _ rfl rfl, expects_sum _ _ _ _ _ rfl rfl,
    expects_sum _ _ _ _ _ rfl rfl, expects_sum _ _ _ _ _ rfl rfl,
    expects_sum _ _ _ _ _ (by simp [whole]) ones, List.forall_mem_nil _⟩, nulls⟩

/-! ## Scalar shapes and cells -/

/-- The least and the greatest of two numbers of the machine. -/
theorem PureIntOp.reduce_eq (op : PureIntOp) (a b : UInt64) :
    op.reduce a b = UInt64.ofNat (op.meaning a.toNat b.toNat) := by
  have order : a ≤ b ↔ a.toNat ≤ b.toNat := UInt64.le_iff_toNat_le
  cases op <;> simp only [PureIntOp.reduce, PureIntOp.meaning, order]
  · split
    next below => rw [Nat.min_eq_left below, UInt64.ofNat_toNat]
    next above => rw [Nat.min_eq_right (Nat.le_of_not_ge above), UInt64.ofNat_toNat]
  · split
    next below => rw [Nat.max_eq_right below, UInt64.ofNat_toNat]
    next above => rw [Nat.max_eq_left (Nat.le_of_not_ge above), UInt64.ofNat_toNat]

/-- The operations wrap around. -/
theorem PureIntI64Op.reduce_eq (op : PureIntI64Op) (a b : Int64) :
    op.reduce a b = Int64.ofInt (op.meaning a.toInt b.toInt) := by
  have order : a ≤ b ↔ a.toInt ≤ b.toInt := Int64.le_iff_toInt_le
  cases op with
  | add => simp [PureIntI64Op.reduce, PureIntI64Op.meaning]
  | sub => simp [PureIntI64Op.reduce, PureIntI64Op.meaning]
  | min =>
    simp only [PureIntI64Op.reduce, PureIntI64Op.meaning, order]
    split
    next below => rw [Int.min_eq_left below, Int64.ofInt_toInt]
    next above => rw [Int.min_eq_right (by omega), Int64.ofInt_toInt]
  | max =>
    simp only [PureIntI64Op.reduce, PureIntI64Op.meaning, order]
    split
    next below => rw [Int.max_eq_right below, Int64.ofInt_toInt]
    next above => rw [Int.max_eq_left (by omega), Int64.ofInt_toInt]
  | addThenDouble =>
    have two : Int64.ofInt 2 = 2 := rfl
    simp [PureIntI64Op.reduce, PureIntI64Op.meaning, two, Int64.mul_comm]

/-- The unary operations on the inputs of their templates. -/
theorem PureIntUnaryI64Op.reduce_eq (op : PureIntUnaryI64Op) :
    ∀ entry ∈ unaryCases op, op.reduce entry.2 = Int64.ofInt (op.meaning entry.2.toInt) := by
  cases op <;> decide

/-- The vectors of a scalar shape are right. -/
theorem expects_pureInt_all (op : PureIntOp) :
    ∀ vector ∈ synthesizePureIntVectors op, Expects (.pureInt op) vector := by
  intro vector member
  obtain ⟨⟨name, a, b⟩, _, rfl⟩ := List.mem_map.mp member
  simp [Expects, RecognizedShape.reference, expectedBytes, op.reduce_eq]

theorem expects_pureIntI64_all (op : PureIntI64Op) :
    ∀ vector ∈ synthesizePureIntI64Vectors op, Expects (.pureIntI64 op) vector := by
  intro vector member
  obtain ⟨⟨name, a, b⟩, _, rfl⟩ := List.mem_map.mp member
  simp [Expects, RecognizedShape.reference, expectedBytes, op.reduce_eq]

theorem expects_pureIntUnaryI64_all (op : PureIntUnaryI64Op) :
    ∀ vector ∈ synthesizePureIntUnaryI64Vectors op, Expects (.pureIntUnaryI64 op) vector := by
  intro vector member
  obtain ⟨⟨name, x⟩, listed, rfl⟩ := List.mem_map.mp member
  simp [Expects, RecognizedShape.reference, expectedBytes, op.reduce_eq _ listed]

theorem expects_cellLoad_all : ∀ vector ∈ synthesizeCellLoadVectors, Expects .cellLoad vector := by
  intro vector member
  obtain ⟨⟨text, byte⟩, _, rfl⟩ := List.mem_map.mp member
  have cell : elementsOf byteOf (bytesJson [byte]) = some [byte] :=
    elementsOf_map byteOf byteJson byteOf_byteJson [byte]
  simp [Expects, RecognizedShape.reference, expectedBytes, cell]

theorem expects_cellStore_all : ∀ vector ∈ synthesizeCellStoreVectors, Expects .cellStore vector := by
  intro vector member
  obtain ⟨⟨initialText, initial, valueText, value⟩, _, rfl⟩ := List.mem_map.mp member
  have cell : elementsOf byteOf (bytesJson [initial]) = some [initial] :=
    elementsOf_map byteOf byteJson byteOf_byteJson [initial]
  simp [Expects, RecognizedShape.reference, expectedBytes, cell]

/-! ## Every shape -/

/-- The oracle that a shape is reported under. -/
def RecognizedShape.oracle : RecognizedShape → RecognizedOracle
  | .scan shape => shape.op.oracle
  | .replaceByte _ => ⟨"builtin.buffer.replace_byte", 1, "result equals how many buffer[0..length] bytes " ++
      "equal to needle were replaced with replacement; buffer bytes must match"⟩
  | .memset _ => ⟨"builtin.buffer.memset", 1,
      "every buffer[0..length] byte equals value after the call; result is always 0"⟩
  | .memcpy _ => ⟨"builtin.buffer.memcpy", 1, "dst[0..length] equals src[0..length] after the call; " ++
      "src is unchanged; result is always 0"⟩
  | .memcmp _ => ⟨"builtin.buffer.memcmp_i8", 1, "result is -1, 0, or 1 from unsigned lexicographic " ++
      "comparison of a[0..length] and b[0..length]"⟩
  | .i64Sum _ => ⟨"builtin.buffer.wrapping_sum_i64", 2,
      "result equals the wrapping sum of i64 elements in values[0..length]"⟩
  | .pureInt op => ⟨"builtin.pure_int.binary_usize", 2, op.claim⟩
  | .pureIntI64 op => ⟨"builtin.pure_int.binary_i64", 2, op.claim⟩
  | .pureIntUnaryI64 op => ⟨"builtin.pure_int.unary_i64", 3, op.claim⟩
  | .cellLoad => ⟨"builtin.buffer.load_byte0", 1,
      "result equals the zero-extended byte at buffer[0] (fixed 1-byte cell)"⟩
  | .cellStore => ⟨"builtin.buffer.store_byte0", 1,
      "stores value at buffer[0] (fixed 1-byte cell) and returns the zero-extended value"⟩

/-- A contract is recognized with the oracle of its shape. -/
theorem recognizeBehaviorOracle_eq (contract : CheckedContract) :
    recognizeBehaviorOracle contract = (recognizedShape contract).map RecognizedShape.oracle := by
  unfold recognizeBehaviorOracle recognizeBuffer recognizeScalar recognizeCell recognizedShape
  cases scanShape contract with
  | some shape => rfl
  | none =>
  cases replaceByteShape contract with
  | some shape => rfl
  | none =>
  cases memsetShape contract with
  | some shape => rfl
  | none =>
  cases memcpyShape contract with
  | some shape => rfl
  | none =>
  cases memcmpShape contract with
  | some shape => rfl
  | none =>
  cases i64SumShape contract with
  | some shape => rfl
  | none =>
  cases pureIntShape contract with
  | some op => rfl
  | none =>
  cases pureIntI64Shape contract with
  | some op => rfl
  | none =>
  cases pureIntUnaryI64Shape contract with
  | some op => rfl
  | none => cases cellLoadShape contract <;> cases cellStoreShape contract <;> rfl

/-- The constants of the contract fit the templates of its shape. -/
def FitsTemplates (contract : CheckedContract) : Prop :=
  match recognizedShape contract with
  | some (.scan shape) => shape.needle ≠ 0
  | some (.replaceByte shape) => shape.FitsTemplates
  | _ => True

/-- Every synthesized vector of a recognized contract expects what the oracle computes. -/
def VectorsRight (contract : CheckedContract) : Prop :=
  ∀ oracle, recognizeBehaviorOracle contract = some oracle →
    ∀ vector ∈ synthesizeVectors contract, ∃ shape, recognizedShape contract = some shape ∧
      shape.oracle = oracle ∧ Expects shape vector

/-- The oracle of a recognized contract is that of its shape. -/
theorem vectorsRight_iff_expects (contract : CheckedContract) :
    VectorsRight contract ↔ ∀ shape, recognizedShape contract = some shape →
      ∀ vector ∈ synthesizeVectors contract, Expects shape vector := by
  unfold VectorsRight
  rw [recognizeBehaviorOracle_eq]
  constructor
  · intro right shape recognized vector member
    obtain ⟨other, same, _, expects⟩ := right shape.oracle (by rw [recognized]; rfl) vector member
    rw [recognized] at same
    cases same
    exact expects
  · intro right oracle known vector member
    obtain ⟨shape, recognized, rfl⟩ := Option.map_eq_some_iff.mp known
    exact ⟨shape, recognized, rfl, right shape recognized vector member⟩

/-- The vectors of a contract are right exactly when its constants fit the templates.

Proof: shape by shape; a template goes wrong only where the needle occurs among the bytes
written into it. -/
theorem vectors_right_iff (contract : CheckedContract) :
    VectorsRight contract ↔ FitsTemplates contract := by
  rw [vectorsRight_iff_expects]
  unfold FitsTemplates synthesizeVectors
  cases recognizedShape contract with
  | none => simp
  | some shape =>
    simp only [Option.some.injEq, forall_eq']
    cases shape with
    | scan shape =>
      dsimp only
      cases op : shape.op with
      | count => exact expects_count_iff shape op
      | findFirst => exact expects_findFirst_iff shape op
      | findLast => exact expects_findLast_iff shape op
    | replaceByte shape => exact expects_replaceByte_iff shape
    | memset shape => exact iff_of_true (expects_memset_all shape) trivial
    | memcpy shape => exact iff_of_true (expects_memcpy_all shape) trivial
    | memcmp shape => exact iff_of_true (expects_memcmp_all shape) trivial
    | i64Sum shape => exact iff_of_true (expects_sum_all shape) trivial
    | pureInt op => exact iff_of_true (expects_pureInt_all op) trivial
    | pureIntI64 op => exact iff_of_true (expects_pureIntI64_all op) trivial
    | pureIntUnaryI64 op => exact iff_of_true (expects_pureIntUnaryI64_all op) trivial
    | cellLoad => exact iff_of_true expects_cellLoad_all trivial
    | cellStore => exact iff_of_true expects_cellStore_all trivial

/-- A count of the bytes equal to a needle that must be zero. -/
def countZeroBytes : CheckedContract where
  name := "count_byte"
  parameters := [⟨"ptr", .ptr (.uint 8) true, none⟩, ⟨"length", .usize, none⟩,
    ⟨"needle", .uint 8, none⟩]
  returns := [⟨"result", .usize⟩]
  requires := [⟨.binary .eq (.ident "needle" ⟨0, 6⟩) (.int 0 ⟨10, 11⟩) ⟨0, 11⟩, "needle == 0"⟩]
  ensures := []
  effects := [⟨"memory_read", some "ptr[0..length]", none⟩]
  memory := none

/-- Among zero bytes a zero needle matches three times, where one match is expected. -/
theorem zero_needle_is_expected_once : ¬ VectorsRight countZeroBytes := by
  have recognized : recognizedShape countZeroBytes = some (.scan ⟨.count, 0, none, true⟩) := by
    decide +kernel
  rw [vectorsRight_iff_expects]
  intro right
  have all := right _ recognized
  have made : synthesizeVectors countZeroBytes =
      synthesizeBufferScanVectors ⟨.count, 0, none, true⟩ := by
    rw [synthesizeVectors, recognized]
  rw [made] at all
  exact (expects_count_iff ⟨.count, 0, none, true⟩ rfl).mp all rfl

end Semasm.Agent.Harness
