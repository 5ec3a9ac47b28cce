import Semasm.Agent.Harness.Vectors

/-!
# Synthesized test vectors

Each recognized shape has its templates of vectors. The constants of the contract's
conditions, the needle, the fill value, the replacement and the bound on the length, are
put in for their places, and the expected results are written beside the inputs. For the
shapes that write, the expected bytes are computed from the inputs of a vector.
-/

namespace Semasm.Agent.Harness

open Contract

/-- The shape a contract is recognized by, with what was read off its conditions. -/
inductive RecognizedShape where
  | scan (shape : ScanShape)
  | replaceByte (shape : ReplaceByteShape)
  | memset (shape : MemsetShape)
  | memcpy (shape : MemcpyShape)
  | memcmp (shape : MemCmpShape)
  | i64Sum (shape : I64SumShape)
  | pureInt (op : PureIntOp)
  | pureIntI64 (op : PureIntI64Op)
  | pureIntUnaryI64 (op : PureIntUnaryI64Op)
  | cellLoad
  | cellStore
deriving DecidableEq, Repr

/-- The first shape that matches, in the order of `synthesize_vectors`. -/
def recognizedShape (contract : CheckedContract) : Option RecognizedShape :=
  ((scanShape contract).map .scan).or <|
  ((replaceByteShape contract).map .replaceByte).or <|
  ((memsetShape contract).map .memset).or <|
  ((memcpyShape contract).map .memcpy).or <|
  ((memcmpShape contract).map .memcmp).or <|
  ((i64SumShape contract).map .i64Sum).or <|
  ((pureIntShape contract).map .pureInt).or <|
  ((pureIntI64Shape contract).map .pureIntI64).or <|
  ((pureIntUnaryI64Shape contract).map .pureIntUnaryI64).or <|
  if cellLoadShape contract then some .cellLoad
  else if cellStoreShape contract then some .cellStore
  else none

/-- The maximum configured fixture length: the bound of the contract, from one to the cap. -/
def fixtureLength (maxLength : Option UInt64) : Nat :=
  max 1 (min (maxLength.elim maxFixtureCap UInt64.toNat) maxFixtureCap)

theorem fixtureLength_bounds (maxLength : Option UInt64) :
    1 ≤ fixtureLength maxLength ∧ fixtureLength maxLength ≤ 256 := by
  unfold fixtureLength maxFixtureCap
  omega

/-- The fixture length as a number of the harness. -/
theorem fixtureLength_toNat (maxLength : Option UInt64) :
    (UInt64.ofNat (fixtureLength maxLength)).toNat = fixtureLength maxLength := by
  have bounds := fixtureLength_bounds maxLength
  rw [UInt64.toNat_ofNat']
  omega

/-- `json!` of a byte. -/
def byteJson (byte : UInt8) : Json := .ofU64 byte.toUInt64

/-- `json!` of an array of bytes. -/
def bytesJson (bytes : List UInt8) : Json := .array (bytes.map byteJson)

/-- `json!` of an array of signed words. -/
def wordsJson (words : List Int64) : Json := .array (words.map Json.ofI64)

/-- `non_needle_bytes`: three are found among the first four values. -/
def nonNeedleBytes (needle : UInt8) : List UInt8 :=
  (([0, 1, 2, 3] : List UInt8).filter (· != needle)).take 3

/-- A buffer, a length and a byte. -/
def scanVector (needle : UInt8) (name : String) (buffer : Json) (length expected : UInt64) :
    TestVector :=
  ⟨name, [buffer, .ofU64 length, byteJson needle], .ofU64 expected⟩

/-- The vector a scan is given when it may be called with a null pointer. -/
def nullScanVector (shape : ScanShape) : List TestVector :=
  if shape.allowsNullWhenEmpty then
    [scanVector shape.needle "null pointer with zero length" .null 0 0]
  else []

/-- `synthesize_buffer_scan_vectors`. -/
def synthesizeBufferScanVectors (shape : ScanShape) : List TestVector :=
  let maxLen := fixtureLength shape.maxLength
  let needle := shape.needle
  let case := scanVector needle
  [case "empty input" .null 0 0,
    case "one byte (match)" (bytesJson [needle]) 1 1,
    case "no match" (bytesJson (nonNeedleBytes needle)) 3 0,
    case "all match" (bytesJson [needle, needle]) 2 2,
    case "embedded zero bytes" (bytesJson [0, needle, 0]) 3 1,
    case "maximum configured fixture length" (bytesJson (List.replicate maxLen needle))
      (UInt64.ofNat maxLen) (UInt64.ofNat maxLen)] ++ nullScanVector shape

/-- `synthesize_find_first_vectors`. -/
def synthesizeFindFirstVectors (shape : ScanShape) : List TestVector :=
  let maxLen := fixtureLength shape.maxLength
  let needle := shape.needle
  let case := scanVector needle
  [case "empty input" .null 0 0,
    case "one byte (match)" (bytesJson [needle]) 1 0,
    case "no match" (bytesJson (nonNeedleBytes needle)) 3 3,
    case "all match" (bytesJson [needle, needle]) 2 0,
    case "match after zeros" (bytesJson [0, needle, 0]) 3 1,
    case "match at end" (bytesJson ((nonNeedleBytes needle).take 2 ++ [needle])) 3 2,
    case "maximum configured fixture length" (bytesJson (List.replicate maxLen needle))
      (UInt64.ofNat maxLen) 0] ++ nullScanVector shape

/-- `synthesize_find_last_vectors`. -/
def synthesizeFindLastVectors (shape : ScanShape) : List TestVector :=
  let maxLen := fixtureLength shape.maxLength
  let needle := shape.needle
  let case := scanVector needle
  [case "empty input" .null 0 0,
    case "one byte (match)" (bytesJson [needle]) 1 0,
    case "no match" (bytesJson (nonNeedleBytes needle)) 3 3,
    case "all match" (bytesJson [needle, needle]) 2 1,
    case "match after zeros" (bytesJson [0, needle, 0]) 3 1,
    case "match at end" (bytesJson ((nonNeedleBytes needle).take 2 ++ [needle])) 3 2,
    case "last of two matches" (bytesJson ([needle] ++ (nonNeedleBytes needle).take 1 ++ [needle])) 3 2,
    case "maximum configured fixture length" (bytesJson (List.replicate maxLen needle))
      (UInt64.ofNat maxLen) (UInt64.ofNat maxLen - 1)] ++ nullScanVector shape

/-- Two buffers and a length. -/
def pairVector (name : String) (first second : Json) (length : UInt64) (expected : Json) :
    TestVector :=
  ⟨name, [first, second, .ofU64 length], expected⟩

/-- `synthesize_memcmp_vectors`. -/
def synthesizeMemcmpVectors (shape : MemCmpShape) : List TestVector :=
  let maxLen := fixtureLength shape.maxLength
  let equal := bytesJson ((List.range maxLen).map UInt8.ofNat)
  [pairVector "empty buffers" (bytesJson []) (bytesJson []) 0 (.ofI64 0),
    pairVector "equal buffers" (bytesJson [0, 127, 255]) (bytesJson [0, 127, 255]) 3 (.ofI64 0),
    pairVector "a less than b" (bytesJson [0]) (bytesJson [255]) 1 (.ofI64 (-1)),
    pairVector "a greater than b" (bytesJson [255]) (bytesJson [0]) 1 (.ofI64 1),
    pairVector "equal prefix then difference" (bytesJson [1, 2, 3, 4]) (bytesJson [1, 2, 3, 5]) 4
      (.ofI64 (-1)),
    pairVector "maximum configured fixture length" equal equal (UInt64.ofNat maxLen) (.ofI64 0)] ++
  if shape.allowsNull then [pairVector "null buffers with zero length" .null .null 0 (.ofI64 0)]
  else []

/-- `synthesize_pure_int_vectors`. -/
def synthesizePureIntVectors (op : PureIntOp) : List TestVector :=
  [("both zero", 0, 0), ("a smaller", 1, 2), ("b smaller", 5, 3), ("equal", 7, 7),
    ("zero and large", 0, 1000000), ("wide spread", 100, 50)].map
    (fun (name, a, b) => ⟨name, [.ofU64 a, .ofU64 b], .ofU64 (op.reduce a b)⟩)

/-- A buffer and a length. -/
def sumVector (name : String) (buffer : Json) (length : UInt64) (expected : Int64) : TestVector :=
  ⟨name, [buffer, .ofU64 length], .ofI64 expected⟩

/-- `synthesize_i64_sum_vectors`. -/
def synthesizeI64SumVectors (shape : I64SumShape) : List TestVector :=
  let maxLen := fixtureLength shape.maxLength
  [sumVector "empty" .null 0 0,
    sumVector "positive" (wordsJson [1, 2, 3, 4]) 4 10,
    sumVector "mixed" (wordsJson [-5, 2, 10]) 3 7,
    sumVector "single negative" (wordsJson [-1]) 1 (-1),
    sumVector "wrapping overflow" (wordsJson [Int64.maxValue, 1]) 2 Int64.minValue,
    sumVector "maximum configured fixture length" (wordsJson (List.replicate maxLen 1))
      (UInt64.ofNat maxLen) (if maxLen < 2 ^ 63 then Int64.ofNat maxLen else Int64.maxValue)] ++
  if shape.allowsNullWhenEmpty then [sumVector "null pointer with zero length" .null 0 0] else []

/-- `synthesize_pure_int_i64_vectors`. -/
def synthesizePureIntI64Vectors (op : PureIntI64Op) : List TestVector :=
  [("both zero", 0, 0), ("both positive", 5, 3), ("mixed signs", -3, 7), ("both negative", -5, -2),
    ("equal negative", -7, -7), ("wide spread", 1000000, -50), ("max wraps", Int64.maxValue, 1),
    ("min wraps", Int64.minValue, -1)].map
    (fun (name, a, b) => ⟨name, [.ofI64 a, .ofI64 b], .ofI64 (op.reduce a b)⟩)

/-- The inputs of a unary shape. A range is summed and a counter runs down in a loop, so
their inputs are small. -/
def unaryCases : PureIntUnaryI64Op → List (String × Int64)
  | .sumRange => [("zero", 0), ("one", 1), ("five", 5), ("ten", 10), ("twenty", 20)]
  | .countdown => [("zero", 0), ("positive", 5), ("ten", 10), ("negative", -3), ("minus_one", -1)]
  | .double | .inc | .addBase100 | .identity | .abs =>
    [("zero", 0), ("positive", 5), ("negative", -5), ("max", Int64.maxValue),
      ("min wraps", Int64.minValue)]

/-- `synthesize_pure_int_unary_i64_vectors`. -/
def synthesizePureIntUnaryI64Vectors (op : PureIntUnaryI64Op) : List TestVector :=
  (unaryCases op).map (fun (name, x) => ⟨name, [.ofI64 x], .ofI64 (op.reduce x)⟩)

/-- `synthesize_cell_load_vectors`. -/
def synthesizeCellLoadVectors : List TestVector :=
  [("0x0", 0), ("0x1", 1), ("0x41", 0x41), ("0xff", 0xff)].map
    (fun (text, byte) => ⟨"cell byte " ++ text, [bytesJson [byte]], byteJson byte⟩)

/-- `synthesize_cell_store_vectors`. -/
def synthesizeCellStoreVectors : List TestVector :=
  [("0x0", 0, "0x7", 7), ("0xff", 0xff, "0x0", 0), ("0x11", 0x11, "0x22", 0x22),
    ("0x0", 0, "0xff", 0xff)].map
    (fun (initialText, initial, valueText, value) =>
      ⟨"store " ++ valueText ++ " over " ++ initialText, [bytesJson [initial], byteJson value],
        byteJson value⟩)

/-- A buffer, a length and two bytes. -/
def replaceVector (name : String) (buffer : Json) (length : UInt64) (needle replacement : UInt8)
    (expected : UInt64) : TestVector :=
  ⟨name, [buffer, .ofU64 length, byteJson needle, byteJson replacement], .ofU64 expected⟩

/-- `synthesize_replace_byte_vectors`. -/
def synthesizeReplaceByteVectors (shape : ReplaceByteShape) : List TestVector :=
  let maxLen := fixtureLength shape.maxLength
  let needle := shape.needle
  let replacement := shape.replacement
  let maxBuf := if 1 < maxLen then (needle + 1) :: List.replicate (maxLen - 1) needle
    else List.replicate maxLen needle
  [replaceVector "empty input" .null 0 needle replacement 0,
    replaceVector "one byte (match)" (bytesJson [needle]) 1 needle replacement 1,
    replaceVector "one byte (miss)" (bytesJson [needle + 1]) 1 needle replacement 0,
    replaceVector "mixed hits" (bytesJson [needle, 1, needle, 2, needle]) 5 needle replacement 3] ++
  (if needle ≠ replacement then
    [replaceVector "needle equals replacement" (bytesJson [needle, needle, 7]) 3 needle needle 2]
  else []) ++
  [replaceVector "maximum configured fixture length" (bytesJson maxBuf) (UInt64.ofNat maxLen) needle
    replacement (UInt64.ofNat (maxBuf.count needle))]

/-- `synthesize_memset_vectors`. -/
def synthesizeMemsetVectors (shape : MemsetShape) : List TestVector :=
  let maxLen := fixtureLength shape.maxLength
  let value := shape.value
  let filler := value + 1
  let case := scanVector value
  [case "empty input" .null 0 0,
    case "one byte" (bytesJson [filler]) 1 0,
    case "short pattern" (bytesJson [filler, filler, filler, filler, filler]) 5 0,
    case "already filled with value" (bytesJson [value, value, value]) 3 0,
    case "maximum configured fixture length" (bytesJson (List.replicate maxLen filler))
      (UInt64.ofNat maxLen) 0]

/-- `MEMCPY_DST_SENTINEL`. -/
def memcpyDstSentinel : UInt8 := 0xEE

/-- `synthesize_memcpy_vectors`. -/
def synthesizeMemcpyVectors (shape : MemcpyShape) : List TestVector :=
  let maxLen := fixtureLength shape.maxLength
  let fresh (count : Nat) := bytesJson (List.replicate count memcpyDstSentinel)
  [pairVector "empty input" .null .null 0 (.ofU64 0),
    pairVector "one byte" (fresh 1) (bytesJson [0x5a]) 1 (.ofU64 0),
    pairVector "short distinct src/dst pattern" (fresh 5) (bytesJson [1, 2, 3, 4, 5]) 5 (.ofU64 0),
    pairVector "maximum configured fixture length" (fresh maxLen)
      (bytesJson ((List.range maxLen).map UInt8.ofNat)) (UInt64.ofNat maxLen) (.ofU64 0)]

/-- `synthesize_vectors`. -/
def synthesizeVectors (contract : CheckedContract) : List TestVector :=
  match recognizedShape contract with
  | some (.scan shape) =>
    match shape.op with
    | .count => synthesizeBufferScanVectors shape
    | .findFirst => synthesizeFindFirstVectors shape
    | .findLast => synthesizeFindLastVectors shape
  | some (.replaceByte shape) => synthesizeReplaceByteVectors shape
  | some (.memset shape) => synthesizeMemsetVectors shape
  | some (.memcpy shape) => synthesizeMemcpyVectors shape
  | some (.memcmp shape) => synthesizeMemcmpVectors shape
  | some (.i64Sum shape) => synthesizeI64SumVectors shape
  | some (.pureInt op) => synthesizePureIntVectors op
  | some (.pureIntI64 op) => synthesizePureIntI64Vectors op
  | some (.pureIntUnaryI64 op) => synthesizePureIntUnaryI64Vectors op
  | some .cellLoad => synthesizeCellLoadVectors
  | some .cellStore => synthesizeCellStoreVectors
  | none => []

/-- An input as an unsigned number, zero when it is none. -/
def inputU64 (inputs : List Json) (position : Nat) : UInt64 :=
  ((inputs[position]?).bind Json.asU64).getD 0

/-- `vector_length`. -/
def vectorLength (inputs : List Json) : UInt64 := inputU64 inputs 1

/-- `vector_memcmp_length`. -/
def vectorMemcmpLength (inputs : List Json) : UInt64 := inputU64 inputs 2

/-- `vector_needle`: the low byte of the third input. -/
def vectorNeedle (inputs : List Json) : UInt8 := (inputU64 inputs 2).toUInt8

/-- `vector_replacement`: the low byte of the fourth input. -/
def vectorReplacement (inputs : List Json) : UInt8 := (inputU64 inputs 3).toUInt8

/-- The low bytes of the numbers of an array. -/
def lowBytes (inputs : List Json) (position : Nat) : List UInt8 :=
  match inputs[position]? with
  | some (.array items) => items.map (fun item => (item.asU64.getD 0).toUInt8)
  | _ => []

/-- `expected_replace_byte_buffer`. -/
def expectedReplaceByteBuffer (inputs : List Json) : List UInt8 :=
  (lowBytes inputs 0).map (fun byte =>
    if byte = vectorNeedle inputs then vectorReplacement inputs else byte)

/-- `expected_memset_buffer`. -/
def expectedMemsetBuffer (inputs : List Json) : List UInt8 :=
  List.replicate (vectorLength inputs).toNat (vectorNeedle inputs)

/-- `expected_memcpy_buffer`. -/
def expectedMemcpyBuffer (inputs : List Json) : List UInt8 := lowBytes inputs 1

end Semasm.Agent.Harness
