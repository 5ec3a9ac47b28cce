import Semasm.Agent.Harness.Instructions

/-!
# The data of vectors

Each generator puts the inputs of every vector into the data section, behind names with the
number of the vector. Buffers that are written are put between guards.
-/

namespace Semasm.Agent.Harness

/-- The input at a position is null. -/
def inputIsNull (inputs : List Json) (position : Nat) : Bool :=
  match inputs[position]? with
  | some .null => true
  | _ => false

/-- `vector_memcmp_buffer_bytes`: numbers above a byte count as the greatest. -/
def vectorMemcmpBufferBytes (inputs : List Json) (position : Nat) : List UInt8 :=
  match inputs[position]? with
  | some (.array items) => items.map (fun item => UInt8.ofNat (min (item.asU64.getD 0).toNat 255))
  | _ => []

/-- `vector_buffer_bytes`. -/
def vectorBufferBytes (inputs : List Json) : List UInt8 := vectorMemcmpBufferBytes inputs 0

/-- `vector_i64_words`. -/
def vectorI64Words (inputs : List Json) : List Int :=
  match inputs.head? with
  | some (.array items) => items.map (fun item =>
    match item.asI64, item.asU64 with
    | some signed, _ => signed.toInt
    | none, some unsigned => unsigned.toNat
    | none, none => 0)
  | _ => []

/-- The value of a cell store. -/
def vectorCellValue (inputs : List Json) : UInt8 := (inputU64 inputs 1).toUInt8

/-- Bytes, or a zero if there are none. -/
def orZero (bytes : List UInt8) : List UInt8 := if bytes.isEmpty then [0] else bytes

/-- A name and the data behind it, on two lines. -/
def under (label : Label) (datum : Datum) : List DataLine := [.name label, .datum datum]

/-- A name and the bytes behind it, without a directive if there are none. -/
def underBytes (label : Label) (bytes : List UInt8) : List DataLine :=
  .name label :: if bytes.isEmpty then [] else [.datum (.bytes bytes)]

/-- The data of every vector. -/
def eachVector (vectors : List TestVector) (lines : Nat → List Json → List DataLine) :
    List (List DataLine) :=
  vectors.zipIdx.map (fun entry => lines entry.2 entry.1.inputs)

/-- `emit_cell_load_vector_data`. -/
def emitCellLoadVectorData (vectors : List TestVector) : List (List DataLine) :=
  eachVector vectors (fun i inputs =>
    .align 3 :: under (.vec i .buf) (.bytes (orZero (vectorBufferBytes inputs))))

/-- `emit_cell_store_vector_data`. -/
def emitCellStoreVectorData (vectors : List TestVector) : List (List DataLine) :=
  eachVector vectors (fun i inputs =>
    .align 3 :: under (.vec i .buf) (.bytes (orZero (vectorBufferBytes inputs))) ++
      under (.vec i .value) (.bytes [vectorCellValue inputs]))

/-- `emit_vector_data`. -/
def emitVectorData (vectors : List TestVector) : List (List DataLine) :=
  eachVector vectors (fun i inputs =>
    .align 3 :: under (.vec i .len) (.quads [(vectorLength inputs).toNat]) ++
      under (.vec i .needle) (.bytes [vectorNeedle inputs]) ++
      under (.vec i .buf) (.bytes (orZero (vectorBufferBytes inputs))))

/-- `emit_replace_byte_vector_data`, and `emit_gas_replace_byte_vector_data`. -/
def emitReplaceByteVectorData (vectors : List TestVector) : List (List DataLine) :=
  eachVector vectors (fun i inputs =>
    .align 3 :: under (.vec i .len) (.quads [(vectorLength inputs).toNat]) ++
      under (.vec i .needle) (.bytes [vectorNeedle inputs]) ++
      under (.vec i .replacement) (.bytes [vectorReplacement inputs]) ++
      under (.vec i .guardPre) (.bytes [writeGuardPre]) ++
      underBytes (.vec i .buf) (vectorBufferBytes inputs) ++
      under (.vec i .guardPost) (.bytes [writeGuardPost]))

/-- `emit_memset_vector_data`, and `emit_gas_memset_vector_data`. -/
def emitMemsetVectorData (vectors : List TestVector) : List (List DataLine) :=
  eachVector vectors (fun i inputs =>
    .align 3 :: under (.vec i .len) (.quads [(vectorLength inputs).toNat]) ++
      under (.vec i .needle) (.bytes [vectorNeedle inputs]) ++
      under (.vec i .guardPre) (.bytes [writeGuardPre]) ++
      underBytes (.vec i .buf) (vectorBufferBytes inputs) ++
      under (.vec i .guardPost) (.bytes [writeGuardPost]))

/-- `emit_pure_int_vector_data`. -/
def dataPureInt (vectors : List TestVector) : List (List DataLine) :=
  eachVector vectors (fun i inputs =>
    [.named (.vec i .a) (.quads [(vectorIntInput inputs 0).toNat]),
      .named (.vec i .b) (.quads [(vectorIntInput inputs 1).toNat])])

/-- `emit_pure_int_unary_vector_data`. -/
def dataPureIntUnary (vectors : List TestVector) : List (List DataLine) :=
  eachVector vectors (fun i inputs =>
    [.named (.vec i .a) (.quads [(vectorIntInput inputs 0).toNat])])

/-- `emit_i64_sum_vector_data`. -/
def emitI64SumVectorData (vectors : List TestVector) : List (List DataLine) :=
  eachVector vectors (fun i inputs =>
    [.named (.vec i .len) (.quads [(vectorLength inputs).toNat]),
      .named (.vec i .buf) (.quadsOrZero (vectorI64Words inputs))])

/-- `emit_memcmp_vector_data`. -/
def emitMemcmpVectorData (vectors : List TestVector) : List (List DataLine) :=
  eachVector vectors (fun i inputs =>
    [.named (.vec i .len) (.quads [(vectorMemcmpLength inputs).toNat]),
      .named (.vec i .a) (.bytesOrZero (vectorMemcmpBufferBytes inputs 0)),
      .named (.vec i .b) (.bytesOrZero (vectorMemcmpBufferBytes inputs 1))])

/-- `emit_memcpy_vector_data`. -/
def emitMemcpyVectorData (vectors : List TestVector) : List (List DataLine) :=
  eachVector vectors (fun i inputs =>
    [.named (.vec i .len) (.quads [(vectorMemcmpLength inputs).toNat]),
      .named (.vec i .aGuardPre) (.bytes [writeGuardPre])] ++
      underBytes (.vec i .a) (vectorMemcmpBufferBytes inputs 0) ++
      [.named (.vec i .aGuardPost) (.bytes [writeGuardPost]),
        .named (.vec i .bGuardPre) (.bytes [writeGuardPre])] ++
      underBytes (.vec i .b) (vectorMemcmpBufferBytes inputs 1) ++
      [.named (.vec i .bGuardPost) (.bytes [writeGuardPost])])

/-- `emit_gas_vector_data`. -/
def emitGasVectorData (vectors : List TestVector) : List (List DataLine) :=
  eachVector vectors (fun i inputs =>
    .align 3 :: under (.vec i .len) (.quads [(vectorLength inputs).toNat]) ++
      under (.vec i .needle) (.bytes [vectorNeedle inputs]) ++
      .align 3 :: under (.vec i .buf) (.bytes (orZero (vectorBufferBytes inputs))))

/-- `emit_gas_i64_sum_vector_data`. -/
def emitGasI64SumVectorData (vectors : List TestVector) : List (List DataLine) :=
  eachVector vectors (fun i inputs =>
    .align 3 :: under (.vec i .len) (.quads [(vectorLength inputs).toNat]) ++
      .align 3 :: under (.vec i .buf)
        (.quads (if (vectorI64Words inputs).isEmpty then [0] else vectorI64Words inputs)))

/-- `emit_gas_pure_int_vector_data`. -/
def dataGasPureInt (vectors : List TestVector) : List (List DataLine) :=
  eachVector vectors (fun i inputs =>
    .align 3 :: under (.vec i .a) (.quads [(vectorIntInput inputs 0).toNat]) ++
      .align 3 :: under (.vec i .b) (.quads [(vectorIntInput inputs 1).toNat]))

/-- `emit_gas_pure_int_unary_vector_data`. -/
def dataGasPureIntUnary (vectors : List TestVector) : List (List DataLine) :=
  eachVector vectors (fun i inputs =>
    .align 3 :: under (.vec i .a) (.quads [(vectorIntInput inputs 0).toNat]))

/-- `emit_gas_memcmp_vector_data`. -/
def emitGasMemcmpVectorData (vectors : List TestVector) : List (List DataLine) :=
  eachVector vectors (fun i inputs =>
    .align 3 :: under (.vec i .len) (.quads [(vectorMemcmpLength inputs).toNat]) ++
      .align 3 :: under (.vec i .a) (.bytes (orZero (vectorMemcmpBufferBytes inputs 0))) ++
      .align 3 :: under (.vec i .b) (.bytes (orZero (vectorMemcmpBufferBytes inputs 1))))

/-- `emit_gas_memcpy_vector_data`. -/
def emitGasMemcpyVectorData (vectors : List TestVector) : List (List DataLine) :=
  eachVector vectors (fun i inputs =>
    .align 3 :: under (.vec i .len) (.quads [(vectorMemcmpLength inputs).toNat]) ++
      under (.vec i .aGuardPre) (.bytes [writeGuardPre]) ++
      underBytes (.vec i .a) (vectorMemcmpBufferBytes inputs 0) ++
      under (.vec i .aGuardPost) (.bytes [writeGuardPost]) ++
      under (.vec i .bGuardPre) (.bytes [writeGuardPre]) ++
      underBytes (.vec i .b) (vectorMemcmpBufferBytes inputs 1) ++
      under (.vec i .bGuardPost) (.bytes [writeGuardPost]))

end Semasm.Agent.Harness
