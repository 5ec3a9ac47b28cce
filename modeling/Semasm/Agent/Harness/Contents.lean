import Semasm.Agent.Harness.Execution

/-!
# What routines are called with

The data of a vector holds its inputs, so the registers of a call do: numbers as they are, and
buffers by the address of their bytes. A null input is passed as null by the shapes that look
for one; the others pass the address of a buffer in any case.
-/

namespace Semasm.Agent.Harness.Programs

open Library Library.ByteMemory Library.Sections Machine

/-- The bytes behind the names of a vector. -/
def shapeContents (shape : HarnessShape) (i : Nat) (inputs : List Json) :
    List (Label × List UInt8) :=
  let length := quadBytes (vectorLength inputs).toNat
  let pairLength := quadBytes (vectorMemcmpLength inputs).toNat
  let guarded := fun bytes => bytes ++ [writeGuardPost]
  match shape with
  | .bufferScan => [(.vec i .len, length), (.vec i .needle, [vectorNeedle inputs]),
      (.vec i .buf, orZero (vectorBufferBytes inputs))]
  | .replaceByte => [(.vec i .len, length), (.vec i .needle, [vectorNeedle inputs]),
      (.vec i .replacement, [vectorReplacement inputs]),
      (.vec i .guardPre, writeGuardPre :: guarded (vectorBufferBytes inputs)),
      (.vec i .buf, guarded (vectorBufferBytes inputs))]
  | .memset => [(.vec i .len, length), (.vec i .needle, [vectorNeedle inputs]),
      (.vec i .guardPre, writeGuardPre :: guarded (vectorBufferBytes inputs)),
      (.vec i .buf, guarded (vectorBufferBytes inputs))]
  | .memCmp => [(.vec i .len, pairLength), (.vec i .a, orZero (vectorMemcmpBufferBytes inputs 0)),
      (.vec i .b, orZero (vectorMemcmpBufferBytes inputs 1))]
  | .memcpy => [(.vec i .len, pairLength),
      (.vec i .aGuardPre, writeGuardPre :: guarded (vectorMemcmpBufferBytes inputs 0)),
      (.vec i .a, guarded (vectorMemcmpBufferBytes inputs 0)),
      (.vec i .bGuardPre, writeGuardPre :: guarded (vectorMemcmpBufferBytes inputs 1)),
      (.vec i .b, guarded (vectorMemcmpBufferBytes inputs 1))]
  | .i64Sum => [(.vec i .len, length), (.vec i .buf,
      (if (vectorI64Words inputs).isEmpty then [0] else vectorI64Words inputs).flatMap quadBytes)]
  | .pureInt => [(.vec i .a, quadBytes (vectorIntInput inputs 0).toNat),
      (.vec i .b, quadBytes (vectorIntInput inputs 1).toNat)]
  | .pureIntUnary => [(.vec i .a, quadBytes (vectorIntInput inputs 0).toNat)]
  | .cellLoad => [(.vec i .buf, orZero (vectorBufferBytes inputs))]
  | .cellStore => [(.vec i .buf, orZero (vectorBufferBytes inputs)),
      (.vec i .value, [vectorCellValue inputs])]

@[simp] theorem eachVector_getElem? (vectors : List TestVector)
    (lines : Nat → List Json → List DataLine) (index : Nat) :
    (eachVector vectors lines)[index]? =
      vectors[index]?.map (fun vector => lines index vector.inputs) := by
  simp [eachVector, Function.comp_def]

/-- A line with a name and the bytes behind it. -/
theorem underBytes_pieces (label : Label) (bytes : List UInt8) :
    (underBytes label bytes).flatMap DataLine.pieces =
      .name label :: if bytes = [] then [] else [.bytes bytes] := by
  cases bytes <;> rfl

/-- Bytes that may be missing, followed by others. -/
theorem following_optional (bytes : List UInt8) (rest : List (Piece Label UInt8)) :
    following ((if bytes = [] then [] else [.bytes bytes]) ++ rest) = bytes ++ following rest := by
  cases bytes <;> simp [following]

/-- Bytes that may be missing hold no name. -/
theorem behind_optional (label : Label) (bytes : List UInt8) (rest : List (Piece Label UInt8)) :
    behind label ((if bytes = [] then [] else [.bytes bytes]) ++ rest) = behind label rest := by
  cases bytes <;> simp [behind]

/-- The data of a vector has its contents behind their names. -/
theorem contents_behind (abi : Abi) (shape : HarnessShape) (vectors : List TestVector)
    (index : Nat) (vector : TestVector) (lines : List DataLine)
    (there : vectors[index]? = some vector)
    (listed : (shapeData abi shape vectors)[index]? = some lines) :
    ∀ content ∈ shapeContents shape index vector.inputs,
      Names content.1 (lines.flatMap DataLine.pieces) ∧
      content.2 <+: behind content.1 (lines.flatMap DataLine.pieces) := by
  unfold shapeData at listed
  cases gas : abi.gas <;> cases shape <;>
    simp only [gas, Bool.false_eq_true, if_false, if_true, nasmData, gasData, emitVectorData,
      emitReplaceByteVectorData, emitMemsetVectorData, emitMemcmpVectorData, emitMemcpyVectorData,
      emitI64SumVectorData, dataPureInt, dataPureIntUnary, emitCellLoadVectorData,
      emitCellStoreVectorData, emitGasVectorData, emitGasMemcmpVectorData, emitGasMemcpyVectorData,
      emitGasI64SumVectorData, dataGasPureInt, dataGasPureIntUnary, eachVector_getElem?, there,
      Option.map_some, Option.some.injEq, List.getElem?_nil, reduceCtorEq] at listed <;>
    subst listed <;>
    simp [shapeContents, under, DataLine.pieces, Datum.contents, Names, behind, following,
      underBytes_pieces, following_optional, behind_optional, orZero]

/-- The bytes are in the data of a vector, under a name. -/
structure Held (image : Image) (index : Nat) (memory : Memory) (content : Label × List UInt8) :
    Prop where
  placed : ∃ place, image.place index ≤ place ∧
    place + content.2.length ≤ image.place (index + 1) ∧
    image.address content.1 = BitVec.ofNat 64 place
  reads : readBytes memory (image.address content.1) content.2.length = content.2

/-- Memory holds the contents of a vector as long as nothing has changed its data. -/
theorem Placed.held {lineEnds : LineEnds} {abi : Abi} {program : Program abi.target.Instruction}
    {image : Image} {pointer : Word} {shape : HarnessShape} {vectors : List TestVector}
    (placed : Placed lineEnds abi program image pointer) (apart : image.Apart vectors.length)
    (data : program.data = shapeData abi shape vectors) {index : Nat} {vector : TestVector}
    {lines : List DataLine} (there : vectors[index]? = some vector)
    (listed : (shapeData abi shape vectors)[index]? = some lines) (memory : Memory)
    (same : ∀ byte, image.Data index byte → memory byte = image.memory byte) :
    ∀ content ∈ shapeContents shape index vector.inputs, Held image index memory content := by
  intro content member
  obtain ⟨named, begins⟩ := contents_behind abi shape vectors index vector lines there listed
    content member
  have bound := (List.getElem?_eq_some_iff.mp there).1
  have ends : image.place (index + 1) ≤ 2 ^ 64 :=
    Nat.le_trans (apart.place_le bound (Nat.le_refl _)) apart.fits
  have laid := (placed.data index lines (data ▸ listed)).congr ends
    fun byte between => (same byte between).symm
  obtain ⟨place, first, last, found, read⟩ := laid.behind named
  have length := begins.length_le
  exact ⟨⟨place, first, by omega, found⟩, readBytes_prefix _ _ read begins⟩

/-- What a routine gets for an input: a pointer to bytes, or a number. -/
inductive Passed where
  | pointer (null : Bool) (bytes : List UInt8)
  | value (number : Word)

/-- A register and memory hold what is passed. -/
def Passed.Holds (word : Word) (memory : Memory) : Passed → Prop
  | .pointer true _ => word = 0
  | .pointer false bytes => word ≠ 0 ∧ readBytes memory word bytes.length = bytes
  | .value number => word = number

/-- A byte as a word. -/
def byteWord (byte : UInt8) : Word := byte.toBitVec.setWidth 64

/-- The inputs of a vector as a routine of the shape gets them. -/
def shapeInputs (shape : HarnessShape) (inputs : List Json) : List Passed :=
  let buffer := Passed.pointer (inputIsNull inputs 0) (vectorBufferBytes inputs)
  let length := Passed.value (vectorLength inputs).toBitVec
  match shape with
  | .bufferScan | .memset => [buffer, length, .value (byteWord (vectorNeedle inputs))]
  | .replaceByte => [buffer, length, .value (byteWord (vectorNeedle inputs)),
      .value (byteWord (vectorReplacement inputs))]
  | .memCmp | .memcpy => [.pointer (inputIsNull inputs 0) (vectorMemcmpBufferBytes inputs 0),
      .pointer (inputIsNull inputs 1) (vectorMemcmpBufferBytes inputs 1),
      .value (vectorMemcmpLength inputs).toBitVec]
  | .i64Sum =>
    [.pointer (inputIsNull inputs 0) ((vectorI64Words inputs).flatMap quadBytes), length]
  | .pureInt => [.value (vectorIntInput inputs 0).toBitVec, .value (vectorIntInput inputs 1).toBitVec]
  | .pureIntUnary => [.value (vectorIntInput inputs 0).toBitVec]
  | .cellLoad => [buffer]
  | .cellStore => [buffer, .value (byteWord (vectorCellValue inputs))]

/-- The shape passes a null input as null. -/
def passesNull : HarnessShape → Bool
  | .bufferScan | .i64Sum | .cellLoad | .cellStore => false
  | _ => true

section

variable {image : Image} {index : Nat} {memory : Memory} {label : Label}

theorem Held.value {number : UInt64} (held : Held image index memory (label, quadBytes number.toNat)) :
    (Passed.value number.toBitVec).Holds ((Argument.word label).value image.address memory) memory := by
  have same : BitVec.ofInt 64 (number.toNat : Int) = number.toBitVec := by
    rw [BitVec.ofInt_natCast, ← UInt64.toNat_toBitVec, BitVec.ofNat_toNat, BitVec.setWidth_eq]
  refine word_of_bytes _ _ _ ?_
  have read := held.reads
  simp only [quadBytes, bytesOf_length, same] at read
  exact read

theorem Held.byte {byte : UInt8} (held : Held image index memory (label, [byte])) :
    (Passed.value (byteWord byte)).Holds ((Argument.byte label).value image.address memory)
      memory := by
  have read := held.reads
  simp only [List.length_singleton, readBytes, List.cons.injEq, and_true] at read
  simp only [Passed.Holds, Argument.value, Memory.byte, read, byteWord]

theorem Held.address_ne {whole : List UInt8} (held : Held image index memory (label, whole))
    (positive : 0 < image.place index) (ends : image.place (index + 1) ≤ 2 ^ 64)
    (some_ : whole ≠ []) : image.address label ≠ 0 := by
  obtain ⟨place, first, last, found⟩ := held.placed
  have length := List.length_pos_of_ne_nil some_
  simp only at last found
  rw [found]
  intro zero
  have value := congrArg BitVec.toNat zero
  rw [BitVec.toNat_ofNat, Nat.mod_eq_of_lt (by omega)] at value
  simp at value
  omega

theorem Held.address {whole bytes : List UInt8} (held : Held image index memory (label, whole))
    (positive : 0 < image.place index) (ends : image.place (index + 1) ≤ 2 ^ 64)
    (some_ : whole ≠ []) (begins : bytes <+: whole) (null : Bool) :
    (Passed.pointer null bytes).Holds ((Argument.address label).value image.address memory) memory ↔
      null = false := by
  have notNull := held.address_ne positive ends some_
  cases null with
  | true => exact ⟨fun zero => absurd zero notNull, fun impossible => absurd impossible (by simp)⟩
  | false => exact ⟨fun _ => rfl, fun _ => ⟨notNull, readBytes_prefix _ _ held.reads begins⟩⟩

theorem Held.pointer {whole bytes : List UInt8} (held : Held image index memory (label, whole))
    (positive : 0 < image.place index) (ends : image.place (index + 1) ≤ 2 ^ 64)
    (some_ : whole ≠ []) (begins : bytes <+: whole) (inputs : List Json) (position : Nat) :
    (Passed.pointer (inputIsNull inputs position) bytes).Holds
      ((Programs.pointer inputs position label).value image.address memory) memory := by
  cases null : inputIsNull inputs position with
  | true =>
    rw [Programs.pointer, null]
    rfl
  | false =>
    rw [Programs.pointer, null]
    exact (held.address positive ends some_ begins false).mpr rfl

theorem prefix_orZero (bytes : List UInt8) : bytes <+: orZero bytes := by
  cases bytes <;> simp [orZero]

theorem orZero_ne (bytes : List UInt8) : orZero bytes ≠ [] := by
  cases bytes <;> simp [orZero]

/-- The words of an array, or one zero word. -/
theorem prefix_words (words : List Int) :
    words.flatMap quadBytes <+: (if words.isEmpty then [0] else words).flatMap quadBytes := by
  cases words <;> simp

theorem words_ne (words : List Int) :
    (if words.isEmpty then [0] else words).flatMap quadBytes ≠ [] := by
  cases words with
  | nil => simp [quadBytes, ← List.length_pos_iff]
  | cons word words => simp [quadBytes, ← List.length_pos_iff]

/-- The arguments of a shape are its inputs, up to a null that the shape does not look for. -/
theorem arguments_hold (shape : HarnessShape) (inputs : List Json)
    (held : ∀ content ∈ shapeContents shape index inputs, Held image index memory content)
    (positive : 0 < image.place index) (ends : image.place (index + 1) ≤ 2 ^ 64) :
    List.Forall₂ (fun argument passed =>
        passed.Holds (Argument.value image.address memory argument) memory)
      (shapeArguments shape index inputs) (shapeInputs shape inputs) ↔
      (passesNull shape = true ∨ inputIsNull inputs 0 = false) := by
  cases shape <;>
    simp only [shapeContents, List.forall_mem_cons, List.not_mem_nil, false_imp_iff,
      implies_true, and_true] at held <;>
    simp only [shapeArguments, shapeInputs, passesNull, List.forall₂_cons, List.forall₂_nil_left_iff,
      Bool.false_eq_true, false_or, true_or, iff_true, and_true]
  case bufferScan =>
    obtain ⟨len, needle, buf⟩ := held
    simp only [buf.address positive ends (orZero_ne _) (prefix_orZero _), len.value, needle.byte,
      and_true]
  case replaceByte =>
    obtain ⟨len, needle, replacement, _, buf⟩ := held
    exact ⟨buf.pointer positive ends (by simp) (List.prefix_append _ _) inputs 0, len.value,
      needle.byte, replacement.byte⟩
  case memset =>
    obtain ⟨len, needle, _, buf⟩ := held
    exact ⟨buf.pointer positive ends (by simp) (List.prefix_append _ _) inputs 0, len.value,
      needle.byte⟩
  case memCmp =>
    obtain ⟨len, a, b⟩ := held
    exact ⟨a.pointer positive ends (orZero_ne _) (prefix_orZero _) inputs 0,
      b.pointer positive ends (orZero_ne _) (prefix_orZero _) inputs 1, len.value⟩
  case memcpy =>
    obtain ⟨len, _, a, _, b⟩ := held
    exact ⟨a.pointer positive ends (by simp) (List.prefix_append _ _) inputs 0,
      b.pointer positive ends (by simp) (List.prefix_append _ _) inputs 1, len.value⟩
  case i64Sum =>
    obtain ⟨len, buf⟩ := held
    simp only [buf.address positive ends (words_ne _) (prefix_words _), len.value, and_true]
  case pureInt =>
    obtain ⟨a, b⟩ := held
    exact ⟨a.value, b.value⟩
  case pureIntUnary => exact held.value
  case cellLoad => exact held.address positive ends (orZero_ne _) (prefix_orZero _) _
  case cellStore =>
    obtain ⟨buf, value⟩ := held
    simp only [buf.address positive ends (orZero_ne _) (prefix_orZero _), value.byte, and_true]

/-- The length input of a shape that writes is the length of the buffers. -/
def Sized (shape : HarnessShape) (inputs : List Json) : Prop :=
  match shape with
  | .replaceByte | .memset => (vectorLength inputs).toNat = (vectorBufferBytes inputs).length
  | .memcpy => (vectorMemcmpLength inputs).toNat = (vectorMemcmpBufferBytes inputs 0).length ∧
      (vectorMemcmpLength inputs).toNat = (vectorMemcmpBufferBytes inputs 1).length
  | _ => True

/-- Bytes that are held make up a region of the data. -/
theorem Held.region {bytes : List UInt8} (held : Held image index memory (label, bytes))
    (ends : image.place (index + 1) ≤ 2 ^ 64) :
    image.RegionIn (image.Data index) (label, bytes.length) := by
  obtain ⟨place, first, last, found⟩ := held.placed
  simp only at last found
  refine ⟨by simp only; omega, fun byte within => ?_⟩
  simp only [found] at within
  rw [within_iff_between _ _ _ (by omega)] at within
  exact ⟨Nat.le_trans first within.1, Nat.lt_of_lt_of_le within.2 last⟩

/-- A guarded buffer with its guards, of the length that is written out. -/
theorem Held.guarded {bytes : List UInt8} {length : UInt64}
    (held : Held image index memory (label, writeGuardPre :: (bytes ++ [writeGuardPost])))
    (positive : 0 < image.place index) (ends : image.place (index + 1) ≤ 2 ^ 64)
    (sized : length.toNat = bytes.length) :
    guardedLength length = (guardedRegion bytes).length ∧
      image.RegionIn (image.Data index) (label, guardedLength length) := by
  have size : guardedLength length = (guardedRegion bytes).length := by
    obtain ⟨place, first, last, _⟩ := held.placed
    simp only [List.length_cons, List.length_append, List.length_nil] at last
    rw [guardedLength, UInt64.toNat_add, Nat.mod_eq_of_lt (by
      have : (2 : UInt64).toNat = 2 := rfl
      omega)]
    have : (2 : UInt64).toNat = 2 := rfl
    simp [guardedRegion, sized, this]
  exact ⟨size, size ▸ held.region ends⟩

/-- The regions of a sized vector lie in its data. -/
theorem regions_in_data {shape : HarnessShape} {inputs : List Json} (sized : Sized shape inputs)
    (held : ∀ content ∈ shapeContents shape index inputs, Held image index memory content)
    (positive : 0 < image.place index) (ends : image.place (index + 1) ≤ 2 ^ 64) :
    ∀ region ∈ shapeRegions shape index inputs, image.RegionIn (image.Data index) region := by
  cases shape <;>
    simp only [shapeContents, List.forall_mem_cons, List.not_mem_nil, false_imp_iff,
      implies_true, and_true] at held <;>
    simp only [shapeRegions, List.forall_mem_cons, List.not_mem_nil, false_imp_iff, implies_true,
      and_true]
  case replaceByte => exact (held.2.2.2.1.guarded positive ends sized).2
  case memset => exact (held.2.2.1.guarded positive ends sized).2
  case memcpy =>
    exact ⟨(held.2.1.guarded positive ends sized.1).2, (held.2.2.2.1.guarded positive ends sized.2).2⟩

/-- The bytes of the regions are as many as the echo has. -/
theorem regions_length {shape : HarnessShape} {vector : TestVector} (sized : Sized shape vector.inputs)
    (held : ∀ content ∈ shapeContents shape index vector.inputs, Held image index memory content)
    (positive : 0 < image.place index) (ends : image.place (index + 1) ≤ 2 ^ 64) (other : Memory) :
    ((shapeRegions shape index vector.inputs).flatMap (image.shown other)).length =
      (expectedEcho shape vector).length := by
  have low (position : Nat) : (lowBytes vector.inputs position).length =
      (vectorMemcmpBufferBytes vector.inputs position).length := by
    unfold lowBytes vectorMemcmpBufferBytes
    cases vector.inputs[position]? with
    | none => rfl
    | some item => cases item <;> simp
  have source : (sourceBytes vector.inputs).length =
      (vectorMemcmpBufferBytes vector.inputs 1).length := by
    unfold sourceBytes vectorMemcmpBufferBytes
    cases vector.inputs[1]? with
    | none => rfl
    | some item => cases item <;> simp
  cases shape <;>
    simp only [shapeContents, List.forall_mem_cons, List.not_mem_nil, false_imp_iff,
      implies_true, and_true] at held
  case replaceByte =>
    have size := (held.2.2.2.1.guarded positive ends sized).1
    simp [shapeRegions, Image.shown, size, expectedEcho, shapeEcho, expectedReplaceByteEcho,
      guardedRegion, expectedReplaceByteBuffer, low, vectorBufferBytes]
  case memset =>
    have size := (held.2.2.1.guarded positive ends sized).1
    have own : (vectorLength vector.inputs).toNat = (vectorBufferBytes vector.inputs).length := sized
    simp [shapeRegions, Image.shown, size, expectedEcho, shapeEcho, expectedMemsetEcho,
      guardedRegion, expectedMemsetBuffer, own]
  case memcpy =>
    have first := (held.2.1.guarded positive ends sized.1).1
    have second := (held.2.2.2.1.guarded positive ends sized.2).1
    have own := sized.1.symm.trans sized.2
    simp only [shapeRegions, List.flatMap_cons, List.flatMap_nil, List.append_nil, Image.shown,
      List.length_append, readBytes_length, expectedEcho, shapeEcho, Option.map_some,
      Option.getD_some, expectedMemcpyEcho]
    have same : (guardedRegion (expectedMemcpyBuffer vector.inputs)).length =
        (guardedRegion (vectorMemcmpBufferBytes vector.inputs 0)).length := by
      simp [guardedRegion, expectedMemcpyBuffer, low, own]
    have last : (guardedRegion (sourceBytes vector.inputs)).length =
        (guardedRegion (vectorMemcmpBufferBytes vector.inputs 1)).length := by
      simp [guardedRegion, source]
    omega
  all_goals simp [shapeRegions, expectedEcho, shapeEcho]

end

end Semasm.Agent.Harness.Programs
