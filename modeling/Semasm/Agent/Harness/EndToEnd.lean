import Semasm.Agent.Harness.Contents
import Semasm.Agent.Harness.ShapeAgreement

/-!
# From a routine to its verdicts

A harness is generated for vectors, placed, run with a conventional routine, and its output is
evaluated. Every call is made with the inputs of its vector, and every verdict says whether the
call returned what the vector expects and left the guarded buffers as it expects. For vectors
that expect what the oracle computes, the verdicts say whether the routine computes it.
-/

namespace Semasm.Agent.Harness.Programs

open Library Library.ByteMemory Library.Layout Library.Sections Machine Contract

/-- A harness that was generated for vectors whose lengths are those of their buffers, placed in
memory, and is run from registers with a conventional routine. -/
structure Setup (lineEnds : LineEnds) (routineSymbol : String) (abi : Abi) (shape : HarnessShape)
    (vectors : List TestVector) (program : Program abi.target.Instruction) (image : Image)
    (outside : Outside abi.target.Register) (registers : abi.target.Register → Word) : Prop where
  generated : generateHarness routineSymbol vectors abi shape = .ok program
  placed : Placed lineEnds abi program image (registers abi.target.stack)
  conventional : Conventional image abi.target.stack outside
  sized : ∀ vector ∈ vectors, Sized shape vector.inputs

/-- The calls are one for every vector, in order, and the parameters of a call hold the inputs of
its vector, except where the shape passes the address of a buffer for a first input that is
null. -/
def InputsPassed (abi : Abi) (shape : HarnessShape) (vectors : List TestVector)
    (calls : List (Call abi.target.Register)) : Prop :=
  calls.length = vectors.length ∧
    ∀ (index : Nat) (call : Call abi.target.Register) (vector : TestVector),
      calls[index]? = some call → vectors[index]? = some vector →
        ((∀ entry ∈ abi.target.parameters.zip (shapeInputs shape vector.inputs),
            entry.2.Holds (call.registers entry.1) call.memory) ↔
          passesNull shape = true ∨ inputIsNull vector.inputs 0 = false)

/-- What a call left in the guarded buffers of its vector. -/
def leftEcho {Register : Type} (image : Image) (shape : HarnessShape) (index : Nat)
    (vector : TestVector) (call : Call Register) : List UInt8 :=
  (shapeRegions shape index vector.inputs).flatMap (image.shown call.left)

/-- The call returned what the vector expects and left the guarded buffers as it expects. -/
def Answered {Register : Type} (image : Image) (shape : HarnessShape) (index : Nat)
    (vector : TestVector) (call : Call Register) : Prop :=
  call.returned = (expectedBits vector.expected).toBitVec ∧
    leftEcho image shape index vector call = expectedEcho shape vector

/-- Every call has the property for its vector. -/
def EveryCall {Register : Type} (property : Nat → TestVector → Call Register → Prop)
    (vectors : List TestVector) (calls : List (Call Register)) : Prop :=
  ∀ (index : Nat) (call : Call Register) (vector : TestVector),
    calls[index]? = some call → vectors[index]? = some vector → property index vector call

/-- The report tells of every vector whether its call answered, and whether all did. -/
def TellsAnswers {Register : Type} (image : Image) (shape : HarnessShape)
    (vectors : List TestVector) (calls : List (Call Register)) (report : HarnessReport) : Prop :=
  EveryCall (fun index vector call => ∃ result, report.cases[index]? = some result ∧
      (result.passed = true ↔ Answered image shape index vector call)) vectors calls ∧
    (report.allPassed = true ↔ EveryCall (Answered image shape) vectors calls)

section

variable {lineEnds : LineEnds} {routineSymbol : String} {abi : Abi} {shape : HarnessShape}
  {vectors : List TestVector} {program : Program abi.target.Instruction} {image : Image}
  {outside : Outside abi.target.Register} {registers : abi.target.Register → Word}

/-- The data of a generated harness is that of its shape. -/
theorem generated_data (generated : generateHarness routineSymbol vectors abi shape = .ok program) :
    program.data = shapeData abi shape vectors ∧ ∃ gaps others,
      program.bss.flatMap DataLine.pieces =
        gaps ++ .name .results :: .room (vectors.length * 8) :: others := by
  cases abi with
  | sysVAmd64 =>
    have made := sysv_generated routineSymbol vectors shape program generated
    exact ⟨made.data, made.room⟩
  | windowsX64 =>
    have made := win64_generated routineSymbol vectors shape program generated
    exact ⟨made.data, made.room⟩
  | aapcs64 =>
    have made := aapcs64_generated routineSymbol vectors shape program generated
    exact ⟨made.data, made.room⟩
  | riscv =>
    have made := riscv_generated routineSymbol vectors shape program generated
    exact ⟨made.data, made.room⟩

namespace Setup

variable (setup : Setup lineEnds routineSymbol abi shape vectors program image outside registers)

include setup

theorem length : program.data.length = vectors.length := by
  rw [(generated_data setup.generated).1]
  exact shapeData_length routineSymbol vectors abi shape program setup.generated

theorem apart : image.Apart vectors.length := by
  rw [← setup.length]
  refine setup.placed.apart ?_
  rw [setup.length]
  exact (generated_data setup.generated).2

/-- The data of a vector lies above null and below the end of memory. -/
theorem bounds {index : Nat} (bound : index < vectors.length) :
    0 < image.place index ∧ image.place (index + 1) ≤ 2 ^ 64 :=
  ⟨Nat.lt_of_lt_of_le setup.placed.notNull (setup.apart.place_le (Nat.zero_le _) (by omega)),
    Nat.le_trans (setup.apart.place_le bound (Nat.le_refl _)) setup.apart.fits⟩

/-- Memory holds the contents of a vector as long as nothing has changed its data. -/
theorem held {index : Nat} {vector : TestVector} (there : vectors[index]? = some vector)
    (memory : Memory) (same : ∀ byte, image.Data index byte → memory byte = image.memory byte) :
    ∀ content ∈ shapeContents shape index vector.inputs, Held image index memory content := by
  have data := (generated_data setup.generated).1
  have bound : index < (shapeData abi shape vectors).length := by
    rw [← data, setup.length]
    exact (List.getElem?_eq_some_iff.mp there).1
  exact setup.placed.held setup.apart data there (List.getElem?_eq_getElem bound) memory same

/-- The guarded buffers of every vector lie in its data. -/
theorem regions : RegionsInData image shape vectors := by
  intro entry member
  have there : vectors[entry.2]? = some entry.1 := by
    obtain ⟨bound, same⟩ := List.mem_zipIdx' (x := entry.1) (i := entry.2) member
    rw [same]
    exact List.getElem?_eq_getElem bound
  obtain ⟨positive, ends⟩ := setup.bounds (List.getElem?_eq_some_iff.mp there).1
  exact regions_in_data (setup.sized _ (List.mem_of_getElem? there))
    (setup.held there image.memory fun _ _ => rfl) positive ends

/-- The run ends with one call for every vector. -/
theorem finished : Finished image (harnessArguments abi shape) (shapeRegions shape) vectors
    (run program image outside registers) :=
  harness_finishes routineSymbol abi program setup.generated outside registers setup.placed
    setup.conventional setup.regions

end Setup

/-- Arguments hold what registers hold that they were put into. -/
theorem holds_iff_arguments {Register : Type} (values : Register → Word) (address : Label → Word)
    (memory : Memory) (parameters : List Register) (arguments : List Argument)
    (inputs : List Passed) (same : arguments.length = inputs.length)
    (enough : arguments.length ≤ parameters.length)
    (loaded : ∀ passed ∈ parameters.zip arguments,
      values passed.1 = passed.2.value address memory) :
    (∀ entry ∈ parameters.zip inputs, entry.2.Holds (values entry.1) memory) ↔
      List.Forall₂ (fun argument passed =>
        passed.Holds (Argument.value address memory argument) memory) arguments inputs := by
  induction parameters generalizing arguments inputs with
  | nil =>
    obtain rfl := List.eq_nil_of_length_eq_zero (Nat.le_zero.mp enough)
    obtain rfl := List.eq_nil_of_length_eq_zero same.symm
    simp
  | cons parameter parameters inductionHypothesis =>
    cases arguments with
    | nil =>
      obtain rfl := List.eq_nil_of_length_eq_zero same.symm
      simp
    | cons argument arguments =>
      cases inputs with
      | nil => simp at same
      | cons input inputs =>
        rw [List.zip_cons_cons, List.forall_mem_cons] at loaded
        rw [List.zip_cons_cons, List.forall_mem_cons, List.forall₂_cons, loaded.1,
          inductionHypothesis arguments inputs (by simpa using same) (by simpa using enough)
            loaded.2]

/-- Every shape has as many arguments as inputs, and no more than four. -/
theorem arguments_fit (abi : Abi) (shape : HarnessShape) (index : Nat) (inputs : List Json) :
    (shapeArguments shape index inputs).length = (shapeInputs shape inputs).length ∧
      (shapeArguments shape index inputs).length ≤ abi.target.parameters.length := by
  cases abi <;> cases shape <;> exact ⟨rfl, by simp [shapeArguments, Abi.target]⟩

/-- The inputs of the vectors of a sum over a range. -/
def rangeInputs : List Nat := [0, 1, 5, 10, 20]

/-- The addresses of the data and, behind it, of the results. -/
def rangeAddress : Label → Word
  | .vec index _ => BitVec.ofNat 64 (16 + 8 * index)
  | .results => 256
  | _ => 512

/-- A harness with five vectors in memory. -/
def rangeImage : Image where
  address := rangeAddress
  memory := fun byte => if byte.toNat % 8 = 0 ∧ 2 ≤ byte.toNat / 8 ∧ byte.toNat / 8 < 7 then
    UInt8.ofNat (rangeInputs.getD (byte.toNat / 8 - 2) 0) else 0
  place := fun index => 16 + 8 * index
  scratch := fun byte => 1024 ≤ byte.toNat

/-- A routine that sums up a range, and a system that does nothing. -/
def rangeOutside : Outside Amd64.Register where
  routine := fun state =>
    (Function.update state.registers .rax
      (state.registers .rdi * (state.registers .rdi + 1) / 2), state.memory)
  service := fun state => (state.registers, state.memory)
  stdout := 1

/-- The System V harness of the synthesized vectors. -/
def rangeProgram : Program Amd64.Instruction :=
  generateSysvPureIntUnaryHarness "sum_range" (synthesizeVectors sumRange)

theorem sumRange_recognized : recognizedShape sumRange = some (.pureIntUnaryI64 .sumRange) := by
  decide +kernel

theorem sumRange_vectors : synthesizeVectors sumRange = synthesizePureIntUnaryI64Vectors .sumRange := by
  rw [synthesizeVectors, sumRange_recognized]

theorem rangeProgram_generated : generateHarness "sum_range" (synthesizeVectors sumRange) .sysVAmd64
    .pureIntUnary = .ok rangeProgram := rfl

theorem conventional_range : Conventional rangeImage Amd64.Register.rsp rangeOutside := by
  constructor
  · intro state
    simp [rangeOutside]
  · intros; rfl
  · intros; rfl
  · intros; rfl

/-- The comments over the calls are on one line where the names of the vectors are. -/
theorem calls_onOneLine {Instruction : Type} (lineEnds : LineEnds) (vectors : List TestVector)
    (call : Nat → List Json → List Instruction)
    (names : ∀ vector ∈ vectors, OnOneLine lineEnds vector.name) :
    ∀ line ∈ calls vectors call, line.OnOneLine lineEnds := by
  intro line member
  obtain ⟨entry, listed, found⟩ := List.mem_flatMap.mp member
  have name := names entry.1 (List.fst_mem_of_mem_zipIdx listed)
  rw [callLines, List.mem_cons] at found
  obtain rfl | code := found
  · have number := (printable_nat entry.2).onOneLine lineEnds
    have word := Printable.onOneLine lineEnds "vector " (by decide +kernel)
    have colon := Printable.onOneLine lineEnds ": " (by decide +kernel)
    exact (((word.append lineEnds _ _ number).append lineEnds _ _ colon).append lineEnds _ _ name)
  · obtain ⟨instruction, _, rfl⟩ := List.mem_map.mp code
    trivial

/-- The comments over the output of results only are on one line. -/
theorem sysvWords_onOneLine (lineEnds : LineEnds) (vectors : List TestVector) :
    ∀ line ∈ sysvWords vectors, line.OnOneLine lineEnds := by
  have write := Printable.onOneLine lineEnds "write(results, len)" (by decide +kernel)
  have number := Printable.onOneLine lineEnds "sys_write" (by decide +kernel)
  have stdout := Printable.onOneLine lineEnds "stdout" (by decide +kernel)
  have last := Printable.onOneLine lineEnds "sys_exit" (by decide +kernel)
  simp only [sysvWords, List.forall_mem_cons]
  exact ⟨write, number, stdout, trivial, trivial, trivial, last, trivial, trivial,
    List.forall_mem_nil _⟩

theorem rangeProgram_eq : rangeProgram =
    generateSysvPureIntUnaryHarness "sum_range" (synthesizePureIntUnaryI64Vectors .sumRange) := by
  rw [rangeProgram, sumRange_vectors]

theorem placed_range : Placed .feedOnly .sysVAmd64 rangeProgram rangeImage 2048 := by
  rw [rangeProgram_eq]
  constructor
  case comments =>
    have printable : ∀ vector ∈ synthesizePureIntUnaryI64Vectors .sumRange,
        Printable vector.name := by decide +kernel
    exact List.forall_mem_append.mpr
      ⟨calls_onOneLine _ _ _ fun vector member => (printable vector member).onOneLine _,
        sysvWords_onOneLine _ _⟩
  case accepted =>
    exact (by decide +kernel : ∀ instruction ∈ instructionsOf (generateSysvPureIntUnaryHarness
      "sum_range" (synthesizePureIntUnaryI64Vectors .sumRange)).code,
        Amd64.Instruction.Accepted instruction)
  case data =>
    intro index lines listed
    have inside := (List.getElem?_eq_some_iff.mp listed).1
    have small : index < 5 := inside
    obtain rfl | rfl | rfl | rfl | rfl : index = 0 ∨ index = 1 ∨ index = 2 ∨ index = 3 ∨ index = 4 := by
      omega
    all_goals cases listed; exact ⟨rfl, by decide +kernel, rfl⟩
  case notNull => decide
  case fits => decide
  case room =>
    refine ⟨256, 256 + 5 * 8, by decide, ⟨rfl, rfl⟩, ?_⟩
    intro index bound byte data room
    have small : index < 5 := bound
    have high := data.2
    have low := room.1
    simp only [rangeImage] at high
    omega
  case scratch =>
    intro byte scratch
    have high : 1024 ≤ byte.toNat := scratch
    refine ⟨fun index bound data => ?_, fun results => ?_, fun handle => ?_⟩
    · have small : index < 5 := bound
      have last := data.2
      simp only [rangeImage] at last
      omega
    · have last : (byte - 256#64).toNat < 40 := results
      bv_omega
    · have last : (byte - 512#64).toNat < 8 := handle
      bv_omega
  case frame =>
    intro byte within
    have last : (byte - (2048#64 - 8#64)).toNat < 8 := within
    show 1024 ≤ byte.toNat
    bv_omega

theorem setup_range : Setup .feedOnly "sum_range" .sysVAmd64 .pureIntUnary
    (synthesizeVectors sumRange) rangeProgram rangeImage rangeOutside (fun _ => 2048) :=
  ⟨rangeProgram_generated, placed_range, conventional_range, fun _ _ => trivial⟩

/-- Words are told apart by their bytes. -/
theorem bytesOf_inj (one two : Word) : bytesOf one = bytesOf two ↔ one = two := by
  constructor
  · intro same
    have read := word_store (fun _ => 0) 0 one
    rw [Memory.store, same] at read
    exact read.symm.trans (word_store (fun _ => 0) 0 two)
  · rintro rfl
    rfl

/-- The verdicts are as many as the vectors, and all of them make the whole. -/
theorem evaluate_whole (jsonText : Json → String) (stdout : List UInt8)
    (vectors : List TestVector) (shape : HarnessShape) :
    (evaluate jsonText stdout vectors shape).cases.length = vectors.length ∧
      (evaluate jsonText stdout vectors shape).allPassed =
        (evaluate jsonText stdout vectors shape).cases.all VectorResult.passed := by
  unfold evaluate
  cases shapeEcho shape with
  | none => exact ⟨by simp [evaluateWordsOnly], rfl⟩
  | some echo =>
    have counts := readCounts_eq stdout vectors.length 0 (by omega)
    rw [Nat.mul_zero] at counts
    exact ⟨by simp [evaluateCountAndBuffer, echoCases_length, counts], rfl⟩

/-- Where no echo is cut off, a vector passes when it is in place. -/
theorem passed_iff_inPlace (jsonText : Json → String) (shape : HarnessShape) (stdout : List UInt8)
    (vectors : List TestVector) (index : Nat) (vector : TestVector)
    (there : vectors[index]? = some vector)
    (fits : shapeEcho shape ≠ none →
      echoStart shape vectors index + (expectedEcho shape vector).length ≤ stdout.length) :
    ∃ result, (evaluate jsonText stdout vectors shape).cases[index]? = some result ∧
      (result.passed = true ↔ InPlace shape stdout vectors index vector) := by
  cases writes : shapeEcho shape with
  | none => exact evaluate_words jsonText writes stdout vectors index vector there
  | some echo =>
    obtain ⟨result, listed, passed⟩ := evaluate_writes jsonText writes stdout vectors index vector
      there
    have found := echoPlaces_of_fits there (fits (by simp [writes]))
    refine ⟨result, listed, passed.trans (and_congr_right fun _ => ?_)⟩
    rw [found]
    simp

/-- The calls and the vectors are as many. -/
theorem call_of_vector {Register : Type} {calls : List (Call Register)}
    (count : calls.length = vectors.length) {index : Nat} {vector : TestVector}
    (there : vectors[index]? = some vector) : ∃ call, calls[index]? = some call :=
  ⟨_, List.getElem?_eq_getElem (count ▸ (List.getElem?_eq_some_iff.mp there).1)⟩

namespace Setup

variable (setup : Setup lineEnds routineSymbol abi shape vectors program image outside registers)

include setup

/-- What a call leaves is as long as the echo that is expected. -/
theorem leftEcho_length {index : Nat} {vector : TestVector}
    (there : vectors[index]? = some vector) (memory : Memory) :
    ((shapeRegions shape index vector.inputs).flatMap (image.shown memory)).length =
      (expectedEcho shape vector).length := by
  obtain ⟨positive, ends⟩ := setup.bounds (List.getElem?_eq_some_iff.mp there).1
  exact regions_length (setup.sized _ (List.mem_of_getElem? there))
    (setup.held there image.memory fun _ _ => rfl) positive ends memory

/-- A vector is in place in the output of the run exactly when its call answered, and its echo is
not cut off.

Proof: the output is the results and, behind them, the guarded buffers as the calls left them.
All have the lengths of what is expected, so each stands where it is looked for. -/
theorem inPlace_iff_answered {index : Nat} {vector : TestVector} {call : Call abi.target.Register}
    (there : vectors[index]? = some vector)
    (made : (run program image outside registers).calls[index]? = some call) :
    (InPlace shape (run program image outside registers).output vectors index vector ↔
        Answered image shape index vector call) ∧
      (expectedEcho shape vector ≠ [] → echoStart shape vectors index +
        (expectedEcho shape vector).length ≤ (run program image outside registers).output.length) := by
  have finished := setup.finished
  revert finished made
  generalize run program image outside registers = final
  intro made finished
  obtain ⟨bound, rfl⟩ := List.getElem?_eq_some_iff.mp there
  obtain ⟨inside, rfl⟩ := List.getElem?_eq_some_iff.mp made
  have count := finished.count
  let words := final.calls.map (fun call => bytesOf call.returned)
  let echoes := vectors.zipIdx.map (fun entry =>
    (shapeRegions shape entry.2 entry.1.inputs).flatMap
      (image.shown (image.leftBy final.calls entry.2)))
  have output : final.output = words.flatten ++ echoes.flatten := by
    rw [finished.output, Image.leftRegions, List.flatMap_def, List.flatMap_def]
  have wordLengths : words.map List.length = (vectors.map expectedWord).map List.length := by
    simp [words, Function.comp_def, expectedWord, count]
  have wordsLength : words.flatten.length = 8 * vectors.length := by
    rw [List.length_flatten, wordLengths]
    have ends := start_words vectors vectors.length (Nat.le_refl _)
    rwa [start, Nat.zero_add, List.take_of_length_le (by simp)] at ends
  have echoLengths : echoes.map List.length =
      (vectors.map (expectedEcho shape)).map List.length := by
    refine List.ext_getElem (by simp [echoes]) fun other first second => ?_
    have listed : other < vectors.length := by simpa using second
    simp only [echoes, List.getElem_map, List.getElem_zipIdx, Nat.zero_add]
    exact setup.leftEcho_length (List.getElem?_eq_getElem listed) _
  have word := standsAt_of_lengths [] echoes.flatten words (vectors.map expectedWord) wordLengths
    index (by simpa [words] using inside) (by simpa using bound)
  have echo := standsAt_of_lengths words.flatten [] echoes (vectors.map (expectedEcho shape))
    echoLengths index (by simpa [echoes] using bound) (by simpa using bound)
  have own := fields_standAt words.flatten [] echoes index (by simpa [echoes] using bound)
  rw [List.append_nil, ← output, wordsLength] at echo own
  rw [List.nil_append, ← output, List.length_nil, start_words vectors index (by omega)] at word
  have left : (image.leftBy final.calls index) = final.calls[index].left := by
    rw [Image.leftBy, made]
    rfl
  simp only [words, echoes, List.getElem_map, List.getElem_zipIdx, Nat.zero_add, left] at word echo own
  refine ⟨and_congr (word.trans (bytesOf_inj _ _)) echo, fun some_ => ?_⟩
  have length := setup.leftEcho_length there final.calls[index].left
  have fits := own.fits (by rw [← List.length_pos_iff, length]; exact List.length_pos_iff.mpr some_)
  rw [length] at fits
  have places := echoLengths
  simp only [echoes] at places
  rw [places] at fits
  exact fits

/-- The report on the output of the run tells of every vector whether its call answered. -/
theorem tellsAnswers (jsonText : Json → String) :
    TellsAnswers image shape vectors (run program image outside registers).calls
      (evaluate jsonText (run program image outside registers).output vectors shape) := by
  have count := setup.finished.count
  have each (index : Nat) (call : Call abi.target.Register) (vector : TestVector)
      (made : (run program image outside registers).calls[index]? = some call)
      (there : vectors[index]? = some vector) :
      ∃ result, (evaluate jsonText (run program image outside registers).output vectors
          shape).cases[index]? = some result ∧
        (result.passed = true ↔ Answered image shape index vector call) := by
    obtain ⟨inPlace, fits⟩ := setup.inPlace_iff_answered there made
    obtain ⟨result, listed, passed⟩ := passed_iff_inPlace jsonText shape _ vectors index vector there
      fun writes => by
        obtain ⟨echo, found⟩ := Option.ne_none_iff_exists'.mp writes
        exact fits (by simpa [expectedEcho, found] using shapeEcho_nonempty found vector)
    exact ⟨result, listed, passed.trans inPlace⟩
  refine ⟨each, ?_⟩
  obtain ⟨length, whole⟩ := evaluate_whole jsonText (run program image outside registers).output
    vectors shape
  rw [whole, allPassed_iff _ vectors length (fun index vector =>
    ∀ call, (run program image outside registers).calls[index]? = some call →
      Answered image shape index vector call)]
  · exact ⟨fun all index call vector made there => all index vector there call made,
      fun all index vector there call made => all index call vector made there⟩
  · intro index vector there
    obtain ⟨call, made⟩ := call_of_vector count there
    obtain ⟨result, listed, passed⟩ := each index call vector made there
    refine ⟨result, listed, passed.trans ⟨fun answered other same => ?_, fun all => all call made⟩⟩
    rw [made] at same
    cases same
    exact answered

end Setup

/-- A run calls the routine once for every vector, in order; the verdict on a vector says whether
its call returned what the vector expects and left the guarded buffers as it expects, and the
verdict on the whole says whether all did.

Proof: the output is the results and the guarded buffers in the order of the calls, and no field
of it has another length than is expected, so every field is read where it was written. -/
theorem verdicts_are_answers (jsonText : Json → String)
    (setup : Setup lineEnds routineSymbol abi shape vectors program image outside registers) :
    (run program image outside registers).calls.length = vectors.length ∧
      TellsAnswers image shape vectors (run program image outside registers).calls
        (evaluate jsonText (run program image outside registers).output vectors shape) :=
  ⟨setup.finished.count, setup.tellsAnswers jsonText⟩

/-- The verdicts on a sum over a range tell its answers. -/
theorem verdicts_are_answers_range :
    (@run .sysVAmd64 rangeProgram rangeImage rangeOutside (fun _ => 2048)).calls.length =
        (synthesizeVectors sumRange).length ∧
      TellsAnswers rangeImage .pureIntUnary (synthesizeVectors sumRange)
        (@run .sysVAmd64 rangeProgram rangeImage rangeOutside (fun _ => 2048)).calls
        (evaluate (fun _ => "") (@run .sysVAmd64 rangeProgram rangeImage rangeOutside
          (fun _ => 2048)).output (synthesizeVectors sumRange) .pureIntUnary) :=
  verdicts_are_answers (fun _ => "") setup_range

end

/-! ## Recognized contracts -/

/-- The guarded buffers that a routine with an oracle leaves: the bytes of the oracle and, for a
copy, the source. -/
def referenceEcho (shape : RecognizedShape) (inputs : List Json) (bytes : List UInt8) :
    List UInt8 :=
  match shape with
  | .replaceByte _ | .memset _ => guardedRegion bytes
  | .memcpy _ => guardedRegion bytes ++ guardedRegion (vectorMemcmpBufferBytes inputs 1)
  | _ => []

/-- The call returned what the oracle computes from the inputs, and left its bytes between intact
guards. -/
def Computed {Register : Type} (image : Image) (shape : RecognizedShape) (index : Nat)
    (vector : TestVector) (call : Call Register) : Prop :=
  ∃ value bytes, shape.reference vector.inputs = some (value, bytes) ∧
    call.returned = (expectedBits value).toBitVec ∧
    leftEcho image shape.harness index vector call = referenceEcho shape vector.inputs bytes

/-- The source of a copy is read alike for the data and for the echo. -/
theorem sourceBytes_eq (inputs : List Json) :
    sourceBytes inputs = vectorMemcmpBufferBytes inputs 1 := by
  unfold sourceBytes vectorMemcmpBufferBytes
  cases inputs[1]? with
  | none => rfl
  | some item => cases item <;> rfl

/-- The expected echo is that of the expected bytes. -/
theorem expectedEcho_eq (shape : RecognizedShape) (vector : TestVector) :
    expectedEcho shape.harness vector =
      referenceEcho shape vector.inputs (expectedBytes shape vector.inputs) := by
  cases shape <;>
    simp [expectedEcho, shapeEcho, RecognizedShape.harness, referenceEcho, expectedBytes,
      expectedReplaceByteEcho, expectedMemsetEcho, expectedMemcpyEcho, sourceBytes_eq]

/-- For a vector that expects what the oracle computes, an answer is what the oracle computes. -/
theorem answered_iff_computed {Register : Type} (image : Image) (shape : RecognizedShape)
    (index : Nat) (vector : TestVector) (call : Call Register) (expects : Expects shape vector) :
    Answered image shape.harness index vector call ↔ Computed image shape index vector call := by
  have reference : shape.reference vector.inputs =
      some (vector.expected, expectedBytes shape vector.inputs) := expects
  rw [Answered, expectedEcho_eq]
  constructor
  · rintro ⟨word, echo⟩
    exact ⟨_, _, reference, word, echo⟩
  · rintro ⟨value, bytes, same, word, echo⟩
    rw [reference] at same
    cases same
    exact ⟨word, echo⟩

/-- The bytes of a buffer that was written as an array. -/
theorem vectorMemcmpBufferBytes_bytesJson (inputs : List Json) (position : Nat)
    (bytes : List UInt8) (there : inputs[position]? = some (bytesJson bytes)) :
    vectorMemcmpBufferBytes inputs position = bytes := by
  simp only [vectorMemcmpBufferBytes, there, bytesJson, List.map_map]
  refine (List.map_congr_left fun byte _ => ?_).trans (List.map_id bytes)
  have small := byte.toNat_lt
  have least : min byte.toNat 255 = byte.toNat := by omega
  simp [byteJson, least]

/-- A buffer beside its length is sized. -/
theorem sized_buffer (bytes : List UInt8) (length : UInt64) (rest : List Json)
    (whole : length.toNat = bytes.length) :
    (vectorLength (bytesJson bytes :: .ofU64 length :: rest)).toNat =
      (vectorBufferBytes (bytesJson bytes :: .ofU64 length :: rest)).length := by
  rw [vectorBufferBytes, vectorMemcmpBufferBytes_bytesJson _ 0 bytes rfl, ← whole]
  rfl

/-- Two buffers beside their length are sized. -/
theorem sized_pair (name : String) (target source : List UInt8) (length : UInt64) (expected : Json)
    (whole : length.toNat = target.length) (fits : target.length = source.length) :
    Sized .memcpy (pairVector name (bytesJson target) (bytesJson source) length expected).inputs := by
  refine ⟨?_, ?_⟩
  · rw [vectorMemcmpBufferBytes_bytesJson _ 0 target rfl, ← whole]
    rfl
  · rw [vectorMemcmpBufferBytes_bytesJson _ 1 source rfl, ← fits, ← whole]
    rfl

/-- The synthesized vectors have the lengths of their buffers. -/
theorem sized_synthesized (contract : CheckedContract) (shape : RecognizedShape)
    (recognized : recognizedShape contract = some shape) :
    ∀ vector ∈ synthesizeVectors contract, Sized shape.harness vector.inputs := by
  unfold synthesizeVectors
  rw [recognized]
  cases shape with
  | replaceByte shape =>
    have whole := fixtureLength_toNat shape.maxLength
    have bounds := fixtureLength_bounds shape.maxLength
    have other : ∀ vector ∈ if shape.needle ≠ shape.replacement then
          [replaceVector "needle equals replacement" (bytesJson [shape.needle, shape.needle, 7]) 3
            shape.needle shape.needle 2] else [],
        Sized .replaceByte vector.inputs := by
      split
      · exact List.forall_mem_singleton.mpr (sized_buffer _ _ _ rfl)
      · exact List.forall_mem_nil _
    simp only [synthesizeReplaceByteVectors, List.forall_mem_append, List.forall_mem_cons]
    exact ⟨⟨⟨rfl, sized_buffer _ _ _ rfl, sized_buffer _ _ _ rfl, sized_buffer _ _ _ rfl,
      List.forall_mem_nil _⟩, other⟩,
      sized_buffer _ _ _ (whole.trans (by split <;> simp; omega)), List.forall_mem_nil _⟩
  | memset shape =>
    have whole := fixtureLength_toNat shape.maxLength
    simp only [synthesizeMemsetVectors, List.forall_mem_cons]
    exact ⟨rfl, sized_buffer _ _ _ rfl, sized_buffer _ _ _ rfl, sized_buffer _ _ _ rfl,
      sized_buffer _ _ _ (by simp [whole]), List.forall_mem_nil _⟩
  | memcpy shape =>
    have whole := fixtureLength_toNat shape.maxLength
    simp only [synthesizeMemcpyVectors, List.forall_mem_cons]
    exact ⟨⟨rfl, rfl⟩, sized_pair _ _ _ _ _ rfl rfl, sized_pair _ _ _ _ _ rfl rfl,
      sized_pair _ _ _ _ _ (by simp [whole]) (by simp), List.forall_mem_nil _⟩
  | _ => exact fun _ _ => trivial

/-- The harness shape of a recognized contract is that of its recognized shape. -/
theorem resolveHarnessShape_recognized (contract : CheckedContract) (shape : RecognizedShape)
    (recognized : recognizedShape contract = some shape) :
    resolveHarnessShape contract (synthesizeVectors contract) = .ok shape.harness := by
  simp only [resolveHarnessShape, recognizeBehaviorOracle_eq, recognized, Option.map_some,
    oracleExpectedShape_oracle, detectHarnessShape_synthesized contract shape recognized]
  exact if_pos (compatible_layout shape)

/-- The synthesized vectors of a contract that fits the templates expect what the oracle
computes. -/
theorem expects_synthesized (contract : CheckedContract) (shape : RecognizedShape)
    (recognized : recognizedShape contract = some shape) (fits : FitsTemplates contract) :
    ∀ vector ∈ synthesizeVectors contract, Expects shape vector := by
  unfold FitsTemplates at fits
  unfold synthesizeVectors
  rw [recognized] at fits ⊢
  cases shape with
  | scan shape =>
    dsimp only
    cases op : shape.op with
    | count => exact (expects_count_iff shape op).mpr fits
    | findFirst => exact (expects_findFirst_iff shape op).mpr fits
    | findLast => exact (expects_findLast_iff shape op).mpr fits
  | replaceByte shape => exact (expects_replaceByte_iff shape).mpr fits
  | memset shape => exact expects_memset_all shape
  | memcpy shape => exact expects_memcpy_all shape
  | memcmp shape => exact expects_memcmp_all shape
  | i64Sum shape => exact expects_sum_all shape
  | pureInt op => exact expects_pureInt_all op
  | pureIntI64 op => exact expects_pureIntI64_all op
  | pureIntUnaryI64 op => exact expects_pureIntUnaryI64_all op
  | cellLoad => exact expects_cellLoad_all
  | cellStore => exact expects_cellStore_all

/-- For a recognized contract whose constants fit the templates, the report on a run of its
harness is all passed exactly when the routine computed what the oracle computes, on every vector.

Proof: the verdicts say whether the calls answered, and the vectors expect what the oracle
computes. -/
theorem all_passed_iff_computed (jsonText : Json → String) {lineEnds : LineEnds}
    (routineSymbol : String) (contract : CheckedContract) (shape : RecognizedShape)
    (recognized : recognizedShape contract = some shape) (fits : FitsTemplates contract)
    (harness : HarnessShape)
    (resolved : resolveHarnessShape contract (synthesizeVectors contract) = .ok harness)
    (abi : Abi) (program : Program abi.target.Instruction)
    (generated : generateHarness routineSymbol (synthesizeVectors contract) abi harness = .ok program)
    (image : Image) (outside : Outside abi.target.Register)
    (registers : abi.target.Register → Word)
    (placed : Placed lineEnds abi program image (registers abi.target.stack))
    (conventional : Conventional image abi.target.stack outside) :
    (evaluate jsonText (run program image outside registers).output (synthesizeVectors contract)
        harness).allPassed = true ↔
      EveryCall (Computed image shape) (synthesizeVectors contract)
        (run program image outside registers).calls := by
  obtain rfl : shape.harness = harness := by
    rw [resolveHarnessShape_recognized contract shape recognized] at resolved
    exact Except.ok.inj resolved
  have setup : Setup lineEnds routineSymbol abi shape.harness (synthesizeVectors contract) program
      image outside registers :=
    ⟨generated, placed, conventional, sized_synthesized contract shape recognized⟩
  have expects := expects_synthesized contract shape recognized fits
  rw [(setup.tellsAnswers jsonText).2]
  refine forall_congr' fun index => forall_congr' fun call => forall_congr' fun vector =>
    forall_congr' fun _ => forall_congr' fun there => ?_
  exact answered_iff_computed image shape index vector call
    (expects vector (List.mem_of_getElem? there))

/-- The report on a sum over a range is all passed exactly when the routine computes it. -/
theorem all_passed_iff_computed_range :
    (evaluate (fun _ => "") (@run .sysVAmd64 rangeProgram rangeImage rangeOutside
        (fun _ => 2048)).output (synthesizeVectors sumRange) .pureIntUnary).allPassed = true ↔
      EveryCall (Computed rangeImage (.pureIntUnaryI64 .sumRange)) (synthesizeVectors sumRange)
        (@run .sysVAmd64 rangeProgram rangeImage rangeOutside (fun _ => 2048)).calls :=
  all_passed_iff_computed (fun _ => "") "sum_range" sumRange (.pureIntUnaryI64 .sumRange)
    sumRange_recognized (by rw [FitsTemplates, sumRange_recognized]; trivial) .pureIntUnary
    (resolveHarnessShape_recognized sumRange _ sumRange_recognized) .sysVAmd64 rangeProgram
    rangeProgram_generated rangeImage rangeOutside (fun _ => 2048) placed_range conventional_range

end Semasm.Agent.Harness.Programs
