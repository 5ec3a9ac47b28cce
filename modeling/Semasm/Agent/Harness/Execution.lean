import Semasm.Agent.Harness.Effects

/-!
# Every generated harness runs to its end

The generators of a shape pass the same arguments on every target, in the registers of the
calling convention, and write the same regions out. A harness of any target and shape that is
placed in memory as its sections say calls a conventional routine once for every vector and
writes out the results and the regions.
-/

namespace Semasm.Agent.Harness.Programs

open Library Library.ByteMemory Library.Sections Machine

/-- The arguments of a shape in the order of the parameters. -/
def shapeArguments (shape : HarnessShape) (i : Nat) (inputs : List Json) : List Argument :=
  match shape with
  | .bufferScan => [.address (.vec i .buf), .word (.vec i .len), .byte (.vec i .needle)]
  | .replaceByte => [pointer inputs 0 (.vec i .buf), .word (.vec i .len), .byte (.vec i .needle),
      .byte (.vec i .replacement)]
  | .memset => [pointer inputs 0 (.vec i .buf), .word (.vec i .len), .byte (.vec i .needle)]
  | .memCmp | .memcpy => [pointer inputs 0 (.vec i .a), pointer inputs 1 (.vec i .b),
      .word (.vec i .len)]
  | .i64Sum => [.address (.vec i .buf), .word (.vec i .len)]
  | .pureInt => [.word (.vec i .a), .word (.vec i .b)]
  | .pureIntUnary => [.word (.vec i .a)]
  | .cellLoad => [.address (.vec i .buf)]
  | .cellStore => [.address (.vec i .buf), .byte (.vec i .value)]

/-- The regions of a vector that are written out behind the results. -/
def shapeRegions (shape : HarnessShape) (i : Nat) (inputs : List Json) : List (Label × Nat) :=
  match shape with
  | .replaceByte | .memset => [(.vec i .guardPre, guardedLength (vectorLength inputs))]
  | .memcpy => [(.vec i .aGuardPre, guardedLength (vectorMemcmpLength inputs)),
      (.vec i .bGuardPre, guardedLength (vectorMemcmpLength inputs))]
  | _ => []

/-- All that is written out. -/
def allRegions (shape : HarnessShape) (vectors : List TestVector) : List (Label × Nat) :=
  (.results, vectors.length * 8) :: regionsOf (shapeRegions shape) vectors

/-- The arguments in the registers of a convention. -/
def harnessArguments (abi : Abi) (shape : HarnessShape) (i : Nat) (inputs : List Json) :
    List (abi.target.Register × Argument) :=
  abi.target.parameters.zip (shapeArguments shape i inputs)

/-- A harness is placed in memory: no comment runs into the next line, the assembler takes every
instruction, the data of every vector and the room lie as their sections say, and the scratch
memory is elsewhere but for the bytes below the stack pointer. -/
structure Placed (lineEnds : LineEnds) (abi : Abi) (program : Program abi.target.Instruction)
    (image : Image) (pointer : Word) : Prop where
  comments : ∀ line ∈ program.code, line.OnOneLine lineEnds
  accepted : ∀ instruction ∈ instructionsOf program.code, abi.target.Accepted instruction
  data : ∀ index lines, program.data[index]? = some lines →
    LaidOut image.address image.memory (image.place index) (lines.flatMap DataLine.pieces)
      (image.place (index + 1))
  notNull : 0 < image.place 0
  fits : image.place program.data.length ≤ 2 ^ 64
  room : ∃ start stop, stop ≤ 2 ^ 64 ∧
    LaidOut image.address image.memory start (program.bss.flatMap DataLine.pieces) stop ∧
    ∀ index < program.data.length, ∀ byte, image.Data index byte → ¬ Between start stop byte
  scratch : ∀ byte, image.scratch byte →
    (∀ index < program.data.length, ¬ image.Data index byte) ∧
    ¬ image.Results program.data.length byte ∧ ¬ Within (image.address .stdoutHandle) 8 byte
  frame : ∀ byte, Within (pointer - 8#64) 8 byte → image.scratch byte

/-- The run of a harness from registers. -/
def run {abi : Abi} (program : Program abi.target.Instruction) (image : Image)
    (outside : Outside abi.target.Register) (registers : abi.target.Register → Word) :
    State abi.target.Register :=
  runInstructions (abi.target.exec outside image.address) (instructionsOf program.code)
    ⟨registers, image.memory, [], []⟩

/-! ## One program for each target -/

/-- The data of a shape for NASM. -/
def nasmData (shape : HarnessShape) (vectors : List TestVector) : List (List DataLine) :=
  match shape with
  | .bufferScan => emitVectorData vectors
  | .replaceByte => emitReplaceByteVectorData vectors
  | .memset => emitMemsetVectorData vectors
  | .memCmp => emitMemcmpVectorData vectors
  | .memcpy => emitMemcpyVectorData vectors
  | .i64Sum => emitI64SumVectorData vectors
  | .pureInt => dataPureInt vectors
  | .pureIntUnary => dataPureIntUnary vectors
  | .cellLoad => emitCellLoadVectorData vectors
  | .cellStore => emitCellStoreVectorData vectors

/-- The data of a shape for the GNU assembler. -/
def gasData (shape : HarnessShape) (vectors : List TestVector) : List (List DataLine) :=
  match shape with
  | .bufferScan => emitGasVectorData vectors
  | .replaceByte => emitReplaceByteVectorData vectors
  | .memset => emitMemsetVectorData vectors
  | .memCmp => emitGasMemcmpVectorData vectors
  | .memcpy => emitGasMemcpyVectorData vectors
  | .i64Sum => emitGasI64SumVectorData vectors
  | .pureInt => dataGasPureInt vectors
  | .pureIntUnary => dataGasPureIntUnary vectors
  | .cellLoad | .cellStore => []

/-- The data of a shape. -/
def shapeData (abi : Abi) (shape : HarnessShape) (vectors : List TestVector) :
    List (List DataLine) :=
  if abi.gas then gasData shape vectors else nasmData shape vectors

/-- The instructions of a harness are the calls and what writes the regions out. -/
structure Generated (abi : Abi) (shape : HarnessShape) (vectors : List TestVector)
    (program : Program abi.target.Instruction) (before : List abi.target.Instruction)
    (call : Nat → List Json → List abi.target.Instruction)
    (after : List abi.target.Instruction) : Prop where
  data : program.data = shapeData abi shape vectors
  room : ∃ gaps others, program.bss.flatMap DataLine.pieces =
    gaps ++ .name .results :: .room (vectors.length * 8) :: others
  code : instructionsOf program.code = before ++ instructionsOf (calls vectors call) ++ after

/-- The regions of the shapes that only return words. -/
theorem regionsOf_nil {regions : Nat → List Json → List (Label × Nat)} (vectors : List TestVector)
    (silent : ∀ index inputs, regions index inputs = []) : regionsOf regions vectors = [] :=
  List.flatMap_eq_nil_iff.mpr fun _ _ => silent _ _

/-- Every output writes the regions. -/
theorem sysv_generated (routineSymbol : String) (vectors : List TestVector) (shape : HarnessShape)
    (program : Program Amd64.Instruction)
    (generated : generateHarness routineSymbol vectors .sysVAmd64 shape = .ok program) :
    Generated .sysVAmd64 shape vectors program []
      (fun i inputs => sysvCall (harnessArguments .sysVAmd64 shape i inputs) i)
      ((allRegions shape vectors).flatMap (fun region => sysvWrite region.1 region.2) ++ sysvExit) := by
  have words (silent : ∀ index inputs, shapeRegions shape index inputs = []) :
      (allRegions shape vectors).flatMap (fun region => sysvWrite region.1 region.2) ++ sysvExit =
        sysvWrite .results (vectors.length * 8) ++ sysvExit := by
    rw [allRegions, regionsOf_nil vectors silent, List.flatMap_singleton]
  have streams (buffers : Nat → List Json → List (CodeLine Amd64.Instruction))
      (each : ∀ index inputs, instructionsOf (buffers index inputs) =
        (shapeRegions shape index inputs).flatMap (fun region => sysvWrite region.1 region.2)) :
      instructionsOf (sysvStreams vectors buffers) =
        (allRegions shape vectors).flatMap (fun region => sysvWrite region.1 region.2) ++
          sysvExit := by
    rw [sysvStreams, instructionsOf_append, List.cons_append, instructionsOf_comment,
      instructionsOf_append, instructionsOf_eachCode each, instructionsOf_codeLines,
      instructionsOf_codeLines, allRegions, List.flatMap_cons]
  have code (data : List (List DataLine))
      (arguments : Nat → List Json → List (Amd64.Register × Argument))
      (output : List (CodeLine Amd64.Instruction)) (after : List Amd64.Instruction)
      (written : instructionsOf output = after) :
      instructionsOf (sysvHarness routineSymbol vectors data arguments output).code =
        [] ++ instructionsOf (calls vectors fun i inputs => sysvCall (arguments i inputs) i) ++
          after := by
    rw [sysvHarness, instructionsOf_append, written, List.nil_append]
  cases shape <;> cases generated <;> refine ⟨rfl, ⟨[], _, rfl⟩, ?_⟩
  case bufferScan => exact code _ _ _ _ (words fun _ _ => rfl).symm
  case memCmp => exact code _ _ _ _ (words fun _ _ => rfl).symm
  case i64Sum => exact code _ _ _ _ (words fun _ _ => rfl).symm
  case pureInt => exact code _ _ _ _ (words fun _ _ => rfl).symm
  case pureIntUnary => exact code _ _ _ _ (words fun _ _ => rfl).symm
  case cellLoad => exact code _ _ _ _ (words fun _ _ => rfl).symm
  case cellStore => exact code _ _ _ _ (words fun _ _ => rfl).symm
  case replaceByte => exact code _ _ _ _ (streams _ fun _ _ => by
    simp [sysvBuffer, shapeRegions])
  case memset => exact code _ _ _ _ (streams _ fun _ _ => by simp [sysvBuffer, shapeRegions])
  case memcpy => exact code _ _ _ _ (streams _ fun _ _ => by simp [sysvBuffer, shapeRegions])

/-- What follows the calls of a Microsoft x64 harness. -/
def win64After (shape : HarnessShape) (vectors : List TestVector) : List Amd64.Instruction :=
  match shape with
  | .replaceByte | .memset | .memcpy =>
    win64KeepHandle ++
      ((allRegions shape vectors).flatMap (fun region => win64Write region.1 region.2) ++ win64Exit)
  | _ => instructionsOf (win64Words vectors)

/-- Every output writes the regions. -/
theorem win64_generated (routineSymbol : String) (vectors : List TestVector) (shape : HarnessShape)
    (program : Program Amd64.Instruction)
    (generated : generateHarness routineSymbol vectors .windowsX64 shape = .ok program) :
    Generated .windowsX64 shape vectors program []
      (fun i inputs => win64Call (harnessArguments .windowsX64 shape i inputs) i)
      (win64After shape vectors) := by
  have streams (buffers : Nat → List Json → List (CodeLine Amd64.Instruction))
      (each : ∀ index inputs, instructionsOf (buffers index inputs) =
        (shapeRegions shape index inputs).flatMap (fun region => win64Write region.1 region.2)) :
      instructionsOf (win64Streams vectors buffers) = win64KeepHandle ++
        ((allRegions shape vectors).flatMap (fun region => win64Write region.1 region.2) ++
          win64Exit) := by
    rw [win64Streams, instructionsOf_append, instructionsOf_append, instructionsOf_append,
      instructionsOf_eachCode each, instructionsOf_codeLines, instructionsOf_codeLines,
      instructionsOf_codeLines, allRegions, List.flatMap_cons, List.append_assoc, List.append_assoc,
      List.append_assoc]
  have code (data : List (List DataLine)) (handle : List DataLine)
      (arguments : Nat → List Json → List (Amd64.Register × Argument))
      (output : List (CodeLine Amd64.Instruction)) (after : List Amd64.Instruction)
      (written : instructionsOf output = after) :
      instructionsOf (win64Harness routineSymbol vectors data handle arguments output).code =
        [] ++ instructionsOf (calls vectors fun i inputs => win64Call (arguments i inputs) i) ++
          after := by
    rw [win64Harness, instructionsOf_append, written, List.nil_append]
  cases shape <;> cases generated <;> refine ⟨rfl, ⟨[], _, rfl⟩, ?_⟩
  case bufferScan => exact code _ _ _ _ _ rfl
  case memCmp => exact code _ _ _ _ _ rfl
  case i64Sum => exact code _ _ _ _ _ rfl
  case pureInt => exact code _ _ _ _ _ rfl
  case pureIntUnary => exact code _ _ _ _ _ rfl
  case cellLoad => exact code _ _ _ _ _ rfl
  case cellStore => exact code _ _ _ _ _ rfl
  case replaceByte => exact code _ _ _ _ _ (streams _ fun _ _ => by simp [win64Buffer, shapeRegions])
  case memset => exact code _ _ _ _ _ (streams _ fun _ _ => by simp [win64Buffer, shapeRegions])
  case memcpy => exact code _ _ _ _ _ (streams _ fun _ _ => by simp [win64Buffer, shapeRegions])

/-- The register through which an AArch64 harness stores a result. -/
def aapcs64Through : HarnessShape → Arm64.Register
  | .replaceByte => .x4
  | .bufferScan | .memCmp | .memset | .memcpy => .x3
  | _ => .x2

/-- Every output writes the regions. -/
theorem aapcs64_generated (routineSymbol : String) (vectors : List TestVector)
    (shape : HarnessShape) (program : Program Arm64.Instruction)
    (generated : generateHarness routineSymbol vectors .aapcs64 shape = .ok program) :
    Generated .aapcs64 shape vectors program []
      (fun i inputs =>
        aapcs64Call (aapcs64Through shape) (harnessArguments .aapcs64 shape i inputs) i)
      ((allRegions shape vectors).flatMap (fun region => aapcs64Write region.1 region.2) ++
        aapcs64Exit) := by
  have words (silent : ∀ index inputs, shapeRegions shape index inputs = []) :
      instructionsOf (aapcs64Words vectors) =
        (allRegions shape vectors).flatMap (fun region => aapcs64Write region.1 region.2) ++
          aapcs64Exit := by
    rw [allRegions, regionsOf_nil vectors silent, List.flatMap_singleton]
    rfl
  have streams (buffers : Nat → List Json → List (CodeLine Arm64.Instruction))
      (each : ∀ index inputs, instructionsOf (buffers index inputs) =
        (shapeRegions shape index inputs).flatMap (fun region => aapcs64Write region.1 region.2)) :
      instructionsOf (aapcs64Streams vectors buffers) =
        (allRegions shape vectors).flatMap (fun region => aapcs64Write region.1 region.2) ++
          aapcs64Exit := by
    rw [aapcs64Streams, instructionsOf_append, instructionsOf_append, instructionsOf_eachCode each,
      instructionsOf_codeLines, instructionsOf_codeLines, allRegions, List.flatMap_cons]
  have code (data : List (List DataLine)) (through : Arm64.Register)
      (arguments : Nat → List Json → List (Arm64.Register × Argument))
      (output : List (CodeLine Arm64.Instruction)) (after : List Arm64.Instruction)
      (written : instructionsOf output = after) :
      instructionsOf (aapcs64Harness vectors data through arguments output).code =
        [] ++ instructionsOf (calls vectors fun i inputs =>
          aapcs64Call through (arguments i inputs) i) ++ after := by
    rw [aapcs64Harness, instructionsOf_append, written, List.nil_append]
  cases shape <;> cases generated <;> refine ⟨rfl, ⟨[.gap], _, rfl⟩, ?_⟩
  case bufferScan => exact code _ _ _ _ _ (words fun _ _ => rfl)
  case memCmp => exact code _ _ _ _ _ (words fun _ _ => rfl)
  case i64Sum => exact code _ _ _ _ _ (words fun _ _ => rfl)
  case pureInt => exact code _ _ _ _ _ (words fun _ _ => rfl)
  case pureIntUnary => exact code _ _ _ _ _ (words fun _ _ => rfl)
  case replaceByte => exact code _ _ _ _ _ (streams _ fun _ _ => by simp [shapeRegions])
  case memset => exact code _ _ _ _ _ (streams _ fun _ _ => by simp [shapeRegions])
  case memcpy => exact code _ _ _ _ _ (streams _ fun _ _ => by simp [shapeRegions])

/-- The base through which a RISC-V harness reads an argument. -/
def riscvBase : HarnessShape → Rv64.Register → Rv64.Register
  | .pureInt, register | .pureIntUnary, register => register
  | _, _ => .t0

/-- The arguments of a shape with their bases. -/
def riscvArguments (shape : HarnessShape) (i : Nat) (inputs : List Json) :
    List (Rv64.Register × Rv64.Register × Argument) :=
  Rv64.withBases (riscvBase shape) (harnessArguments .riscv shape i inputs)

/-- Every output writes the regions. -/
theorem riscv_generated (routineSymbol : String) (vectors : List TestVector) (shape : HarnessShape)
    (program : Program Rv64.Instruction)
    (generated : generateHarness routineSymbol vectors .riscv shape = .ok program) :
    Generated .riscv shape vectors program [.la .sp .stackTop]
      (fun i inputs => riscvCall (riscvArguments shape i inputs) i)
      ((allRegions shape vectors).flatMap (fun region => riscvWrite region.1 region.2) ++
        riscvExit) := by
  have words (silent : ∀ index inputs, shapeRegions shape index inputs = []) :
      instructionsOf (riscvWords vectors) =
        (allRegions shape vectors).flatMap (fun region => riscvWrite region.1 region.2) ++
          riscvExit := by
    rw [allRegions, regionsOf_nil vectors silent, List.flatMap_singleton]
    rfl
  have streams (buffers : Nat → List Json → List (CodeLine Rv64.Instruction))
      (each : ∀ index inputs, instructionsOf (buffers index inputs) =
        (shapeRegions shape index inputs).flatMap (fun region => riscvWrite region.1 region.2)) :
      instructionsOf (riscvStreams vectors buffers) =
        (allRegions shape vectors).flatMap (fun region => riscvWrite region.1 region.2) ++
          riscvExit := by
    rw [riscvStreams, instructionsOf_append, instructionsOf_append, instructionsOf_eachCode each,
      instructionsOf_codeLines, instructionsOf_codeLines, allRegions, List.flatMap_cons]
  have code (data : List (List DataLine))
      (arguments : Nat → List Json → List (Rv64.Register × Rv64.Register × Argument))
      (output : List (CodeLine Rv64.Instruction)) (after : List Rv64.Instruction)
      (written : instructionsOf output = after) :
      instructionsOf (riscvHarness vectors data arguments output).code =
        [.la .sp .stackTop] ++ instructionsOf (calls vectors fun i inputs =>
          riscvCall (arguments i inputs) i) ++ after := by
    rw [riscvHarness, List.cons_append, instructionsOf_code, instructionsOf_append, written,
      List.singleton_append, List.cons_append]
  cases shape <;> cases generated <;> refine ⟨rfl, ⟨[.gap], _, rfl⟩, ?_⟩
  case bufferScan => exact code _ _ _ _ (words fun _ _ => rfl)
  case memCmp => exact code _ _ _ _ (words fun _ _ => rfl)
  case i64Sum => exact code _ _ _ _ (words fun _ _ => rfl)
  case pureInt => exact code _ _ _ _ (words fun _ _ => rfl)
  case pureIntUnary => exact code _ _ _ _ (words fun _ _ => rfl)
  case replaceByte => exact code _ _ _ _ (streams _ fun _ _ => by simp [shapeRegions])
  case memset => exact code _ _ _ _ (streams _ fun _ _ => by simp [shapeRegions])
  case memcpy => exact code _ _ _ _ (streams _ fun _ _ => by simp [shapeRegions])

/-! ## The run of each target -/

section

variable {lineEnds : LineEnds} {abi : Abi} {program : Program abi.target.Instruction} {image : Image}
  {pointer : Word}

/-- The data lines of all vectors. -/
theorem shapeData_length (routineSymbol : String) (vectors : List TestVector) (abi : Abi)
    (shape : HarnessShape) (program : Program abi.target.Instruction)
    (generated : generateHarness routineSymbol vectors abi shape = .ok program) :
    (shapeData abi shape vectors).length = vectors.length := by
  cases abi <;> cases shape <;> cases generated <;>
    simp [shapeData, Abi.gas, nasmData, gasData, emitVectorData, emitReplaceByteVectorData,
      emitMemsetVectorData, emitMemcmpVectorData, emitMemcpyVectorData, emitI64SumVectorData,
      dataPureInt, dataPureIntUnary, emitCellLoadVectorData, emitCellStoreVectorData,
      emitGasVectorData, emitGasMemcmpVectorData, emitGasMemcpyVectorData, emitGasI64SumVectorData,
      dataGasPureInt, dataGasPureIntUnary, eachVector]

/-- The results lie in the room. -/
theorem Placed.results_placed {count : Nat} {gaps others : List (Piece Label UInt8)}
    (placed : Placed lineEnds abi program image pointer)
    (room : program.bss.flatMap DataLine.pieces =
      gaps ++ .name .results :: .room (count * 8) :: others) :
    ∃ start stop place, stop ≤ 2 ^ 64 ∧ start ≤ place ∧ place + count * 8 ≤ stop ∧
      image.address .results = BitVec.ofNat 64 place ∧
      LaidOut image.address image.memory (place + count * 8) others stop ∧
      ∀ index < program.data.length, ∀ byte, image.Data index byte → ¬ Between start stop byte := by
  obtain ⟨start, stop, bounded, laid, apart⟩ := placed.room
  rw [room] at laid
  obtain ⟨place, behind, found, rest⟩ := laid.named
  exact ⟨start, stop, place, bounded, behind, LaidOut.le rest, found, rest, apart⟩

/-- The data, the results and the scratch memory of a placed harness are apart. -/
theorem Placed.apart (placed : Placed lineEnds abi program image pointer)
    (room : ∃ gaps others, program.bss.flatMap DataLine.pieces =
      gaps ++ .name .results :: .room (program.data.length * 8) :: others) :
    image.Apart program.data.length := by
  obtain ⟨gaps, others, room⟩ := room
  obtain ⟨start, stop, place, bounded, behind, inside, found, _, apart⟩ := placed.results_placed room
  have results : ∀ byte, image.Results program.data.length byte → Between start stop byte := by
    intro byte member
    rw [Image.Results, found, within_iff_between _ _ _ (by omega)] at member
    exact ⟨by have := member.1; omega, by have := member.2; omega⟩
  constructor
  · intro index bound
    exact (placed.data index _ (List.getElem?_eq_getElem bound)).le
  · exact placed.fits
  · rw [found, BitVec.toNat_ofNat]
    have := Nat.mod_le place (2 ^ 64)
    omega
  · exact fun index bound byte data member => apart index bound byte data (results byte member)
  · exact fun index bound byte data free => (placed.scratch byte free).1 index bound data
  · exact fun byte member free => (placed.scratch byte free).2.1 member

/-- The first components of a zip come from the first list, in order. -/
theorem zip_fst_sublist {First Second : Type} (first : List First) (second : List Second) :
    ((first.zip second).map Prod.fst).Sublist first := by
  induction first generalizing second with
  | nil => simp
  | cons one first inductionHypothesis =>
    cases second with
    | nil => simp
    | cons other second => exact (inductionHypothesis second).cons_cons one

/-- The arguments are in different registers that are parameters. -/
theorem harnessArguments_distinct (abi : Abi) (shape : HarnessShape) (i : Nat)
    (inputs : List Json) : ((harnessArguments abi shape i inputs).map Prod.fst).Nodup := by
  have distinct : abi.target.parameters.Nodup := by
    cases abi <;> simp [Abi.target]
  exact distinct.sublist (zip_fst_sublist _ _)

/-- No argument is in the stack pointer. -/
theorem harnessArguments_bound (abi : Abi) (shape : HarnessShape) (i : Nat) (inputs : List Json) :
    ∀ passed ∈ harnessArguments abi shape i inputs, passed.1 ≠ abi.target.stack := by
  intro passed member
  have parameter := (List.of_mem_zip (a := passed.1) (b := passed.2) member).1
  have absent : abi.target.stack ∉ abi.target.parameters := by
    cases abi with
    | sysVAmd64 => exact (by decide : Amd64.Register.rsp ∉ [.rdi, .rsi, .rdx, .rcx])
    | windowsX64 => exact (by decide : Amd64.Register.rsp ∉ [.rcx, .rdx, .r8, .r9])
    | aapcs64 => exact (by decide : Arm64.Register.sp ∉ [.x0, .x1, .x2, .x3])
    | riscv => exact (by decide : Rv64.Register.sp ∉ [.a0, .a1, .a2, .a3])
  exact fun same => absent (same ▸ parameter)

/-- The data of the vectors and the results. -/
def Written (image : Image) (count : Nat) (byte : Word) : Prop :=
  (∃ index < count, image.Data index byte) ∨ image.Results count byte

/-- What is written out is no scratch memory. -/
theorem written_spared {count : Nat} (apart : image.Apart count) (byte : Word)
    (member : Written image count byte) : ¬ image.scratch byte := by
  rcases member with ⟨index, bound, data⟩ | results
  · exact apart.scratch_data index bound byte data
  · exact apart.scratch_results byte results

/-- The regions of every vector lie in its data. -/
def RegionsInData (image : Image) (shape : HarnessShape) (vectors : List TestVector) : Prop :=
  ∀ entry ∈ vectors.zipIdx, ∀ region ∈ shapeRegions shape entry.2 entry.1.inputs,
    image.RegionIn (image.Data entry.2) region

/-- All regions lie in what is written out. -/
theorem allRegions_written {shape : HarnessShape} {vectors : List TestVector}
    (apart : image.Apart vectors.length) (inside : RegionsInData image shape vectors) :
    ∀ region ∈ allRegions shape vectors,
      image.RegionIn (Written image vectors.length) region := by
  intro region member
  rcases List.mem_cons.mp member with rfl | member
  · refine ⟨?_, fun byte within => Or.inr within⟩
    have := apart.resultsFit
    show vectors.length * 8 ≤ 2 ^ 64
    omega
  · obtain ⟨entry, listed, found⟩ := List.mem_flatMap.mp member
    obtain ⟨small, data⟩ := inside entry listed region found
    refine ⟨small, fun byte within => Or.inl ⟨entry.2, ?_, data byte within⟩⟩
    simpa using List.snd_lt_of_mem_zipIdx listed

/-- A harness runs to its end when its pieces do what they should. -/
theorem Generated.finished {shape : HarnessShape} {vectors : List TestVector}
    {before : List abi.target.Instruction}
    {call : Nat → List Json → List abi.target.Instruction} {after : List abi.target.Instruction}
    {outside : Outside abi.target.Register}
    (generated : Generated abi shape vectors program before call after)
    (apart : image.Apart vectors.length) (inside : RegionsInData image shape vectors)
    (registers ready : abi.target.Register → Word)
    (prepared : runInstructions (abi.target.exec outside image.address) before
      ⟨registers, image.memory, [], []⟩ = ⟨ready, image.memory, [], []⟩)
    (calling : ∀ index inputs state, ∃ made,
      Called image abi.target.stack (harnessArguments abi shape index inputs) index state
        (runInstructions (abi.target.exec outside image.address) (call index inputs) state) made)
    (writing : ∀ state, state.registers abi.target.stack = ready abi.target.stack →
      Wrote image (Written image vectors.length) (allRegions shape vectors) state
        (runInstructions (abi.target.exec outside image.address) after state)) :
    Finished image (harnessArguments abi shape) (shapeRegions shape) vectors
      (run program image outside registers) := by
  have start : Progress image abi.target.stack (argumentsOf (harnessArguments abi shape) vectors)
      vectors.length (ready abi.target.stack) ⟨ready, image.memory, [], []⟩ :=
    ⟨Nat.zero_le _, rfl, rfl, fun _ _ _ _ _ => rfl, by simp, by simp, by simp⟩
  obtain ⟨progress, all⟩ := Progress.calls vectors apart
    (fun index vector state _ _ => calling index vector.inputs state) _ rfl start
  rw [run, generated.code, runInstructions_append, runInstructions_append, prepared]
  exact progress.finished all inside (writing _ progress.kept)

/-- An instruction behind the calls is accepted. -/
theorem Generated.accepts {shape : HarnessShape} {vectors : List TestVector}
    {before : List abi.target.Instruction}
    {call : Nat → List Json → List abi.target.Instruction} {after : List abi.target.Instruction}
    (generated : Generated abi shape vectors program before call after)
    (placed : Placed lineEnds abi program image pointer) (instruction : abi.target.Instruction)
    (member : instruction ∈ after) : abi.target.Accepted instruction := by
  refine placed.accepted instruction ?_
  rw [generated.code]
  exact List.mem_append_right _ member

/-- The data, the results and the scratch memory of a placed harness are apart. -/
theorem Generated.apart {shape : HarnessShape} {vectors : List TestVector}
    {before : List abi.target.Instruction}
    {call : Nat → List Json → List abi.target.Instruction} {after : List abi.target.Instruction}
    (generated : Generated abi shape vectors program before call after)
    (placed : Placed lineEnds abi program image pointer)
    (length : program.data.length = vectors.length) : image.Apart vectors.length := by
  rw [← length]
  refine placed.apart ?_
  rw [length]
  exact generated.room

/-- A System V harness runs to its end. -/
theorem sysv_finished {shape : HarnessShape} {vectors : List TestVector} (routineSymbol : String)
    (program : Program Amd64.Instruction)
    (generated : generateHarness routineSymbol vectors .sysVAmd64 shape = .ok program)
    (outside : Outside Amd64.Register) (registers : Amd64.Register → Word)
    (placed : Placed lineEnds .sysVAmd64 program image (registers .rsp))
    (conventional : Conventional image Amd64.Register.rsp outside)
    (inside : RegionsInData image shape vectors) :
    Finished image (harnessArguments .sysVAmd64 shape) (shapeRegions shape) vectors
      (@run .sysVAmd64 program image outside registers) := by
  have made := sysv_generated routineSymbol vectors shape program generated
  have apart := made.apart placed
    (by rw [made.data]; exact shapeData_length routineSymbol vectors _ shape program generated)
  have fits := Amd64.sysvWrite_fits (allRegions shape vectors) fun instruction member =>
    made.accepts placed instruction (List.mem_append_left _ member)
  exact made.finished apart inside registers registers rfl
    (fun index inputs state => Amd64.sysvCall_called conventional _
      (harnessArguments_distinct .sysVAmd64 shape index inputs)
      (harnessArguments_bound .sysVAmd64 shape index inputs) index state)
    fun state _ => Amd64.sysvAfter_wrote conventional (written_spared apart) _
      (allRegions_written apart inside) fits state

/-- The handle of the standard output has room of its own behind the results. -/
theorem Placed.handle_apart {count : Nat} (placed : Placed lineEnds abi program image pointer)
    (length : program.data.length = count)
    (room : program.bss.flatMap DataLine.pieces = [.name .results, .room (count * 8),
      .name .written, .room 8, .name .stdoutHandle, .room 8]) (byte : Word)
    (member : Written image count byte) : ¬ Within (image.address .stdoutHandle) 8 byte := by
  obtain ⟨start, stop, place, bounded, behind, inside, found, rest, apart⟩ :=
    placed.results_placed (room.trans (List.nil_append _).symm)
  obtain ⟨-, handle, last⟩ := rest
  have ends : stop = place + count * 8 + 8 + 8 := last
  rw [handle, within_iff_between _ _ _ (by omega)]
  intro kept
  rcases member with ⟨index, bound, data⟩ | results
  · refine apart index (length ▸ bound) byte data ⟨?_, by rw [ends]; exact kept.2⟩
    have := kept.1
    omega
  · rw [Image.Results, found, within_iff_between _ _ _ (by omega)] at results
    have := results.2
    have := kept.1
    omega

/-- A Microsoft x64 harness runs to its end. -/
theorem win64_finished {shape : HarnessShape} {vectors : List TestVector} (routineSymbol : String)
    (program : Program Amd64.Instruction)
    (generated : generateHarness routineSymbol vectors .windowsX64 shape = .ok program)
    (outside : Outside Amd64.Register) (registers : Amd64.Register → Word)
    (placed : Placed lineEnds .windowsX64 program image (registers .rsp))
    (conventional : Conventional image Amd64.Register.rsp outside)
    (inside : RegionsInData image shape vectors) :
    Finished image (harnessArguments .windowsX64 shape) (shapeRegions shape) vectors
      (@run .windowsX64 program image outside registers) := by
  have made := win64_generated routineSymbol vectors shape program generated
  have length : program.data.length = vectors.length := by
    rw [made.data]
    exact shapeData_length routineSymbol vectors _ shape program generated
  have apart := made.apart placed length
  have written := allRegions_written apart inside
  have spared := written_spared apart
  have streams (after : win64After shape vectors = win64KeepHandle ++
        ((allRegions shape vectors).flatMap (fun region => win64Write region.1 region.2) ++
          win64Exit))
      (room : program.bss.flatMap DataLine.pieces = [.name .results, .room (vectors.length * 8),
        .name .written, .room 8, .name .stdoutHandle, .room 8]) (state : State Amd64.Register)
      (kept : state.registers .rsp = registers .rsp) :
      Wrote image (Written image vectors.length) (allRegions shape vectors) state
        (runInstructions (Amd64.Instruction.exec outside image.address) (win64After shape vectors)
          state) := by
    have fits := Amd64.win64Write_fits (allRegions shape vectors) fun instruction member =>
      made.accepts placed instruction (after ▸
        List.mem_append_right _ (List.mem_append_left _ member))
    rw [after]
    exact Amd64.win64Streams_wrote conventional spared (placed.handle_apart length room)
      (fun byte within free => (placed.scratch byte free).2.2 within) _ written fits state
      (kept ▸ placed.frame)
  have words (after : win64After shape vectors = instructionsOf (win64Words vectors))
      (silent : ∀ index inputs, shapeRegions shape index inputs = []) (state : State Amd64.Register)
      (kept : state.registers .rsp = registers .rsp) :
      Wrote image (Written image vectors.length) (allRegions shape vectors) state
        (runInstructions (Amd64.Instruction.exec outside image.address) (win64After shape vectors)
          state) := by
    have member : Amd64.Instruction.movImm .r8 ((vectors.length * 8 : Nat) : Int) ∈
        win64After shape vectors := by
      rw [after]
      simp [win64Words]
    have size : Amd64.Instruction.Accepted _ := made.accepts placed _ member
    have below : ((vectors.length * 8 : Nat) : Int) < 2 ^ 32 := size.2
    rw [allRegions, regionsOf_nil vectors silent, after]
    exact Amd64.win64Words_wrote conventional spared vectors
      (written _ (List.mem_cons_self)) (by omega) state (kept ▸ placed.frame)
  refine made.finished apart inside registers registers rfl
    (fun index inputs state => Amd64.win64Call_called conventional _
      (harnessArguments_distinct .windowsX64 shape index inputs)
      (harnessArguments_bound .windowsX64 shape index inputs) index state) ?_
  cases shape
  case replaceByte => cases generated; exact streams rfl rfl
  case memset => cases generated; exact streams rfl rfl
  case memcpy => cases generated; exact streams rfl rfl
  all_goals exact words rfl fun _ _ => rfl

/-- An AArch64 harness runs to its end. -/
theorem aapcs64_finished {shape : HarnessShape} {vectors : List TestVector} (routineSymbol : String)
    (program : Program Arm64.Instruction)
    (generated : generateHarness routineSymbol vectors .aapcs64 shape = .ok program)
    (outside : Outside Arm64.Register) (registers : Arm64.Register → Word)
    (placed : Placed lineEnds .aapcs64 program image (registers .sp))
    (conventional : Conventional image Arm64.Register.sp outside)
    (inside : RegionsInData image shape vectors) :
    Finished image (harnessArguments .aapcs64 shape) (shapeRegions shape) vectors
      (@run .aapcs64 program image outside registers) := by
  have made := aapcs64_generated routineSymbol vectors shape program generated
  have apart := made.apart placed
    (by rw [made.data]; exact shapeData_length routineSymbol vectors _ shape program generated)
  have fits := Arm64.aapcs64Write_fits (allRegions shape vectors) fun instruction member =>
    made.accepts placed instruction (List.mem_append_left _ member)
  exact made.finished apart inside registers registers rfl
    (fun index inputs state => Arm64.aapcs64Call_called conventional _
      (by cases shape <;> decide) _ (harnessArguments_distinct .aapcs64 shape index inputs)
      (harnessArguments_bound .aapcs64 shape index inputs) index state)
    fun state _ => Arm64.aapcs64After_wrote conventional (written_spared apart) _
      (allRegions_written apart inside) fits state

/-- A RISC-V harness runs to its end. -/
theorem riscv_finished {shape : HarnessShape} {vectors : List TestVector} (routineSymbol : String)
    (program : Program Rv64.Instruction)
    (generated : generateHarness routineSymbol vectors .riscv shape = .ok program)
    (outside : Outside Rv64.Register) (registers : Rv64.Register → Word)
    (placed : Placed lineEnds .riscv program image pointer)
    (conventional : Conventional image Rv64.Register.sp outside)
    (inside : RegionsInData image shape vectors) :
    Finished image (harnessArguments .riscv shape) (shapeRegions shape) vectors
      (@run .riscv program image outside registers) := by
  have made := riscv_generated routineSymbol vectors shape program generated
  have apart := made.apart placed
    (by rw [made.data]; exact shapeData_length routineSymbol vectors _ shape program generated)
  have fits := Rv64.riscvWrite_fits (allRegions shape vectors) fun instruction member =>
    made.accepts placed instruction (List.mem_append_left _ member)
  have parameter (index : Nat) (inputs : List Json) :
      ∀ passed ∈ harnessArguments .riscv shape index inputs, passed.1 ≠ Rv64.Register.t0 := by
    intro passed member free
    have listed : Rv64.Register.t0 ∈ [Rv64.Register.a0, .a1, .a2, .a3] :=
      free ▸ (List.of_mem_zip (show (passed.1, passed.2) ∈ _ from member)).1
    exact absurd listed (by decide)
  have through (register : Rv64.Register) :
      riscvBase shape register = register ∨ riscvBase shape register = .t0 := by
    cases shape <;> simp [riscvBase]
  exact made.finished apart inside registers
    (Function.update registers Rv64.Register.sp (image.address .stackTop) : Rv64.Register → Word) rfl
    (fun index inputs state => Rv64.riscvCall_withBases conventional _ through _
      (harnessArguments_distinct .riscv shape index inputs)
      (harnessArguments_bound .riscv shape index inputs) (parameter index inputs) index state)
    fun state _ => Rv64.riscvAfter_wrote conventional (written_spared apart) _
      (allRegions_written apart inside) fits state

/-- Every generated harness runs to its end, whatever the target and the shape. -/
theorem harness_finishes {shape : HarnessShape} {vectors : List TestVector} (routineSymbol : String)
    (abi : Abi) (program : Program abi.target.Instruction)
    (generated : generateHarness routineSymbol vectors abi shape = .ok program)
    (outside : Outside abi.target.Register) (registers : abi.target.Register → Word)
    (placed : Placed lineEnds abi program image (registers abi.target.stack))
    (conventional : Conventional image abi.target.stack outside)
    (inside : RegionsInData image shape vectors) :
    Finished image (harnessArguments abi shape) (shapeRegions shape) vectors
      (run program image outside registers) := by
  cases abi with
  | sysVAmd64 =>
    exact sysv_finished routineSymbol program generated outside registers placed conventional inside
  | windowsX64 =>
    exact win64_finished routineSymbol program generated outside registers placed conventional inside
  | aapcs64 =>
    exact aapcs64_finished routineSymbol program generated outside registers placed conventional
      inside
  | riscv =>
    exact riscv_finished routineSymbol program generated outside registers placed conventional inside

end

end Semasm.Agent.Harness.Programs
