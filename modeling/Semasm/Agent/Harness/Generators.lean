import Semasm.Agent.Harness.VectorData

/-!
# The harness generators

One generator for each target and shape. A harness calls the routine once for each vector,
keeps the results in a buffer, writes the buffer out and, where the shape writes memory, the
guarded buffers behind it. The targets differ in how arguments are loaded and output is
written, the shapes in the arguments.
-/

namespace Semasm.Agent.Harness.Programs

/-- The address of a buffer, or null where the input is null. -/
def pointer (inputs : List Json) (position : Nat) (label : Label) : Argument :=
  if inputIsNull inputs position then .null else .address label

/-- The bytes of a guarded buffer, as a `usize`. -/
def guardedLength (length : UInt64) : Nat := (length + 2).toNat

section

variable {Instruction : Type}

/-- Lines of code for every vector. -/
def eachCode (vectors : List TestVector) (lines : Nat → List Json → List (CodeLine Instruction)) :
    List (CodeLine Instruction) :=
  vectors.zipIdx.flatMap (fun entry => lines entry.2 entry.1.inputs)

/-- The call of a vector under a comment with its number and its name. -/
def callLines (call : Nat → List Json → List Instruction) (entry : TestVector × Nat) :
    List (CodeLine Instruction) :=
  .comment ("vector " ++ toString entry.2 ++ ": " ++ entry.1.name) ::
    codeLines (call entry.2 entry.1.inputs)

/-- The calls of all vectors. -/
def calls (vectors : List TestVector) (call : Nat → List Json → List Instruction) :
    List (CodeLine Instruction) :=
  vectors.zipIdx.flatMap (callLines call)

end

/-! ## System V AMD64 -/

/-- `write` to the standard output. -/
def sysvWrite (label : Label) (size : Nat) : List Amd64.Instruction :=
  [.movImm .rax 1, .movImm .rdi 1, .lea .rsi label, .movImm .rdx size, .syscall]

/-- `exit(0)`. -/
def sysvExit : List Amd64.Instruction := [.movImm .rax 60, .xor .rdi, .syscall]

/-- The call of a vector. -/
def sysvCall (arguments : List (Amd64.Register × Argument)) (index : Nat) :
    List Amd64.Instruction :=
  arguments.flatMap (fun passed => Amd64.load passed.1 passed.2) ++
    [.call, .movResult index]

/-- A System V harness around its data, its arguments and its output. -/
def sysvHarness (routineSymbol : String) (vectors : List TestVector) (data : List (List DataLine))
    (arguments : Nat → List Json → List (Amd64.Register × Argument))
    (output : List (CodeLine Amd64.Instruction)) : Program Amd64.Instruction where
  header := ["BITS 64", "DEFAULT REL", ""]
  data := data
  bss := [.reserve .results (vectors.length * 8)]
  entry := ["extern " ++ routineSymbol, "global _start", "_start:"]
  code := calls vectors (fun i inputs => sysvCall (arguments i inputs) i) ++ output

/-- The output of a shape with results only. -/
def sysvWords (vectors : List TestVector) : List (CodeLine Amd64.Instruction) :=
  [.comment "write(results, len)", .noted (.movImm .rax 1) "sys_write",
    .noted (.movImm .rdi 1) "stdout", .code (.lea .rsi .results),
    .code (.movImm .rdx ((vectors.length * 8 : Nat) : Int)), .code .syscall,
    .noted (.movImm .rax 60) "sys_exit", .code (.xor .rdi), .code .syscall]

/-- The output of a cell shape. -/
def sysvCells (vectors : List TestVector) : List (CodeLine Amd64.Instruction) :=
  codeLines (sysvWrite .results (vectors.length * 8)) ++ codeLines sysvExit

/-- The output of a shape that writes memory. -/
def sysvStreams (vectors : List TestVector)
    (buffers : Nat → List Json → List (CodeLine Amd64.Instruction)) :
    List (CodeLine Amd64.Instruction) :=
  .comment "write(results, N*8)" :: codeLines (sysvWrite .results (vectors.length * 8)) ++
    eachCode vectors buffers ++ codeLines sysvExit

/-- A guarded buffer under a comment. -/
def sysvBuffer (what : String) (i : Nat) (part : Part) (size : Nat) :
    List (CodeLine Amd64.Instruction) :=
  .comment ("write guarded " ++ what ++ " buffer " ++ toString i ++ " (" ++ toString size ++
    " bytes)") :: codeLines (sysvWrite (.vec i part) size)

/-- `generate_sysv_cell_load_harness`. -/
def generateSysvCellLoadHarness (routineSymbol : String) (vectors : List TestVector) :
    Program Amd64.Instruction :=
  sysvHarness routineSymbol vectors (emitCellLoadVectorData vectors)
    (fun i _ => [(.rdi, .address (.vec i .buf))])
    (sysvCells vectors)

/-- `generate_sysv_cell_store_harness`. -/
def generateSysvCellStoreHarness (routineSymbol : String) (vectors : List TestVector) :
    Program Amd64.Instruction :=
  sysvHarness routineSymbol vectors (emitCellStoreVectorData vectors)
    (fun i _ => [(.rdi, .address (.vec i .buf)), (.rsi, .byte (.vec i .value))])
    (sysvCells vectors)

/-- `generate_sysv_replace_byte_harness`. -/
def generateSysvReplaceByteHarness (routineSymbol : String) (vectors : List TestVector) :
    Program Amd64.Instruction :=
  sysvHarness routineSymbol vectors (emitReplaceByteVectorData vectors)
    (fun i inputs => [(.rdi, pointer inputs 0 (.vec i .buf)), (.rsi, .word (.vec i .len)),
      (.rdx, .byte (.vec i .needle)), (.rcx, .byte (.vec i .replacement))])
    (sysvStreams vectors (fun i inputs =>
      sysvBuffer "mutated" i .guardPre (guardedLength (vectorLength inputs))))

/-- `generate_sysv_memset_harness`. -/
def generateSysvMemsetHarness (routineSymbol : String) (vectors : List TestVector) :
    Program Amd64.Instruction :=
  sysvHarness routineSymbol vectors (emitMemsetVectorData vectors)
    (fun i inputs => [(.rdi, pointer inputs 0 (.vec i .buf)), (.rsi, .word (.vec i .len)),
      (.rdx, .byte (.vec i .needle))])
    (sysvStreams vectors (fun i inputs =>
      sysvBuffer "filled" i .guardPre (guardedLength (vectorLength inputs))))

/-- `generate_sysv_buffer_harness`. -/
def generateSysvBufferHarness (routineSymbol : String) (vectors : List TestVector) :
    Program Amd64.Instruction :=
  sysvHarness routineSymbol vectors (emitVectorData vectors)
    (fun i _ => [(.rdi, .address (.vec i .buf)), (.rsi, .word (.vec i .len)),
      (.rdx, .byte (.vec i .needle))])
    (sysvWords vectors)

/-- `generate_sysv_memcmp_harness`. -/
def generateSysvMemcmpHarness (routineSymbol : String) (vectors : List TestVector) :
    Program Amd64.Instruction :=
  sysvHarness routineSymbol vectors (emitMemcmpVectorData vectors)
    (fun i inputs => [(.rdi, pointer inputs 0 (.vec i .a)), (.rsi, pointer inputs 1 (.vec i .b)),
      (.rdx, .word (.vec i .len))])
    (sysvWords vectors)

/-- `generate_sysv_pure_int_harness`. -/
def generateSysvPureIntHarness (routineSymbol : String) (vectors : List TestVector) :
    Program Amd64.Instruction :=
  sysvHarness routineSymbol vectors (dataPureInt vectors)
    (fun i _ => [(.rdi, .word (.vec i .a)), (.rsi, .word (.vec i .b))])
    (sysvWords vectors)

/-- `generate_sysv_pure_int_unary_harness`. -/
def generateSysvPureIntUnaryHarness (routineSymbol : String) (vectors : List TestVector) :
    Program Amd64.Instruction :=
  sysvHarness routineSymbol vectors (dataPureIntUnary vectors)
    (fun i _ => [(.rdi, .word (.vec i .a))])
    (sysvWords vectors)

/-- `generate_sysv_i64_sum_harness`. -/
def generateSysvI64SumHarness (routineSymbol : String) (vectors : List TestVector) :
    Program Amd64.Instruction :=
  sysvHarness routineSymbol vectors (emitI64SumVectorData vectors)
    (fun i _ => [(.rdi, .address (.vec i .buf)), (.rsi, .word (.vec i .len))])
    (sysvWords vectors)

/-- `generate_sysv_memcpy_harness`. -/
def generateSysvMemcpyHarness (routineSymbol : String) (vectors : List TestVector) :
    Program Amd64.Instruction :=
  sysvHarness routineSymbol vectors (emitMemcpyVectorData vectors)
    (fun i inputs => [(.rdi, pointer inputs 0 (.vec i .a)), (.rsi, pointer inputs 1 (.vec i .b)),
      (.rdx, .word (.vec i .len))])
    (sysvStreams vectors (fun i inputs =>
      sysvBuffer "dst" i .aGuardPre (guardedLength (vectorMemcmpLength inputs)) ++
        sysvBuffer "src" i .bGuardPre (guardedLength (vectorMemcmpLength inputs))))

/-! ## Microsoft x64 -/

/-- `WriteFile` to the handle that is kept. -/
def win64Write (label : Label) (size : Nat) : List Amd64.Instruction :=
  [.sub 40, .mov .rcx .stdoutHandle, .lea .rdx label, .movImm .r8 size, .lea .r9 .written,
    .movStack 32 0, .callImport .writeFile, .add 40]

/-- `GetStdHandle`, and the handle kept. -/
def win64KeepHandle : List Amd64.Instruction :=
  [.sub 40, .movImm .rcx (-11), .callImport .getStdHandle, .movTo .stdoutHandle .rax, .add 40]

/-- `ExitProcess(0)`. -/
def win64Exit : List Amd64.Instruction := [.sub 40, .xor .rcx, .callImport .exitProcess]

/-- The call of a vector. -/
def win64Call (arguments : List (Amd64.Register × Argument)) (index : Nat) :
    List Amd64.Instruction :=
  .sub 40 :: arguments.flatMap (fun passed => Amd64.load passed.1 passed.2) ++
    [.call, .add 40, .movResult index]

/-- A Microsoft x64 harness around its data, its room, its arguments and its output. -/
def win64Harness (routineSymbol : String) (vectors : List TestVector) (data : List (List DataLine))
    (handle : List DataLine) (arguments : Nat → List Json → List (Amd64.Register × Argument))
    (output : List (CodeLine Amd64.Instruction)) : Program Amd64.Instruction where
  header := ["BITS 64", "DEFAULT REL", "", "EXTERN GetStdHandle", "EXTERN WriteFile",
    "EXTERN ExitProcess", ""]
  data := data
  bss := [.reserve .results (vectors.length * 8), .reserveQuad .written] ++ handle
  entry := ["extern " ++ routineSymbol, "global main", "main:"]
  code := calls vectors (fun i inputs => win64Call (arguments i inputs) i) ++ output

/-- The output of a shape with results only. -/
def win64Words (vectors : List TestVector) : List (CodeLine Amd64.Instruction) :=
  [.comment "WriteFile(stdout, results, len, &written, NULL)", .code (.sub 40),
    .noted (.movImm .rcx (-11)) "STD_OUTPUT_HANDLE", .code (.callImport .getStdHandle),
    .code (.movReg .rcx .rax), .code (.lea .rdx .results),
    .code (.movImm .r8 ((vectors.length * 8 : Nat) : Int)), .code (.lea .r9 .written),
    .code (.movStack 32 0), .code (.callImport .writeFile), .code (.add 40)] ++ codeLines win64Exit

/-- The output of a cell shape. -/
def win64Cells (vectors : List TestVector) : List (CodeLine Amd64.Instruction) :=
  codeLines [.sub 40, .movImm .rcx (-11), .callImport .getStdHandle, .movReg .rcx .rax,
    .lea .rdx .results, .movImm .r8 ((vectors.length * 8 : Nat) : Int), .lea .r9 .written,
    .movStack 32 0, .callImport .writeFile, .add 40] ++ codeLines win64Exit

/-- The output of a shape that writes memory. -/
def win64Streams (vectors : List TestVector)
    (buffers : Nat → List Json → List (CodeLine Amd64.Instruction)) :
    List (CodeLine Amd64.Instruction) :=
  codeLines win64KeepHandle ++ codeLines (win64Write .results (vectors.length * 8)) ++
    eachCode vectors buffers ++ codeLines win64Exit

/-- A guarded buffer under a comment. -/
def win64Buffer (what : String) (i : Nat) (part : Part) (size : Nat) :
    List (CodeLine Amd64.Instruction) :=
  .comment ("write guarded " ++ what ++ " buffer " ++ toString i) ::
    codeLines (win64Write (.vec i part) size)

/-- `generate_win64_cell_load_harness`. -/
def generateWin64CellLoadHarness (routineSymbol : String) (vectors : List TestVector) :
    Program Amd64.Instruction :=
  win64Harness routineSymbol vectors (emitCellLoadVectorData vectors) []
    (fun i _ => [(.rcx, .address (.vec i .buf))])
    (win64Cells vectors)

/-- `generate_win64_cell_store_harness`. -/
def generateWin64CellStoreHarness (routineSymbol : String) (vectors : List TestVector) :
    Program Amd64.Instruction :=
  win64Harness routineSymbol vectors (emitCellStoreVectorData vectors) []
    (fun i _ => [(.rcx, .address (.vec i .buf)), (.rdx, .byte (.vec i .value))])
    (win64Cells vectors)

/-- `generate_win64_replace_byte_harness`. -/
def generateWin64ReplaceByteHarness (routineSymbol : String) (vectors : List TestVector) :
    Program Amd64.Instruction :=
  win64Harness routineSymbol vectors (emitReplaceByteVectorData vectors)
    [.reserveQuad .stdoutHandle]
    (fun i inputs => [(.rcx, pointer inputs 0 (.vec i .buf)), (.rdx, .word (.vec i .len)),
      (.r8, .byte (.vec i .needle)), (.r9, .byte (.vec i .replacement))])
    (win64Streams vectors (fun i inputs =>
      win64Buffer "mutated" i .guardPre (guardedLength (vectorLength inputs))))

/-- `generate_win64_memset_harness`. -/
def generateWin64MemsetHarness (routineSymbol : String) (vectors : List TestVector) :
    Program Amd64.Instruction :=
  win64Harness routineSymbol vectors (emitMemsetVectorData vectors) [.reserveQuad .stdoutHandle]
    (fun i inputs => [(.rcx, pointer inputs 0 (.vec i .buf)), (.rdx, .word (.vec i .len)),
      (.r8, .byte (.vec i .needle))])
    (win64Streams vectors (fun i inputs =>
      win64Buffer "filled" i .guardPre (guardedLength (vectorLength inputs))))

/-- `generate_win64_buffer_harness`. -/
def generateWin64BufferHarness (routineSymbol : String) (vectors : List TestVector) :
    Program Amd64.Instruction :=
  win64Harness routineSymbol vectors (emitVectorData vectors) []
    (fun i _ => [(.rcx, .address (.vec i .buf)), (.rdx, .word (.vec i .len)),
      (.r8, .byte (.vec i .needle))])
    (win64Words vectors)

/-- `generate_win64_memcmp_harness`. -/
def generateWin64MemcmpHarness (routineSymbol : String) (vectors : List TestVector) :
    Program Amd64.Instruction :=
  win64Harness routineSymbol vectors (emitMemcmpVectorData vectors) []
    (fun i inputs => [(.rcx, pointer inputs 0 (.vec i .a)), (.rdx, pointer inputs 1 (.vec i .b)),
      (.r8, .word (.vec i .len))])
    (win64Words vectors)

/-- `generate_win64_memcpy_harness`. -/
def generateWin64MemcpyHarness (routineSymbol : String) (vectors : List TestVector) :
    Program Amd64.Instruction :=
  win64Harness routineSymbol vectors (emitMemcpyVectorData vectors) [.reserveQuad .stdoutHandle]
    (fun i inputs => [(.rcx, pointer inputs 0 (.vec i .a)), (.rdx, pointer inputs 1 (.vec i .b)),
      (.r8, .word (.vec i .len))])
    (win64Streams vectors (fun i inputs =>
      win64Buffer "dst" i .aGuardPre (guardedLength (vectorMemcmpLength inputs)) ++
        win64Buffer "src" i .bGuardPre (guardedLength (vectorMemcmpLength inputs))))

/-- `generate_win64_pure_int_harness`. -/
def generateWin64PureIntHarness (routineSymbol : String) (vectors : List TestVector) :
    Program Amd64.Instruction :=
  win64Harness routineSymbol vectors (dataPureInt vectors) []
    (fun i _ => [(.rcx, .word (.vec i .a)), (.rdx, .word (.vec i .b))])
    (win64Words vectors)

/-- `generate_win64_pure_int_unary_harness`. -/
def generateWin64PureIntUnaryHarness (routineSymbol : String) (vectors : List TestVector) :
    Program Amd64.Instruction :=
  win64Harness routineSymbol vectors (dataPureIntUnary vectors) []
    (fun i _ => [(.rcx, .word (.vec i .a))])
    (win64Words vectors)

/-- `generate_win64_i64_sum_harness`. -/
def generateWin64I64SumHarness (routineSymbol : String) (vectors : List TestVector) :
    Program Amd64.Instruction :=
  win64Harness routineSymbol vectors (emitI64SumVectorData vectors) []
    (fun i _ => [(.rcx, .address (.vec i .buf)), (.rdx, .word (.vec i .len))])
    (win64Words vectors)

/-! ## AAPCS64 -/

/-- `write` to the standard output. -/
def aapcs64Write (label : Label) (size : Nat) : List Arm64.Instruction :=
  [.movImm .x0 1, .ldrAddress .x1 label, .movImm .x2 size, .movImm .x8 64, .svc]

/-- `exit(0)`. -/
def aapcs64Exit : List Arm64.Instruction := [.movImm .x0 0, .movImm .x8 93, .svc]

/-- The call of a vector, whose result is stored through a register. -/
def aapcs64Call (through : Arm64.Register) (arguments : List (Arm64.Register × Argument))
    (index : Nat) : List Arm64.Instruction :=
  arguments.flatMap (fun passed => Arm64.load passed.1 passed.2) ++
    [.bl, .ldrAddress through .results, .str .x0 through (index * 8)]

/-- An AArch64 harness around its data, its arguments and its output. -/
def aapcs64Harness (vectors : List TestVector) (data : List (List DataLine))
    (through : Arm64.Register) (arguments : Nat → List Json → List (Arm64.Register × Argument))
    (output : List (CodeLine Arm64.Instruction)) : Program Arm64.Instruction where
  header := []
  data := data
  bss := [.align 3, .name .results, .space (vectors.length * 8)]
  entry := [".global _start", "_start:"]
  code := calls vectors (fun i inputs => aapcs64Call through (arguments i inputs) i) ++ output

/-- The output of a shape with results only. -/
def aapcs64Words (vectors : List TestVector) : List (CodeLine Arm64.Instruction) :=
  .comment "write(1, results, len)" :: codeLines (aapcs64Write .results (vectors.length * 8)) ++
    .comment "exit(0)" :: codeLines aapcs64Exit

/-- The output of a shape that writes memory. -/
def aapcs64Streams (vectors : List TestVector)
    (buffers : Nat → List Json → List (CodeLine Arm64.Instruction)) :
    List (CodeLine Arm64.Instruction) :=
  codeLines (aapcs64Write .results (vectors.length * 8)) ++ eachCode vectors buffers ++
    codeLines aapcs64Exit

/-- `generate_aapcs64_replace_byte_harness`. -/
def generateAapcs64ReplaceByteHarness (vectors : List TestVector) : Program Arm64.Instruction :=
  aapcs64Harness vectors (emitReplaceByteVectorData vectors) .x4
    (fun i inputs => [(.x0, pointer inputs 0 (.vec i .buf)), (.x1, .word (.vec i .len)),
      (.x2, .byte (.vec i .needle)), (.x3, .byte (.vec i .replacement))])
    (aapcs64Streams vectors (fun i inputs =>
      .comment ("write guarded buffer " ++ toString i ++ " (" ++
        toString (guardedLength (vectorLength inputs)) ++ " bytes)") ::
          codeLines (aapcs64Write (.vec i .guardPre) (guardedLength (vectorLength inputs)))))

/-- `generate_aapcs64_memset_harness`. -/
def generateAapcs64MemsetHarness (vectors : List TestVector) : Program Arm64.Instruction :=
  aapcs64Harness vectors (emitMemsetVectorData vectors) .x3
    (fun i inputs => [(.x0, pointer inputs 0 (.vec i .buf)), (.x1, .word (.vec i .len)),
      (.x2, .byte (.vec i .needle))])
    (aapcs64Streams vectors (fun i inputs =>
      codeLines (aapcs64Write (.vec i .guardPre) (guardedLength (vectorLength inputs)))))

/-- `generate_aapcs64_memcpy_harness`. -/
def generateAapcs64MemcpyHarness (vectors : List TestVector) : Program Arm64.Instruction :=
  aapcs64Harness vectors (emitGasMemcpyVectorData vectors) .x3
    (fun i inputs => [(.x0, pointer inputs 0 (.vec i .a)), (.x1, pointer inputs 1 (.vec i .b)),
      (.x2, .word (.vec i .len))])
    (aapcs64Streams vectors (fun i inputs =>
      codeLines (aapcs64Write (.vec i .aGuardPre) (guardedLength (vectorMemcmpLength inputs))) ++
        codeLines (aapcs64Write (.vec i .bGuardPre) (guardedLength (vectorMemcmpLength inputs)))))

/-- `generate_aapcs64_memcmp_harness`. -/
def generateAapcs64MemcmpHarness (vectors : List TestVector) : Program Arm64.Instruction :=
  aapcs64Harness vectors (emitGasMemcmpVectorData vectors) .x3
    (fun i inputs => [(.x0, pointer inputs 0 (.vec i .a)), (.x1, pointer inputs 1 (.vec i .b)),
      (.x2, .word (.vec i .len))])
    (aapcs64Words vectors)

/-- `generate_aapcs64_buffer_harness`. -/
def generateAapcs64BufferHarness (vectors : List TestVector) : Program Arm64.Instruction :=
  aapcs64Harness vectors (emitGasVectorData vectors) .x3
    (fun i _ => [(.x0, .address (.vec i .buf)), (.x1, .word (.vec i .len)),
      (.x2, .byte (.vec i .needle))])
    (aapcs64Words vectors)

/-- `generate_aapcs64_pure_int_harness`. -/
def generateAapcs64PureIntHarness (vectors : List TestVector) : Program Arm64.Instruction :=
  aapcs64Harness vectors (dataGasPureInt vectors) .x2
    (fun i _ => [(.x0, .word (.vec i .a)), (.x1, .word (.vec i .b))])
    (aapcs64Words vectors)

/-- `generate_aapcs64_pure_int_unary_harness`. -/
def generateAapcs64PureIntUnaryHarness (vectors : List TestVector) : Program Arm64.Instruction :=
  aapcs64Harness vectors (dataGasPureIntUnary vectors) .x2
    (fun i _ => [(.x0, .word (.vec i .a))])
    (aapcs64Words vectors)

/-- `generate_aapcs64_i64_sum_harness`. -/
def generateAapcs64I64SumHarness (vectors : List TestVector) : Program Arm64.Instruction :=
  aapcs64Harness vectors (emitGasI64SumVectorData vectors) .x2
    (fun i _ => [(.x0, .address (.vec i .buf)), (.x1, .word (.vec i .len))])
    (aapcs64Words vectors)

/-! ## RISC-V -/

/-- `write` to the standard output. -/
def riscvWrite (label : Label) (size : Nat) : List Rv64.Instruction :=
  [.li .a0 1, .la .a1 label, .li .a2 size, .li .a7 64, .ecall]

/-- `exit(0)`. -/
def riscvExit : List Rv64.Instruction := [.li .a0 0, .li .a7 93, .ecall]

/-- The call of a vector, whose arguments are read through bases. -/
def riscvCall (arguments : List (Rv64.Register × Rv64.Register × Argument)) (index : Nat) :
    List Rv64.Instruction :=
  arguments.flatMap (fun passed => Rv64.load passed.1 passed.2.1 passed.2.2) ++
    [.jal, .la .t0 .results, .sd .a0 .t0 (index * 8)]

/-- A RISC-V harness around its data, its arguments and its output. -/
def riscvHarness (vectors : List TestVector) (data : List (List DataLine))
    (arguments : Nat → List Json → List (Rv64.Register × Rv64.Register × Argument))
    (output : List (CodeLine Rv64.Instruction)) : Program Rv64.Instruction where
  header := [".option norelax"]
  data := data
  bss := [.align 4, .name .results, .space (vectors.length * 8), .align 4, .space 16384,
    .name .stackTop]
  entry := [".global _start", "_start:"]
  code := .code (.la .sp .stackTop) ::
    calls vectors (fun i inputs => riscvCall (arguments i inputs) i) ++ output

/-- The output of a shape with results only. -/
def riscvWords (vectors : List TestVector) : List (CodeLine Rv64.Instruction) :=
  .comment "write(1, results, len)" :: codeLines (riscvWrite .results (vectors.length * 8)) ++
    .comment "exit(0)" :: codeLines riscvExit

/-- The output of a shape that writes memory. -/
def riscvStreams (vectors : List TestVector)
    (buffers : Nat → List Json → List (CodeLine Rv64.Instruction)) :
    List (CodeLine Rv64.Instruction) :=
  codeLines (riscvWrite .results (vectors.length * 8)) ++ eachCode vectors buffers ++
    codeLines riscvExit

/-- `generate_riscv_replace_byte_harness`. -/
def generateRiscvReplaceByteHarness (vectors : List TestVector) : Program Rv64.Instruction :=
  riscvHarness vectors (emitReplaceByteVectorData vectors)
    (fun i inputs => [(.t0, .a0, pointer inputs 0 (.vec i .buf)), (.t0, .a1, .word (.vec i .len)),
      (.t0, .a2, .byte (.vec i .needle)), (.t0, .a3, .byte (.vec i .replacement))])
    (riscvStreams vectors (fun i inputs =>
      codeLines (riscvWrite (.vec i .guardPre) (guardedLength (vectorLength inputs)))))

/-- `generate_riscv_memset_harness`. -/
def generateRiscvMemsetHarness (vectors : List TestVector) : Program Rv64.Instruction :=
  riscvHarness vectors (emitMemsetVectorData vectors)
    (fun i inputs => [(.t0, .a0, pointer inputs 0 (.vec i .buf)), (.t0, .a1, .word (.vec i .len)),
      (.t0, .a2, .byte (.vec i .needle))])
    (riscvStreams vectors (fun i inputs =>
      codeLines (riscvWrite (.vec i .guardPre) (guardedLength (vectorLength inputs)))))

/-- `generate_riscv_memcpy_harness`. -/
def generateRiscvMemcpyHarness (vectors : List TestVector) : Program Rv64.Instruction :=
  riscvHarness vectors (emitGasMemcpyVectorData vectors)
    (fun i inputs => [(.t0, .a0, pointer inputs 0 (.vec i .a)),
      (.t0, .a1, pointer inputs 1 (.vec i .b)), (.t0, .a2, .word (.vec i .len))])
    (riscvStreams vectors (fun i inputs =>
      codeLines (riscvWrite (.vec i .aGuardPre) (guardedLength (vectorMemcmpLength inputs))) ++
        codeLines (riscvWrite (.vec i .bGuardPre) (guardedLength (vectorMemcmpLength inputs)))))

/-- `generate_riscv_memcmp_harness`. -/
def generateRiscvMemcmpHarness (vectors : List TestVector) : Program Rv64.Instruction :=
  riscvHarness vectors (emitGasMemcmpVectorData vectors)
    (fun i inputs => [(.t0, .a0, pointer inputs 0 (.vec i .a)),
      (.t0, .a1, pointer inputs 1 (.vec i .b)), (.t0, .a2, .word (.vec i .len))])
    (riscvWords vectors)

/-- `generate_riscv_buffer_harness`. -/
def generateRiscvBufferHarness (vectors : List TestVector) : Program Rv64.Instruction :=
  riscvHarness vectors (emitGasVectorData vectors)
    (fun i _ => [(.t0, .a0, .address (.vec i .buf)), (.t0, .a1, .word (.vec i .len)),
      (.t0, .a2, .byte (.vec i .needle))])
    (riscvWords vectors)

/-- `generate_riscv_pure_int_harness`. -/
def generateRiscvPureIntHarness (vectors : List TestVector) : Program Rv64.Instruction :=
  riscvHarness vectors (dataGasPureInt vectors)
    (fun i _ => [(.a0, .a0, .word (.vec i .a)), (.a1, .a1, .word (.vec i .b))])
    (riscvWords vectors)

/-- `generate_riscv_pure_int_unary_harness`. -/
def generateRiscvPureIntUnaryHarness (vectors : List TestVector) : Program Rv64.Instruction :=
  riscvHarness vectors (dataGasPureIntUnary vectors)
    (fun i _ => [(.a0, .a0, .word (.vec i .a))])
    (riscvWords vectors)

/-- `generate_riscv_i64_sum_harness`. -/
def generateRiscvI64SumHarness (vectors : List TestVector) : Program Rv64.Instruction :=
  riscvHarness vectors (emitGasI64SumVectorData vectors)
    (fun i _ => [(.t0, .a0, .address (.vec i .buf)), (.t0, .a1, .word (.vec i .len))])
    (riscvWords vectors)

/-! ## All targets and shapes -/

/-- A convention as `Debug` writes it. -/
def debug : Abi → String
  | .sysVAmd64 => "SysVAmd64"
  | .windowsX64 => "WindowsX64"
  | .aapcs64 => "Aapcs64"
  | .riscv => "Riscv"

/-- The refusal of the cell shapes. -/
def cellsRefused (abi : Abi) : String :=
  "concrete cell harness not supported for ABI " ++ debug abi ++ " (x86 SysV/Win64 only in v1)"

/-- `generate_harness`. -/
def generateHarness (routineSymbol : String) (vectors : List TestVector) :
    (abi : Abi) → HarnessShape → Except String (Program abi.target.Instruction)
  | .sysVAmd64, .bufferScan => .ok (generateSysvBufferHarness routineSymbol vectors)
  | .sysVAmd64, .replaceByte => .ok (generateSysvReplaceByteHarness routineSymbol vectors)
  | .sysVAmd64, .memset => .ok (generateSysvMemsetHarness routineSymbol vectors)
  | .sysVAmd64, .memCmp => .ok (generateSysvMemcmpHarness routineSymbol vectors)
  | .sysVAmd64, .memcpy => .ok (generateSysvMemcpyHarness routineSymbol vectors)
  | .sysVAmd64, .i64Sum => .ok (generateSysvI64SumHarness routineSymbol vectors)
  | .sysVAmd64, .pureInt => .ok (generateSysvPureIntHarness routineSymbol vectors)
  | .sysVAmd64, .pureIntUnary => .ok (generateSysvPureIntUnaryHarness routineSymbol vectors)
  | .sysVAmd64, .cellLoad => .ok (generateSysvCellLoadHarness routineSymbol vectors)
  | .sysVAmd64, .cellStore => .ok (generateSysvCellStoreHarness routineSymbol vectors)
  | .windowsX64, .bufferScan => .ok (generateWin64BufferHarness routineSymbol vectors)
  | .windowsX64, .replaceByte => .ok (generateWin64ReplaceByteHarness routineSymbol vectors)
  | .windowsX64, .memset => .ok (generateWin64MemsetHarness routineSymbol vectors)
  | .windowsX64, .memCmp => .ok (generateWin64MemcmpHarness routineSymbol vectors)
  | .windowsX64, .memcpy => .ok (generateWin64MemcpyHarness routineSymbol vectors)
  | .windowsX64, .i64Sum => .ok (generateWin64I64SumHarness routineSymbol vectors)
  | .windowsX64, .pureInt => .ok (generateWin64PureIntHarness routineSymbol vectors)
  | .windowsX64, .pureIntUnary => .ok (generateWin64PureIntUnaryHarness routineSymbol vectors)
  | .windowsX64, .cellLoad => .ok (generateWin64CellLoadHarness routineSymbol vectors)
  | .windowsX64, .cellStore => .ok (generateWin64CellStoreHarness routineSymbol vectors)
  | .aapcs64, .bufferScan => .ok (generateAapcs64BufferHarness vectors)
  | .aapcs64, .memCmp => .ok (generateAapcs64MemcmpHarness vectors)
  | .riscv, .memCmp => .ok (generateRiscvMemcmpHarness vectors)
  | .aapcs64, .replaceByte => .ok (generateAapcs64ReplaceByteHarness vectors)
  | .aapcs64, .memset => .ok (generateAapcs64MemsetHarness vectors)
  | .aapcs64, .memcpy => .ok (generateAapcs64MemcpyHarness vectors)
  | .riscv, .replaceByte => .ok (generateRiscvReplaceByteHarness vectors)
  | .riscv, .memset => .ok (generateRiscvMemsetHarness vectors)
  | .riscv, .memcpy => .ok (generateRiscvMemcpyHarness vectors)
  | .aapcs64, .i64Sum => .ok (generateAapcs64I64SumHarness vectors)
  | .aapcs64, .pureInt => .ok (generateAapcs64PureIntHarness vectors)
  | .aapcs64, .pureIntUnary => .ok (generateAapcs64PureIntUnaryHarness vectors)
  | .riscv, .bufferScan => .ok (generateRiscvBufferHarness vectors)
  | .riscv, .i64Sum => .ok (generateRiscvI64SumHarness vectors)
  | .riscv, .pureInt => .ok (generateRiscvPureIntHarness vectors)
  | .riscv, .pureIntUnary => .ok (generateRiscvPureIntUnaryHarness vectors)
  | .aapcs64, .cellLoad => .error (cellsRefused .aapcs64)
  | .aapcs64, .cellStore => .error (cellsRefused .aapcs64)
  | .riscv, .cellLoad => .error (cellsRefused .riscv)
  | .riscv, .cellStore => .error (cellsRefused .riscv)

end Semasm.Agent.Harness.Programs
