import Semasm.Agent.Harness.Vectors

/-!
# Harness sources of the scalar shapes

A harness is a list of lines: the data of the vectors, a result buffer, one call for
each vector under a comment with its number and name, and the code that writes the
results out and ends. The x86-64 harnesses are NASM sources, the others GNU as sources.
-/

namespace Semasm.Agent.Harness

/-- The calling convention of a target. -/
inductive Abi where
  | sysVAmd64 | windowsX64 | aapcs64 | riscv
deriving DecidableEq, Repr

/-- The mark that starts a comment in the source of a target's harness. -/
def Abi.commentMarker : Abi → String
  | .sysVAmd64 | .windowsX64 => ";"
  | .aapcs64 => "//"
  | .riscv => "#"

/-- `vector_int_input`: an input as raw bits. -/
def vectorIntInput (inputs : List Json) (index : Nat) : UInt64 :=
  match inputs[index]? with
  | some value => (value.asU64.or (value.asI64.map Int64.toUInt64)).getD 0
  | none => 0

/-- Lines for each vector from its inputs and its number. -/
def eachInput (vectors : List TestVector) (lines : List Json → String → List String) :
    List String :=
  (vectors.map TestVector.inputs).zipIdx.flatMap (fun (inputs, index) =>
    lines inputs (toString index))

/-- `emit_pure_int_vector_data`. -/
def emitPureIntVectorData (vectors : List TestVector) : List String :=
  "section .data" :: eachInput vectors (fun inputs i =>
    ["vec" ++ i ++ "_a: dq " ++ toString (vectorIntInput inputs 0),
      "vec" ++ i ++ "_b: dq " ++ toString (vectorIntInput inputs 1)])

/-- `emit_pure_int_unary_vector_data`. -/
def emitPureIntUnaryVectorData (vectors : List TestVector) : List String :=
  "section .data" :: eachInput vectors (fun inputs i =>
    ["vec" ++ i ++ "_a: dq " ++ toString (vectorIntInput inputs 0)])

/-- `emit_gas_pure_int_vector_data`. -/
def emitGasPureIntVectorData (vectors : List TestVector) : List String :=
  ".section .data" :: eachInput vectors (fun inputs i =>
    [".align 3", "vec" ++ i ++ "_a:", "    .quad " ++ toString (vectorIntInput inputs 0),
      ".align 3", "vec" ++ i ++ "_b:", "    .quad " ++ toString (vectorIntInput inputs 1)])

/-- `emit_gas_pure_int_unary_vector_data`. -/
def emitGasPureIntUnaryVectorData (vectors : List TestVector) : List String :=
  ".section .data" :: eachInput vectors (fun inputs i =>
    [".align 3", "vec" ++ i ++ "_a:", "    .quad " ++ toString (vectorIntInput inputs 0)])

/-- One call for each vector under a comment with its number and name. -/
def vectorCalls (abi : Abi) (vectors : List TestVector) (call : Nat → List String) : List String :=
  vectors.zipIdx.flatMap (fun (vector, index) =>
    ("    " ++ abi.commentMarker ++ " vector " ++ toString index ++ ": " ++ vector.name) ::
      call index)

/-- The harness of a target: lines before the calls, the calls, lines after them. -/
def harnessLines (abi : Abi) (vectors : List TestVector) (before : List String)
    (call : Nat → List String) (after : List String) : List String :=
  before ++ vectorCalls abi vectors call ++ after

/-- The lines of a System V harness around its data and its argument loads. -/
def sysvHarness (routineSymbol : String) (vectors : List TestVector) (data : List String)
    (arguments : String → List String) : List String :=
  let size := toString (vectors.length * 8)
  harnessLines .sysVAmd64 vectors
    (["BITS 64", "DEFAULT REL", ""] ++ data ++
      ["", "section .bss", "results: resb " ++ size, "", "section .text",
        "extern " ++ routineSymbol, "global _start", "_start:"])
    (fun index => arguments (toString index) ++
      ["    call " ++ routineSymbol, "    mov [results + " ++ toString index ++ "*8], rax"])
    ["    ; write(results, len)", "    mov eax, 1          ; sys_write",
      "    mov edi, 1          ; stdout", "    lea rsi, [results]", "    mov edx, " ++ size,
      "    syscall", "    mov eax, 60         ; sys_exit", "    xor edi, edi", "    syscall"]

/-- `generate_sysv_pure_int_harness`. -/
def generateSysvPureIntHarness (routineSymbol : String) (vectors : List TestVector) : List String :=
  sysvHarness routineSymbol vectors (emitPureIntVectorData vectors)
    (fun i => ["    mov rdi, [vec" ++ i ++ "_a]", "    mov rsi, [vec" ++ i ++ "_b]"])

/-- `generate_sysv_pure_int_unary_harness`. -/
def generateSysvPureIntUnaryHarness (routineSymbol : String) (vectors : List TestVector) :
    List String :=
  sysvHarness routineSymbol vectors (emitPureIntUnaryVectorData vectors)
    (fun i => ["    mov rdi, [vec" ++ i ++ "_a]"])

/-- The lines of a Microsoft x64 harness around its data and its argument loads. -/
def win64Harness (routineSymbol : String) (vectors : List TestVector) (data : List String)
    (arguments : String → List String) : List String :=
  let size := toString (vectors.length * 8)
  harnessLines .windowsX64 vectors
    (["BITS 64", "DEFAULT REL", "", "EXTERN GetStdHandle", "EXTERN WriteFile",
        "EXTERN ExitProcess", ""] ++ data ++
      ["", "section .bss", "results: resb " ++ size, "written: resq 1", "", "section .text",
        "extern " ++ routineSymbol, "global main", "main:"])
    (fun index => ["    sub rsp, 40"] ++ arguments (toString index) ++
      ["    call " ++ routineSymbol, "    add rsp, 40",
        "    mov [results + " ++ toString index ++ "*8], rax"])
    ["    ; WriteFile(stdout, results, len, &written, NULL)", "    sub rsp, 40",
      "    mov ecx, -11        ; STD_OUTPUT_HANDLE", "    call GetStdHandle",
      "    mov rcx, rax", "    lea rdx, [results]", "    mov r8d, " ++ size,
      "    lea r9, [written]", "    mov qword [rsp + 32], 0", "    call WriteFile",
      "    add rsp, 40", "    sub rsp, 40", "    xor ecx, ecx", "    call ExitProcess"]

/-- `generate_win64_pure_int_harness`. -/
def generateWin64PureIntHarness (routineSymbol : String) (vectors : List TestVector) :
    List String :=
  win64Harness routineSymbol vectors (emitPureIntVectorData vectors)
    (fun i => ["    mov rcx, [vec" ++ i ++ "_a]", "    mov rdx, [vec" ++ i ++ "_b]"])

/-- `generate_win64_pure_int_unary_harness`. -/
def generateWin64PureIntUnaryHarness (routineSymbol : String) (vectors : List TestVector) :
    List String :=
  win64Harness routineSymbol vectors (emitPureIntUnaryVectorData vectors)
    (fun i => ["    mov rcx, [vec" ++ i ++ "_a]"])

/-- The lines of an AArch64 harness around its data and its argument loads. -/
def aapcs64Harness (routineSymbol : String) (vectors : List TestVector) (data : List String)
    (arguments : String → List String) : List String :=
  let size := toString (vectors.length * 8)
  harnessLines .aapcs64 vectors
    (data ++ ["", ".section .bss", ".align 3", "results:", "    .space " ++ size, "",
      ".section .text", ".global _start", "_start:"])
    (fun index => arguments (toString index) ++
      ["    bl " ++ routineSymbol, "    ldr x2, =results",
        "    str x0, [x2, #" ++ toString (index * 8) ++ "]"])
    ["    // write(1, results, len)", "    mov x0, #1", "    ldr x1, =results",
      "    mov x2, #" ++ size, "    mov x8, #64", "    svc #0", "    // exit(0)", "    mov x0, #0",
      "    mov x8, #93", "    svc #0"]

/-- `generate_aapcs64_pure_int_harness`. -/
def generateAapcs64PureIntHarness (routineSymbol : String) (vectors : List TestVector) :
    List String :=
  aapcs64Harness routineSymbol vectors (emitGasPureIntVectorData vectors)
    (fun i => ["    ldr x0, =vec" ++ i ++ "_a", "    ldr x0, [x0]", "    ldr x1, =vec" ++ i ++ "_b",
      "    ldr x1, [x1]"])

/-- `generate_aapcs64_pure_int_unary_harness`. -/
def generateAapcs64PureIntUnaryHarness (routineSymbol : String) (vectors : List TestVector) :
    List String :=
  aapcs64Harness routineSymbol vectors (emitGasPureIntUnaryVectorData vectors)
    (fun i => ["    ldr x0, =vec" ++ i ++ "_a", "    ldr x0, [x0]"])

/-- The lines of a RISC-V harness around its data and its argument loads. -/
def riscvHarness (routineSymbol : String) (vectors : List TestVector) (data : List String)
    (arguments : String → List String) : List String :=
  let size := toString (vectors.length * 8)
  harnessLines .riscv vectors
    ([".option norelax"] ++ data ++
      ["", ".section .bss", ".align 4", "results:", "    .space " ++ size, ".align 4",
        "    .space 16384", "__stack_top:", "", ".section .text", ".global _start", "_start:",
        "    la sp, __stack_top"])
    (fun index => arguments (toString index) ++
      ["    jal " ++ routineSymbol, "    la t0, results",
        "    sd a0, " ++ toString (index * 8) ++ "(t0)"])
    ["    # write(1, results, len)", "    li a0, 1", "    la a1, results", "    li a2, " ++ size,
      "    li a7, 64", "    ecall", "    # exit(0)", "    li a0, 0", "    li a7, 93", "    ecall"]

/-- `generate_riscv_pure_int_harness`. -/
def generateRiscvPureIntHarness (routineSymbol : String) (vectors : List TestVector) :
    List String :=
  riscvHarness routineSymbol vectors (emitGasPureIntVectorData vectors)
    (fun i => ["    la a0, vec" ++ i ++ "_a", "    ld a0, 0(a0)", "    la a1, vec" ++ i ++ "_b",
      "    ld a1, 0(a1)"])

/-- `generate_riscv_pure_int_unary_harness`. -/
def generateRiscvPureIntUnaryHarness (routineSymbol : String) (vectors : List TestVector) :
    List String :=
  riscvHarness routineSymbol vectors (emitGasPureIntUnaryVectorData vectors)
    (fun i => ["    la a0, vec" ++ i ++ "_a", "    ld a0, 0(a0)"])

/-- The scalar rows of `generate_harness`. -/
def generateScalarHarness (routineSymbol : String) (vectors : List TestVector) (abi : Abi)
    (unary : Bool) : List String :=
  match abi, unary with
  | .sysVAmd64, false => generateSysvPureIntHarness routineSymbol vectors
  | .sysVAmd64, true => generateSysvPureIntUnaryHarness routineSymbol vectors
  | .windowsX64, false => generateWin64PureIntHarness routineSymbol vectors
  | .windowsX64, true => generateWin64PureIntUnaryHarness routineSymbol vectors
  | .aapcs64, false => generateAapcs64PureIntHarness routineSymbol vectors
  | .aapcs64, true => generateAapcs64PureIntUnaryHarness routineSymbol vectors
  | .riscv, false => generateRiscvPureIntHarness routineSymbol vectors
  | .riscv, true => generateRiscvPureIntUnaryHarness routineSymbol vectors

/-- The source text of its lines. -/
def sourceText (lines : List String) : String :=
  String.join (lines.map (fun line => line ++ "\n"))

end Semasm.Agent.Harness
