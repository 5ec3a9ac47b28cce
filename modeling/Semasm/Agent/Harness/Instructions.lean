import Semasm.Agent.Harness.Program

/-!
# The instructions of harnesses

What the generators write for each target: how an instruction is written and what it does.
A 32-bit register is the lower half of the 64-bit one, and a write to it clears the upper
half. A system call is recognized by its number; only writing to the standard output has an
effect on the bytes written.
-/

namespace Semasm.Agent.Harness

open Library Library.ByteMemory Machine

namespace Amd64

/-- The registers that harnesses use. -/
inductive Register where
  | rax | rcx | rdx | rsi | rdi | r8 | r9 | rsp
deriving DecidableEq, Repr

/-- The 64-bit name. -/
def Register.text : Register → String
  | .rax => "rax" | .rcx => "rcx" | .rdx => "rdx" | .rsi => "rsi" | .rdi => "rdi" | .r8 => "r8"
  | .r9 => "r9" | .rsp => "rsp"

/-- The name of the lower half. -/
def Register.low : Register → String
  | .rax => "eax" | .rcx => "ecx" | .rdx => "edx" | .rsi => "esi" | .rdi => "edi" | .r8 => "r8d"
  | .r9 => "r9d" | .rsp => "esp"

/-- The functions of kernel32 that harnesses call. -/
inductive Import where
  | getStdHandle | writeFile | exitProcess
deriving DecidableEq, Repr

def Import.text : Import → String
  | .getStdHandle => "GetStdHandle" | .writeFile => "WriteFile" | .exitProcess => "ExitProcess"

/-- An instruction in NASM syntax. `xor` is of a lower half with itself, `movImm` writes a
lower half, and `sub` and `add` move the stack pointer. -/
inductive Instruction where
  | xor (register : Register)
  | lea (register : Register) (label : Label)
  | mov (register : Register) (label : Label)
  | movzx (register : Register) (label : Label)
  | movImm (register : Register) (value : Int)
  | movReg (target source : Register)
  | movTo (label : Label) (source : Register)
  | movResult (index : Nat)
  | movStack (offset value : Nat)
  | sub (amount : Nat)
  | add (amount : Nat)
  | call
  | callImport (name : Import)
  | syscall
deriving DecidableEq, Repr

/-- The instruction as the source has it. -/
def Instruction.text (routineSymbol : String) : Instruction → String
  | .xor register => "xor " ++ register.low ++ ", " ++ register.low
  | .lea register label => "lea " ++ register.text ++ ", [" ++ label.text ++ "]"
  | .mov register label => "mov " ++ register.text ++ ", [" ++ label.text ++ "]"
  | .movzx register label => "movzx " ++ register.low ++ ", byte [" ++ label.text ++ "]"
  | .movImm register value => "mov " ++ register.low ++ ", " ++ toString value
  | .movReg target source => "mov " ++ target.text ++ ", " ++ source.text
  | .movTo label source => "mov [" ++ label.text ++ "], " ++ source.text
  | .movResult index => "mov [results + " ++ toString index ++ "*8], rax"
  | .movStack offset value => "mov qword [rsp + " ++ toString offset ++ "], " ++ toString value
  | .sub amount => "sub rsp, " ++ toString amount
  | .add amount => "add rsp, " ++ toString amount
  | .call => "call " ++ routineSymbol
  | .callImport name => "call " ++ name.text
  | .syscall => "syscall"

/-- The value with its upper half cleared. -/
def lowHalf (value : Word) : Word := (value.setWidth 32).setWidth 64

/-- The bytes that a system call writes to the standard output. -/
def syscallOutput (state : State Register) : List UInt8 :=
  if state.registers .rax = 1 ∧ state.registers .rdi = 1 then
    readBytes state.memory (state.registers .rsi) (state.registers .rdx).toNat
  else []

/-- The bytes that `WriteFile` writes to the standard output. -/
def writeFileOutput (outside : Outside Register) (state : State Register) : List UInt8 :=
  if state.registers .rcx = outside.stdout then
    readBytes state.memory (state.registers .rdx) (lowHalf (state.registers .r8)).toNat
  else []

/-- What `GetStdHandle` returns. -/
def stdHandle (outside : Outside Register) (state : State Register) : Word :=
  if lowHalf (state.registers .rcx) = lowHalf (BitVec.ofInt 64 (-11)) then outside.stdout
  else (outside.service state).1 .rax

/-- What a call of an imported function does. -/
def Import.exec (outside : Outside Register) (state : State Register) : Import → State Register
  | .getStdHandle => (state.served outside []).set .rax (stdHandle outside state)
  | .writeFile => state.served outside (writeFileOutput outside state)
  | .exitProcess => state.served outside []

/-- What an instruction does. -/
def Instruction.exec (outside : Outside Register) (address : Label → Word) :
    Instruction → State Register → State Register
  | .xor register, state => state.set register 0
  | .lea register label, state => state.set register (address label)
  | .mov register label, state => state.set register (state.memory.word (address label))
  | .movzx register label, state => state.set register (state.memory.byte (address label))
  | .movImm register value, state => state.set register (lowHalf (BitVec.ofInt 64 value))
  | .movReg target source, state => state.set target (state.registers source)
  | .movTo label source, state => state.store (address label) (state.registers source)
  | .movResult index, state =>
    state.store (address .results + BitVec.ofNat 64 (index * 8)) (state.registers .rax)
  | .movStack offset value, state =>
    state.store (state.registers .rsp + BitVec.ofNat 64 offset) (BitVec.ofNat 64 value)
  | .sub amount, state => state.set .rsp (state.registers .rsp - BitVec.ofNat 64 amount)
  | .add amount, state => state.set .rsp (state.registers .rsp + BitVec.ofNat 64 amount)
  | .call, state => state.call outside .rax
  | .callImport name, state => name.exec outside state
  | .syscall, state => state.served outside (syscallOutput state)

/-- The assembler, called with warnings as errors, takes only a constant that fits. -/
def Instruction.Accepted : Instruction → Prop
  | .movImm _ value => -2 ^ 31 ≤ value ∧ value < 2 ^ 32
  | _ => True

instance Instruction.decidableAccepted : DecidablePred Instruction.Accepted := fun instruction =>
  match instruction with
  | .movImm _ value => inferInstanceAs (Decidable (-2 ^ 31 ≤ value ∧ value < 2 ^ 32))
  | .xor _ | .lea _ _ | .mov _ _ | .movzx _ _ | .movReg _ _ | .movTo _ _ | .movResult _
  | .movStack _ _ | .sub _ | .add _ | .call | .callImport _ | .syscall =>
    inferInstanceAs (Decidable True)

end Amd64

namespace Arm64

/-- The registers that harnesses use. -/
inductive Register where
  | x0 | x1 | x2 | x3 | x4 | x8 | sp
deriving DecidableEq, Repr

/-- The 64-bit name. -/
def Register.text : Register → String
  | .x0 => "x0" | .x1 => "x1" | .x2 => "x2" | .x3 => "x3" | .x4 => "x4" | .x8 => "x8" | .sp => "sp"

/-- The name of the lower half. -/
def Register.low : Register → String
  | .x0 => "w0" | .x1 => "w1" | .x2 => "w2" | .x3 => "w3" | .x4 => "w4" | .x8 => "w8" | .sp => "wsp"

/-- An instruction in the syntax of the GNU assembler. `ldrAddress` loads the address of a
label. -/
inductive Instruction where
  | movZero (register : Register)
  | movImm (register : Register) (value : Nat)
  | ldrAddress (register : Register) (label : Label)
  | ldr (register base : Register)
  | ldrb (register base : Register)
  | str (register base : Register) (offset : Nat)
  | bl
  | svc
deriving DecidableEq, Repr

/-- The instruction as the source has it. -/
def Instruction.text (routineSymbol : String) : Instruction → String
  | .movZero register => "mov " ++ register.text ++ ", xzr"
  | .movImm register value => "mov " ++ register.text ++ ", #" ++ toString value
  | .ldrAddress register label => "ldr " ++ register.text ++ ", =" ++ label.text
  | .ldr register base => "ldr " ++ register.text ++ ", [" ++ base.text ++ "]"
  | .ldrb register base => "ldrb " ++ register.low ++ ", [" ++ base.text ++ "]"
  | .str register base offset =>
    "str " ++ register.text ++ ", [" ++ base.text ++ ", #" ++ toString offset ++ "]"
  | .bl => "bl " ++ routineSymbol
  | .svc => "svc #0"

/-- The bytes that a system call writes to the standard output. -/
def svcOutput (state : State Register) : List UInt8 :=
  if state.registers .x8 = 64 ∧ state.registers .x0 = 1 then
    readBytes state.memory (state.registers .x1) (state.registers .x2).toNat
  else []

/-- What an instruction does. -/
def Instruction.exec (outside : Outside Register) (address : Label → Word) :
    Instruction → State Register → State Register
  | .movZero register, state => state.set register 0
  | .movImm register value, state => state.set register (BitVec.ofNat 64 value)
  | .ldrAddress register label, state => state.set register (address label)
  | .ldr register base, state => state.set register (state.memory.word (state.registers base))
  | .ldrb register base, state => state.set register (state.memory.byte (state.registers base))
  | .str register base offset, state =>
    state.store (state.registers base + BitVec.ofNat 64 offset) (state.registers register)
  | .bl, state => state.call outside .x0
  | .svc, state => state.served outside (svcOutput state)

/-- The assembler takes only a constant and an offset that fit. -/
def Instruction.Accepted : Instruction → Prop
  | .movImm _ value => value < 2 ^ 64
  | .str _ _ offset => offset ≤ 32760
  | _ => True

end Arm64

namespace Rv64

/-- The registers that harnesses use. -/
inductive Register where
  | a0 | a1 | a2 | a3 | a7 | t0 | sp
deriving DecidableEq, Repr

/-- The name of the register. -/
def Register.text : Register → String
  | .a0 => "a0" | .a1 => "a1" | .a2 => "a2" | .a3 => "a3" | .a7 => "a7" | .t0 => "t0" | .sp => "sp"

/-- An instruction in the syntax of the GNU assembler. -/
inductive Instruction where
  | li (register : Register) (value : Nat)
  | la (register : Register) (label : Label)
  | ld (register base : Register)
  | lbu (register base : Register)
  | sd (register base : Register) (offset : Nat)
  | jal
  | ecall
deriving DecidableEq, Repr

/-- The instruction as the source has it. -/
def Instruction.text (routineSymbol : String) : Instruction → String
  | .li register value => "li " ++ register.text ++ ", " ++ toString value
  | .la register label => "la " ++ register.text ++ ", " ++ label.text
  | .ld register base => "ld " ++ register.text ++ ", 0(" ++ base.text ++ ")"
  | .lbu register base => "lbu " ++ register.text ++ ", 0(" ++ base.text ++ ")"
  | .sd register base offset =>
    "sd " ++ register.text ++ ", " ++ toString offset ++ "(" ++ base.text ++ ")"
  | .jal => "jal " ++ routineSymbol
  | .ecall => "ecall"

/-- The bytes that a system call writes to the standard output. -/
def ecallOutput (state : State Register) : List UInt8 :=
  if state.registers .a7 = 64 ∧ state.registers .a0 = 1 then
    readBytes state.memory (state.registers .a1) (state.registers .a2).toNat
  else []

/-- What an instruction does. -/
def Instruction.exec (outside : Outside Register) (address : Label → Word) :
    Instruction → State Register → State Register
  | .li register value, state => state.set register (BitVec.ofNat 64 value)
  | .la register label, state => state.set register (address label)
  | .ld register base, state => state.set register (state.memory.word (state.registers base))
  | .lbu register base, state => state.set register (state.memory.byte (state.registers base))
  | .sd register base offset, state =>
    state.store (state.registers base + BitVec.ofNat 64 offset) (state.registers register)
  | .jal, state => state.call outside .a0
  | .ecall, state => state.served outside (ecallOutput state)

/-- The assembler takes only a constant and an offset that fit. -/
def Instruction.Accepted : Instruction → Prop
  | .li _ value => value < 2 ^ 64
  | .sd _ _ offset => offset < 2048
  | _ => True

end Rv64

/-- Where an argument of a call comes from: nothing, the address of a label, or the word or the
byte under a label. -/
inductive Argument where
  | null
  | address (label : Label)
  | word (label : Label)
  | byte (label : Label)
deriving DecidableEq, Repr

/-- What is passed. -/
def Argument.value (address : Label → Word) (memory : Memory) : Argument → Word
  | .null => 0
  | .address label => address label
  | .word label => memory.word (address label)
  | .byte label => memory.byte (address label)

/-- The instructions that load an argument into a register. -/
def Amd64.load (register : Amd64.Register) : Argument → List Amd64.Instruction
  | .null => [.xor register]
  | .address label => [.lea register label]
  | .word label => [.mov register label]
  | .byte label => [.movzx register label]

/-- The instructions that load an argument into a register. -/
def Arm64.load (register : Arm64.Register) : Argument → List Arm64.Instruction
  | .null => [.movZero register]
  | .address label => [.ldrAddress register label]
  | .word label => [.ldrAddress register label, .ldr register register]
  | .byte label => [.ldrAddress register label, .ldrb register register]

/-- The instructions that load an argument into a register, an address into a base first. -/
def Rv64.load (base register : Rv64.Register) : Argument → List Rv64.Instruction
  | .null => [.li register 0]
  | .address label => [.la register label]
  | .word label => [.la base label, .ld register base]
  | .byte label => [.la base label, .lbu register base]

/-- What a harness of a target is made of and runs on: how its instructions are written, what
they do and when the assembler takes them, where the arguments of a call are passed and the
result is returned, and the stack pointer. -/
structure Target where
  Register : Type
  Instruction : Type
  name : Register → String
  text : String → Instruction → String
  exec : Outside Register → (Label → Word) → Instruction → State Register → State Register
  Accepted : Instruction → Prop
  parameters : List Register
  result : Register
  stack : Register

/-- The target of a calling convention. -/
def Abi.target : Abi → Target
  | .sysVAmd64 =>
    { Register := Amd64.Register, Instruction := Amd64.Instruction, name := Amd64.Register.text,
      text := Amd64.Instruction.text, exec := Amd64.Instruction.exec,
      Accepted := Amd64.Instruction.Accepted, parameters := [.rdi, .rsi, .rdx, .rcx],
      result := .rax, stack := .rsp }
  | .windowsX64 =>
    { Register := Amd64.Register, Instruction := Amd64.Instruction, name := Amd64.Register.text,
      text := Amd64.Instruction.text, exec := Amd64.Instruction.exec,
      Accepted := Amd64.Instruction.Accepted, parameters := [.rcx, .rdx, .r8, .r9],
      result := .rax, stack := .rsp }
  | .aapcs64 =>
    { Register := Arm64.Register, Instruction := Arm64.Instruction, name := Arm64.Register.text,
      text := Arm64.Instruction.text, exec := Arm64.Instruction.exec,
      Accepted := Arm64.Instruction.Accepted, parameters := [.x0, .x1, .x2, .x3], result := .x0, stack := .sp }
  | .riscv =>
    { Register := Rv64.Register, Instruction := Rv64.Instruction, name := Rv64.Register.text,
      text := Rv64.Instruction.text, exec := Rv64.Instruction.exec,
      Accepted := Rv64.Instruction.Accepted, parameters := [.a0, .a1, .a2, .a3], result := .a0, stack := .sp }

end Semasm.Agent.Harness
