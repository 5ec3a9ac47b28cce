import Semasm.Agent.Harness.CaseIds
import Semasm.Agent.Harness.Evaluation
import Semasm.Library.Sections
import Semasm.Machine

/-!
# Harness programs

The source of a harness by its lines: data under names, room for the results, and code. What
the lines mean is kept beside how they are written. A program runs on registers and a memory;
the routine under test and the system it calls are given from outside.
-/

namespace Semasm.Agent.Harness

open Library Library.ByteMemory Library.Sections Machine

/-- What a name in the data of a vector is for. -/
inductive Part where
  | len | needle | replacement | value | buf | a | b | guardPre | guardPost
  | aGuardPre | aGuardPost | bGuardPre | bGuardPost
deriving DecidableEq, Repr

/-- The end of the name. -/
def Part.text : Part → String
  | .len => "len" | .needle => "needle" | .replacement => "replacement" | .value => "value"
  | .buf => "buf" | .a => "a" | .b => "b" | .guardPre => "guard_pre" | .guardPost => "guard_post"
  | .aGuardPre => "a_guard_pre" | .aGuardPost => "a_guard_post" | .bGuardPre => "b_guard_pre"
  | .bGuardPost => "b_guard_post"

/-- The names in a harness. -/
inductive Label where
  | vec (index : Nat) (part : Part)
  | results | written | stdoutHandle | stackTop
deriving DecidableEq, Repr

/-- The name as the source has it. -/
def Label.text : Label → String
  | .vec index part => "vec" ++ toString index ++ "_" ++ part.text
  | .results => "results"
  | .written => "written"
  | .stdoutHandle => "stdout_handle"
  | .stackTop => "__stack_top"

/-- The GNU assembler reads the source, not NASM. -/
def Abi.gas : Abi → Bool
  | .sysVAmd64 | .windowsX64 => false
  | .aapcs64 | .riscv => true

/-- The values of a data directive. Some lists get a zero when they are empty. -/
inductive Datum where
  | bytes (values : List UInt8)
  | quads (values : List Int)
  | bytesOrZero (values : List UInt8)
  | quadsOrZero (values : List Int)
deriving DecidableEq, Repr

/-- The directive as the source has it. -/
def Datum.text (abi : Abi) : Datum → String
  | .bytes values => (if abi.gas then ".byte " else "db ") ++ ", ".intercalate (values.map toString)
  | .quads values => (if abi.gas then ".quad " else "dq ") ++ ", ".intercalate (values.map toString)
  | .bytesOrZero values =>
    (if abi.gas then ".byte " else "db ") ++ ", ".intercalate (values.map toString) ++
      (if values.isEmpty then " 0" else "")
  | .quadsOrZero values =>
    (if abi.gas then ".quad " else "dq ") ++ ", ".intercalate (values.map toString) ++
      (if values.isEmpty then " 0" else "")

/-- The bytes of a word. -/
def bytesOf (word : Word) : List UInt8 := wordBytes (UInt64.ofBitVec word)

/-- The bytes of a number in 64 bits. -/
def quadBytes (value : Int) : List UInt8 := bytesOf (BitVec.ofInt 64 value)

/-- The bytes that a directive puts down. -/
def Datum.contents : Datum → List UInt8
  | .bytes values => values
  | .quads values => values.flatMap quadBytes
  | .bytesOrZero values => if values.isEmpty then [0] else values
  | .quadsOrZero values => (if values.isEmpty then [0] else values).flatMap quadBytes

/-- A line of a section with data or room. -/
inductive DataLine where
  | align (power : Nat)
  | name (label : Label)
  | datum (values : Datum)
  | named (label : Label) (values : Datum)
  | reserve (label : Label) (size : Nat)
  | reserveQuad (label : Label)
  | space (size : Nat)
deriving DecidableEq, Repr

/-- The line as the source has it. -/
def DataLine.text (abi : Abi) : DataLine → String
  | .align power =>
    if abi.gas then ".align " ++ toString power else "align " ++ toString (2 ^ power)
  | .name label => label.text ++ ":"
  | .datum values => "    " ++ values.text abi
  | .named label values => label.text ++ ": " ++ values.text abi
  | .reserve label size => label.text ++ ": resb " ++ toString size
  | .reserveQuad label => label.text ++ ": resq 1"
  | .space size => "    .space " ++ toString size

/-- What a line adds to its section. -/
def DataLine.pieces : DataLine → List (Piece Label UInt8)
  | .align _ => [.gap]
  | .name label => [.name label]
  | .datum values => [.bytes values.contents]
  | .named label values => [.name label, .bytes values.contents]
  | .reserve label size => [.name label, .room size]
  | .reserveQuad label => [.name label, .room 8]
  | .space size => [.room size]

/-- A line of code: a comment of its own, an instruction, or one with a comment behind it. -/
inductive CodeLine (Instruction : Type) where
  | comment (text : String)
  | code (instruction : Instruction)
  | noted (instruction : Instruction) (note : String)

/-- The text filled up with blanks to the column where a comment starts. -/
def padded (text : String) : String := text ++ String.ofList (List.replicate (20 - text.length) ' ')

/-- The line as the source has it. -/
def CodeLine.text {Instruction : Type} (abi : Abi) (render : Instruction → String) :
    CodeLine Instruction → String
  | .comment text => "    " ++ abi.commentMarker ++ " " ++ text
  | .code instruction => "    " ++ render instruction
  | .noted instruction note => "    " ++ padded (render instruction) ++ abi.commentMarker ++ " " ++ note

/-- The instruction of a line. -/
def CodeLine.instruction? {Instruction : Type} : CodeLine Instruction → Option Instruction
  | .comment _ => none
  | .code instruction | .noted instruction _ => some instruction

/-- The text of a comment does not end the line. -/
def CodeLine.OnOneLine {Instruction : Type} (lineEnds : LineEnds) : CodeLine Instruction → Prop
  | .comment text => Harness.OnOneLine lineEnds text
  | .code _ => True
  | .noted _ note => Harness.OnOneLine lineEnds note

instance CodeLine.decidableOnOneLine {Instruction : Type} (lineEnds : LineEnds) :
    (line : CodeLine Instruction) → Decidable (line.OnOneLine lineEnds)
  | .comment text => inferInstanceAs (Decidable (Harness.OnOneLine lineEnds text))
  | .code _ => inferInstanceAs (Decidable True)
  | .noted _ note => inferInstanceAs (Decidable (Harness.OnOneLine lineEnds note))

/-- The lines of some instructions. -/
def codeLines {Instruction : Type} (instructions : List Instruction) :
    List (CodeLine Instruction) :=
  instructions.map .code

/-- The instructions of lines of code. -/
def instructionsOf {Instruction : Type} (lines : List (CodeLine Instruction)) : List Instruction :=
  lines.filterMap CodeLine.instruction?

section

variable {Instruction : Type}

@[simp] theorem instructionsOf_nil : instructionsOf ([] : List (CodeLine Instruction)) = [] := rfl

@[simp] theorem instructionsOf_comment (text : String) (rest : List (CodeLine Instruction)) :
    instructionsOf (.comment text :: rest) = instructionsOf rest := rfl

@[simp] theorem instructionsOf_code (instruction : Instruction)
    (rest : List (CodeLine Instruction)) :
    instructionsOf (.code instruction :: rest) = instruction :: instructionsOf rest := rfl

@[simp] theorem instructionsOf_noted (instruction : Instruction) (note : String)
    (rest : List (CodeLine Instruction)) :
    instructionsOf (.noted instruction note :: rest) = instruction :: instructionsOf rest := rfl

@[simp] theorem instructionsOf_append (first second : List (CodeLine Instruction)) :
    instructionsOf (first ++ second) = instructionsOf first ++ instructionsOf second :=
  List.filterMap_append

@[simp] theorem instructionsOf_codeLines (instructions : List Instruction) :
    instructionsOf (codeLines instructions) = instructions := by
  rw [instructionsOf, codeLines, List.filterMap_map]
  exact List.filterMap_some

end

/-- A harness: lines before the data, the data of each vector, the room, lines before the code,
and the code. -/
structure Program (Instruction : Type) where
  header : List String
  data : List (List DataLine)
  bss : List DataLine
  entry : List String
  code : List (CodeLine Instruction)

/-- The lines of the source. -/
def Program.source {Instruction : Type} (abi : Abi) (render : Instruction → String)
    (program : Program Instruction) : List String :=
  let sectionLine := fun name => (if abi.gas then ".section ." else "section .") ++ name
  program.header ++ sectionLine "data" :: program.data.flatten.map (DataLine.text abi) ++
    ["", sectionLine "bss"] ++ program.bss.map (DataLine.text abi) ++
    ["", sectionLine "text"] ++ program.entry ++ program.code.map (CodeLine.text abi render)

/-! ## Runs -/

/-- The contents of memory. -/
abbrev Memory := Word → UInt8

/-- The word at an address, least significant byte first. -/
def Memory.word (memory : Memory) (address : Word) : Word :=
  BitVec.ofNat 64 (decode ((readBytes memory address 8).map UInt8.toBitVec))

/-- The byte at an address. -/
def Memory.byte (memory : Memory) (address : Word) : Word := (memory address).toBitVec.setWidth 64

/-- The memory after a word is stored. -/
def Memory.store (memory : Memory) (address value : Word) : Memory :=
  writeBytes memory address (bytesOf value)

/-- A call of the routine: the registers and the memory it is entered with, its result, and the
memory it leaves. -/
structure Call (Register : Type) where
  registers : Register → Word
  memory : Memory
  returned : Word
  left : Memory

/-- The state of a run with the calls so far and the bytes written so far. -/
structure State (Register : Type) where
  registers : Register → Word
  memory : Memory
  calls : List (Call Register)
  output : List UInt8

/-- What is outside the harness: the registers and the memory that the routine and the system
leave, and the handle of the standard output. -/
structure Outside (Register : Type) where
  routine : State Register → (Register → Word) × Memory
  service : State Register → (Register → Word) × Memory
  stdout : Word

section

variable {Register Instruction : Type}

/-- The state with a register set. -/
def State.set [DecidableEq Register] (state : State Register) (register : Register)
    (value : Word) : State Register :=
  { state with registers := Function.update state.registers register value }

/-- The state with a word stored. -/
def State.store (state : State Register) (address value : Word) : State Register :=
  { state with memory := state.memory.store address value }

/-- The state after a call of the routine, which writes no output. -/
def State.call (outside : Outside Register) (result : Register) (state : State Register) :
    State Register where
  registers := (outside.routine state).1
  memory := (outside.routine state).2
  calls := state.calls ++
    [⟨state.registers, state.memory, (outside.routine state).1 result, (outside.routine state).2⟩]
  output := state.output

/-- The state after the system was called and some bytes were written. -/
def State.served (outside : Outside Register) (written : List UInt8) (state : State Register) :
    State Register where
  registers := (outside.service state).1
  memory := (outside.service state).2
  calls := state.calls
  output := state.output ++ written

/-- What instructions do one after the other. -/
def runInstructions (exec : Instruction → State Register → State Register)
    (instructions : List Instruction) (state : State Register) : State Register :=
  instructions.foldl (fun state instruction => exec instruction state) state

@[simp] theorem runInstructions_nil (exec : Instruction → State Register → State Register)
    (state : State Register) : runInstructions exec [] state = state := rfl

@[simp] theorem runInstructions_cons (exec : Instruction → State Register → State Register)
    (instruction : Instruction) (rest : List Instruction) (state : State Register) :
    runInstructions exec (instruction :: rest) state =
      runInstructions exec rest (exec instruction state) := rfl

@[simp] theorem runInstructions_append (exec : Instruction → State Register → State Register)
    (first second : List Instruction) (state : State Register) :
    runInstructions exec (first ++ second) state =
      runInstructions exec second (runInstructions exec first state) :=
  List.foldl_append

end

end Semasm.Agent.Harness
