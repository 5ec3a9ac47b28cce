import Semasm.X86.Analysis.Domain

/-!
# The data-flow driver

The driver keeps an entry and an exit state for each block and a queue of blocks
to visit. A visit joins the exit states of the predecessors and runs the transfer
function over the block; when a state changed, the successors are put into the
queue. The number of visits is bounded, and late in the run a successor that was
put into the queue before is left out.

The report lists notes of block states in the order of the registers; the source
takes the order of a hash map, which is not fixed.
-/

namespace Semasm.X86.Analysis

/-- A range of instructions with the indices of the successor blocks. -/
structure BlockRange where
  start : Nat
  stop : Nat
  successors : List Nat
deriving DecidableEq, Repr

/-- Provenance of a memory access base. -/
inductive MemProvenance where
  | redZone | stackFrame | framePointer | unknown
deriving DecidableEq, Repr

/-- Kind of a memory access. -/
inductive MemKind where
  | load | store
deriving DecidableEq, Repr

/-- A recorded memory access. -/
structure MemAccess where
  position : Nat
  kind : MemKind
  provenance : MemProvenance
  disp : Int64
deriving DecidableEq, Repr

/-- `mem_provenance`. -/
def memProvenance (base : Option Register) (disp rspDelta : Int64) : MemProvenance :=
  match base.map Register.storage with
  | some (.gp .rsp) =>
    let displaced := rspDelta + disp
    if displaced < 0 ∧ -128 ≤ displaced then .redZone else .stackFrame
  | some (.gp .rbp) => .framePointer
  | _ => .unknown

/-- The instructions of a block. -/
def BlockRange.body (block : BlockRange) (lowered : List LoweredInstr) : List LoweredInstr :=
  (lowered.drop block.start).take (block.stop - block.start)

/-- The transfer function over a list of instructions. -/
def transferAll (instrs : List LoweredInstr) (state : BlockState) : BlockState :=
  instrs.foldl (fun state instr => transfer instr state) state

/-- The join of some states, and the bottom state for none. -/
def joinAll : List BlockState → BlockState
  | [] => .bottom
  | first :: rest => rest.foldl BlockState.join first

/-- The exit states of the predecessors of a block, in the order of the blocks. -/
def predecessorOuts (blocks : List BlockRange) (out : Nat → BlockState) (index : Nat) :
    List BlockState :=
  (blocks.zipIdx.filter (fun entry => entry.1.successors.contains index)).map
    (fun entry => out entry.2)

/-- Both states of a block, from the exit states of all. -/
def processBlock (lowered : List LoweredInstr) (blocks : List BlockRange) (out : Nat → BlockState)
    (index : Nat) : BlockState × BlockState :=
  let inState := joinAll (predecessorOuts blocks out index)
  let body := match blocks[index]? with
    | some block => block.body lowered
    | none => []
  (inState, transferAll body inState)

/-- The recorded accesses with the provenance at the stack depth of this visit. -/
def reviseAccesses (instrs : List LoweredInstr) (start : Nat) (inState : BlockState)
    (accesses : List MemAccess) : List MemAccess :=
  (instrs.zipIdx start).foldl
    (fun (pair : List MemAccess × BlockState) entry =>
      let revised := match entry.1.operands.head? with
        | some (.mem operand) => pair.1.map (fun access =>
            if access.position = entry.2 then
              { access with provenance := memProvenance operand.base operand.disp pair.2.rspDelta }
            else access)
        | _ => pair.1
      (revised, transfer entry.1 pair.2))
    (accesses, inState) |>.1

/-- The state of the driver. -/
structure Driver where
  blockIn : List BlockState
  blockOut : List BlockState
  memAccesses : List MemAccess
  worklist : List Nat
  iterations : Nat
  seen : List Nat
deriving DecidableEq

/-- The exit state of a block. -/
def Driver.out (driver : Driver) (index : Nat) : BlockState :=
  (driver.blockOut[index]?).getD .bottom

/-- The entry state of a block. -/
def Driver.entry (driver : Driver) (index : Nat) : BlockState :=
  (driver.blockIn[index]?).getD .bottom

/-- One successor of a changed block is put into the queue, unless it was before and
the run is late. -/
def Driver.push (count : Nat) (driver : Driver) (next : Nat) : Driver :=
  if next ∉ driver.seen ∨ driver.iterations < count * 2 then
    { driver with worklist := driver.worklist ++ [next], seen := next :: driver.seen }
  else driver

/-- The driver with a block taken out of the queue and its accesses revised. -/
def Driver.taken (lowered : List LoweredInstr) (block : BlockRange) (inState : BlockState)
    (driver : Driver) (rest : List Nat) : Driver :=
  { driver with
    worklist := rest
    iterations := driver.iterations + 1
    memAccesses := reviseAccesses (block.body lowered) block.start inState driver.memAccesses }

/-- The driver with both states of a block replaced. -/
def Driver.updated (driver : Driver) (index : Nat) (states : BlockState × BlockState) : Driver :=
  { driver with
    blockIn := driver.blockIn.set index states.1
    blockOut := driver.blockOut.set index states.2 }

/-- The visit of the block at the front of the queue. -/
def Driver.visit (lowered : List LoweredInstr) (blocks : List BlockRange) (driver : Driver)
    (index : Nat) (rest : List Nat) : Driver :=
  let states := processBlock lowered blocks driver.out index
  let block := (blocks[index]?).getD ⟨0, 0, []⟩
  let taken := driver.taken lowered block states.1 rest
  if states.2 ≠ driver.out index ∨ driver.entry index ≠ states.1 then
    block.successors.foldl (Driver.push blocks.length) (taken.updated index states)
  else taken

/-- The bound on the number of visits. -/
def visitBound (blocks : List BlockRange) : Nat := blocks.length * 4 + 16

/-- The loop of the driver, and whether it converged. -/
def Driver.loop (lowered : List LoweredInstr) (blocks : List BlockRange) :
    Nat → Driver → Driver × Bool
  | 0, driver => (driver, false)
  | fuel + 1, driver =>
    match driver.worklist with
    | [] => (driver, true)
    | index :: rest =>
      if visitBound blocks < driver.iterations + 1 then
        ({ driver with worklist := rest, iterations := driver.iterations + 1 }, false)
      else Driver.loop lowered blocks fuel (driver.visit lowered blocks index rest)

/-- The access that an instruction's first operand makes, before any visit. -/
def recordAccess (entry : LoweredInstr × Nat) : Option MemAccess :=
  match entry.1.operands.head?, entry.1.kind with
  | some (.mem operand), .load =>
    some ⟨entry.2, .load, memProvenance operand.base operand.disp 0, operand.disp⟩
  | some (.mem operand), .store =>
    some ⟨entry.2, .store, memProvenance operand.base operand.disp 0, operand.disp⟩
  | _, _ => none

/-- The driver before its first visit. -/
def Driver.initial (lowered : List LoweredInstr) (blocks : List BlockRange) : Driver where
  blockIn := List.replicate blocks.length .bottom
  blockOut := List.replicate blocks.length .bottom
  memAccesses := lowered.zipIdx.filterMap recordAccess
  worklist := List.range blocks.length
  iterations := 0
  seen := []

/-- Trust classification of a result. -/
inductive AnalysisStatus where
  | verified | incomplete | failed
deriving DecidableEq, Repr

/-- Semantic coverage of the input. -/
structure AnalysisCoverage where
  total : Nat
  modeled : Nat
  unknown : Nat
deriving DecidableEq, Repr

/-- A note for reporting. -/
structure AnalysisNote where
  code : String
  block : Nat
  message : String
deriving DecidableEq, Repr

/-- Result of the forward analysis. -/
structure AnalysisReport where
  status : AnalysisStatus
  coverage : AnalysisCoverage
  iterations : Nat
  converged : Bool
  blockIn : List BlockState
  blockOut : List BlockState
  memAccesses : List MemAccess
  notes : List AnalysisNote
deriving DecidableEq

/-- `block_of`: the block that holds an instruction. -/
def blockOf (blocks : List BlockRange) (position : Nat) : Nat :=
  (blocks.findIdx? (fun block => decide (block.start ≤ position) && decide (position < block.stop))).getD 0

/-- Debug text of a register. -/
def gpText : Gp → String
  | .rax => "Rax" | .rbx => "Rbx" | .rcx => "Rcx" | .rdx => "Rdx"
  | .rsi => "Rsi" | .rdi => "Rdi" | .rsp => "Rsp" | .rbp => "Rbp"
  | .r8 => "R8" | .r9 => "R9" | .r10 => "R10" | .r11 => "R11"
  | .r12 => "R12" | .r13 => "R13" | .r14 => "R14" | .r15 => "R15"

/-- The notes on instructions without a model. -/
def unknownNotes (lowered : List LoweredInstr) (blocks : List BlockRange) : List AnalysisNote :=
  lowered.zipIdx.filterMap (fun entry =>
    if entry.1.kind = .unknown then
      some ⟨"ANALYSIS_INCOMPLETE", blockOf blocks entry.2,
        "instruction " ++ toString entry.2 ++ " (`" ++ entry.1.mnemonic ++
          "`) has unknown effects; register, flag, stack, and memory facts were invalidated"⟩
    else none)

/-- Number of predecessors of a block. -/
def predCount (blocks : List BlockRange) (index : Nat) : Nat :=
  (blocks.filter (fun block => block.successors.contains index)).length

/-- The note on one register at the exit of a block. -/
def registerNote (blocks : List BlockRange) (index : Nat) (state : BlockState) (cell : Gp) :
    Option AnalysisNote :=
  match state.regs cell with
  | some ⟨.const value, width⟩ =>
    some ⟨"REG_CONST", index, "block " ++ toString index ++ ": " ++ gpText cell ++
      " holds constant " ++ toString value.toInt ++ " (" ++ toString width.bits ++ "-bit)"⟩
  | some ⟨.conflict, _⟩ =>
    if 2 ≤ predCount blocks index ∨
        ((blocks[index]?).getD ⟨0, 0, []⟩).successors.contains index then
      some ⟨"REG_CONFLICT", index, "block " ++ toString index ++ ": " ++ gpText cell ++
        " has conflicting incoming values (joined to unknown)"⟩
    else none
  | _ => none

/-- The notes on the exit state of a block. -/
def blockNotes (blocks : List BlockRange) (entry : BlockState × Nat) : List AnalysisNote :=
  allGp.filterMap (registerNote blocks entry.2 entry.1) ++
    if entry.1.cmp = .unsigned ∧ 0 < entry.2 ∧ 2 ≤ predCount blocks entry.2 then
      [⟨"CMP_UNSIGNED", entry.2,
        "block " ++ toString entry.2 ++ ": comparison treated as unsigned"⟩]
    else []

/-- The notes on accesses to the red zone. -/
def redZoneNotes (blocks : List BlockRange) (accesses : List MemAccess) : List AnalysisNote :=
  (accesses.filter (fun access => access.provenance == .redZone)).map (fun access =>
    ⟨"MEM_RED_ZONE", blockOf blocks access.position,
      "instruction " ++ toString access.position ++ " accesses the red zone at RSP" ++
        (if access.disp < 0 then "-" else "+") ++ "0x" ++
        String.ofList (Nat.toDigits 16 access.disp.toInt.natAbs)⟩)

/-- `analyze`. -/
def analyze (lowered : List LoweredInstr) (blocks : List BlockRange) : AnalysisReport :=
  let (driver, converged) :=
    Driver.loop lowered blocks (visitBound blocks + 2) (Driver.initial lowered blocks)
  let unknown := (lowered.filter (fun instr => instr.kind == .unknown)).length
  { status := if !converged then .failed else if 0 < unknown then .incomplete else .verified
    coverage := ⟨lowered.length, lowered.length - unknown, unknown⟩
    iterations := driver.iterations
    converged := converged
    blockIn := driver.blockIn
    blockOut := driver.blockOut
    memAccesses := driver.memAccesses
    notes := unknownNotes lowered blocks ++ driver.blockOut.zipIdx.flatMap (blockNotes blocks) ++
      redZoneNotes blocks driver.memAccesses }

end Semasm.X86.Analysis
