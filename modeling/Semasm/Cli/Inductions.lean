import Semasm.Cfg.Build
import Semasm.X86.Lower

/-!
# Loop patterns

Four recognisers look for counted loops in a list of lowered instructions and
attach to the instruction of an indexed access the index register and an
exclusive bound. Two of them read the list alone; the other two also resolve the
printed branch targets to instruction positions.
-/

namespace Semasm.Cli

open Decode X86

/-- The lower-case mnemonic. -/
def lowerMnemonic (instr : LoweredInstr) : String := Text.asciiLower instr.mnemonic

/-- The cell of the first operand, when it is a general-purpose register view. -/
def firstCell (instr : LoweredInstr) : Option Gp :=
  match instr.operands with
  | .reg register :: _ =>
    match register.storage with
    | .gp cell => some cell
    | _ => none
  | _ => none

/-- The index cell of a memory operand. -/
def indexCell (operand : MemOperand) : Option Gp :=
  match operand.index with
  | some register =>
    match register.storage with
    | .gp cell => some cell
    | _ => none
  | none => none

/-- An index register and the exclusive bound attached to an access. -/
abbrev Induction := Gp × UInt64

/-- Mnemonics that `writes_gp` takes to write their first operand. -/
def writingMnemonics : List String :=
  ["mov", "movabs", "movzx", "movsx", "movsxd", "lea", "pop", "xor", "and", "or", "add", "sub",
   "adc", "sbb", "inc", "dec", "neg", "not", "imul", "mul", "shl", "shr", "sal", "sar", "rol",
   "ror"]

/-- `writes_gp`. -/
def writesGp (instr : LoweredInstr) (gp : Gp) : Bool :=
  writingMnemonics.contains (lowerMnemonic instr) && firstCell instr == some gp

/-- Mnemonics that end the search for the zeroing of an index. -/
def indexChangingMnemonics : List String :=
  ["inc", "dec", "add", "sub", "adc", "sbb", "pop", "movzx", "movsx", "movsxd", "and", "or", "lea",
   "imul", "mul", "neg", "not", "shl", "shr"]

/-- What one instruction says about the zeroing of an index: that it was zeroed,
that it was not, or nothing. -/
def zeroVerdict (gp : Gp) (instr : LoweredInstr) : Option Bool :=
  let mnemonic := lowerMnemonic instr
  if mnemonic = "xor" then
    match instr.operands with
    | .reg dst :: .reg src :: _ =>
      match dst.storage, src.storage with
      | .gp d, .gp s =>
        if d = gp ∧ s = gp then some true else if d = gp then some false else none
      | _, _ => none
    | _ => none
  else if mnemonic = "mov" ∨ mnemonic = "movabs" then
    match instr.operands with
    | .reg dst :: rest =>
      if dst.storage = .gp gp then some (rest.head? == some (.imm 0)) else none
    | _ => none
  else if indexChangingMnemonics.contains mnemonic then
    if firstCell instr = some gp then some false else none
  else none

/-- The backward search of `index_was_zero_initialized`, nearest instruction first. -/
def zeroInitialized (gp : Gp) : List LoweredInstr → Bool
  | [] => false
  | instr :: earlier =>
    match zeroVerdict gp instr with
    | some verdict => verdict
    | none => zeroInitialized gp earlier

/-- `index_was_zero_initialized`. -/
def indexWasZeroInitialized (lowered : List LoweredInstr) (before : Nat) (gp : Gp) : Bool :=
  zeroInitialized gp (lowered.take before).reverse

/-- A comparison of the register with a positive immediate. -/
def comparedBound (instr : LoweredInstr) : Option (Gp × Int64) :=
  match instr.operands with
  | .reg register :: .imm bound :: _ =>
    match register.storage with
    | .gp cell => if 0 < bound then some (cell, bound) else none
    | _ => none
  | _ => none

/-- Mnemonics of the branch that closes a post-test loop. -/
def loopBranchMnemonics : List String := ["jb", "jnae", "jl", "jnge"]

/-- Mnemonics that end the search of `post_test_bound_after` on the index. -/
def postTestStops : List String :=
  ["dec", "sub", "mov", "movabs", "xor", "pop", "lea", "movzx", "and", "or"]

/-- An increment by one through `add`. -/
def addsOne (instr : LoweredInstr) (gp : Gp) : Bool :=
  firstCell instr == some gp && instr.operands[1]? == some (.imm 1)

/-- The forward search of `post_test_bound_after`. -/
def postTestBound (gp : Gp) : Bool → List LoweredInstr → Option UInt64
  | _, [] => none
  | sawInc, instr :: rest =>
    let mnemonic := lowerMnemonic instr
    if mnemonic = "inc" then
      if firstCell instr = some gp then
        if sawInc then none else postTestBound gp true rest
      else postTestBound gp sawInc rest
    else if mnemonic = "add" then
      if addsOne instr gp then
        if sawInc then none else postTestBound gp true rest
      else if firstCell instr = some gp then none
      else postTestBound gp sawInc rest
    else if mnemonic = "cmp" ∧ sawInc then
      match comparedBound instr with
      | some (cell, bound) =>
        if cell = gp then
          match rest.head? with
          | some next =>
            if loopBranchMnemonics.contains (lowerMnemonic next) then some bound.toUInt64 else none
          | none => none
        else none
      | none => none
    else if postTestStops.contains mnemonic ∧ firstCell instr = some gp then none
    else postTestBound gp sawInc rest

/-- The bound of `discover_post_test_inductions` at one memory operand. -/
def postTestOperand (lowered : List LoweredInstr) (position : Nat) (operand : Operand) :
    Option Induction :=
  match operand with
  | .mem mem =>
    match indexCell mem with
    | some gp =>
      if indexWasZeroInitialized lowered position gp then
        (postTestBound gp false (lowered.drop (position + 1))).map (fun bound => (gp, bound))
      else none
    | none => none
  | _ => none

/-- The last bound found among the operands of an instruction. -/
def lastFound (find : Operand → Option Induction) (operands : List Operand) : Option Induction :=
  operands.foldl (fun found operand => (find operand).orElse (fun _ => found)) none

/-- `discover_post_test_inductions`, by instruction. -/
def postTestInduction (lowered : List LoweredInstr) (position : Nat) : Option Induction :=
  match lowered[position]? with
  | some instr => lastFound (postTestOperand lowered position) instr.operands
  | none => none

/-- The decrement right before an access: what precedes it. -/
def decrementBefore (gp : Gp) : Nat → List LoweredInstr → Option (List LoweredInstr)
  | _, [] => none
  | distance, instr :: earlier =>
    if lowerMnemonic instr = "dec" ∧ firstCell instr = some gp then some earlier
    else if writesGp instr gp then none
    else if 4 < distance then none
    else decrementBefore gp (distance + 1) earlier

/-- The back edge after an access. -/
def backEdgeAfter (gp : Gp) : List LoweredInstr → Bool
  | [] => false
  | instr :: rest =>
    let mnemonic := lowerMnemonic instr
    if ["jnz", "jne", "jns"].contains mnemonic then true
    else if writesGp instr gp || ["jmp", "ret", "jae", "jge", "je"].contains mnemonic then false
    else if ["call", "ja", "jb", "jg", "jl", "jle", "jbe"].contains mnemonic then false
    else backEdgeAfter gp rest

/-- The immediate in the second operand of an instruction on the register. -/
def assignedImmediate (instr : LoweredInstr) (gp : Gp) : Option Int64 :=
  if firstCell instr = some gp then
    match (instr.operands[1]? : Option Operand) with
    | some (.imm value) => some value
    | _ => none
  else none

/-- The initial value before a decrement. -/
def initialCount (gp : Gp) : List LoweredInstr → Option UInt64
  | [] => none
  | instr :: earlier =>
    let mnemonic := lowerMnemonic instr
    if mnemonic = "mov" ∨ mnemonic = "movabs" then
      match assignedImmediate instr gp with
      | some value => if 0 < value then some value.toUInt64 else none
      | none => if writesGp instr gp then none else initialCount gp earlier
    else if writesGp instr gp then none
    else initialCount gp earlier

/-- `countdown_bound_for_access`. -/
def countdownBound (lowered : List LoweredInstr) (position : Nat) (gp : Gp) : Option UInt64 :=
  match decrementBefore gp 1 (lowered.take position).reverse with
  | some earlier =>
    if backEdgeAfter gp (lowered.drop (position + 1)) then initialCount gp earlier else none
  | none => none

/-- The bound of `discover_countdown_inductions` at one memory operand. -/
def countdownOperand (lowered : List LoweredInstr) (position : Nat) (operand : Operand) :
    Option Induction :=
  match operand with
  | .mem mem =>
    (indexCell mem).bind
      (fun gp => (countdownBound lowered position gp).map (fun bound => (gp, bound)))
  | _ => none

/-- `discover_countdown_inductions`, by instruction. -/
def countdownInduction (lowered : List LoweredInstr) (position : Nat) : Option Induction :=
  match lowered[position]? with
  | some instr => lastFound (countdownOperand lowered position) instr.operands
  | none => none

/-- `branch_target_index`: the printed target is read as hexadecimal. -/
def branchTargetIndex (instr : PhysicalInstruction) (byAddress : UInt64 → Option Nat) :
    Option Nat :=
  match instr.operands.head? with
  | some operand =>
    let raw := Text.trimChars operand.toList
    let digits := (Text.stripPrefix "0x".toList raw).getD raw
    (Text.parseU64 16 digits).bind byAddress
  | none => none

/-- The body of a pre-test loop: whether an increment was seen and the indexed
accesses so far. -/
structure BodyScan where
  sawInc : Bool
  accesses : List Nat

/-- Whether some memory operand of the instruction is indexed by the register. -/
def indexedBy (instr : LoweredInstr) (gp : Gp) : Bool :=
  instr.operands.any (fun operand =>
    match operand with
    | .mem mem => indexCell mem == some gp
    | _ => false)

/-- One instruction of the body; a second increment or another write ends the
search. -/
def BodyScan.step (gp : Gp) (scan : BodyScan) (entry : LoweredInstr × Nat) : Option BodyScan :=
  let accesses := if indexedBy entry.1 gp then scan.accesses ++ [entry.2] else scan.accesses
  if writesGp entry.1 gp then
    let isInc := lowerMnemonic entry.1 == "inc" && firstCell entry.1 == some gp
    if !isInc || scan.sawInc then none else some ⟨true, accesses⟩
  else some ⟨scan.sawInc, accesses⟩

/-- The accesses that a pre-test loop with this header bounds. -/
def preTestLoop (lowered : List LoweredInstr) (physical : List PhysicalInstruction) (header : Nat) :
    Option (Induction × List Nat) := do
  let byAddress := Cfg.addrToInstr physical
  let cmp ← lowered[header]?
  if lowerMnemonic cmp ≠ "cmp" then none else do
  let (gp, bound) ← comparedBound cmp
  if !indexWasZeroInitialized lowered header gp then none else do
  let guard ← lowered[header + 1]?
  if !(["jae", "jnb", "jge"].contains (lowerMnemonic guard)) then none else do
  let guardPhysical ← physical[header + 1]?
  let exit ← branchTargetIndex guardPhysical byAddress
  if exit ≤ header + 2 ∨ lowered.length < exit then none else do
  let back ← lowered[exit - 1]?
  let backPhysical ← physical[exit - 1]?
  if lowerMnemonic back ≠ "jmp" ∨ branchTargetIndex backPhysical byAddress ≠ some header then none
  else do
  let body := (lowered.zipIdx.take (exit - 1)).drop (header + 2)
  let scan ← body.foldlM (BodyScan.step gp) ⟨false, []⟩
  if scan.sawInc then some ((gp, bound.toUInt64), scan.accesses) else none

/-- Positions with a value, each key holding the last value inserted. -/
def insertAll (found : Nat → Option Induction) (value : Induction) (keys : List Nat) :
    Nat → Option Induction :=
  fun position => if position ∈ keys then some value else found position

/-- `discover_cfg_pre_test_inductions`. -/
def cfgPreTestInductions (lowered : List LoweredInstr) (physical : List PhysicalInstruction) :
    Nat → Option Induction :=
  if physical.length ≠ lowered.length then fun _ => none
  else
    (List.range (lowered.length - 2)).foldl
      (fun found header =>
        match preTestLoop lowered physical header with
        | some (value, accesses) => insertAll found value accesses
        | none => found)
      (fun _ => none)

/-- `indexed_gp_in_access`. A memory operand without an index ends the search. -/
def indexedGpInAccess : List Operand → Option Gp
  | [] => none
  | .mem mem :: rest =>
    match mem.index with
    | none => none
    | some _ => (indexCell mem).orElse (fun _ => indexedGpInAccess rest)
  | _ :: rest => indexedGpInAccess rest

/-- The stretch of instructions between an access and its increment: the position
of the first one that writes the index, or one past the allowed stretch. -/
def stretchEnd (lowered : List LoweredInstr) (accessAt : Nat) (gp : Gp) : Nat → Nat → Nat
  | 0, position => position
  | fuel + 1, position =>
    match lowered[position]? with
    | none => position
    | some instr =>
      if writesGp instr gp then position
      else if 4 < position - accessAt then position
      else stretchEnd lowered accessAt gp fuel (position + 1)

/-- The bound that `discover_cfg_post_test_inductions` finds at an access. -/
def cfgPostTestInduction (lowered : List LoweredInstr) (physical : List PhysicalInstruction)
    (accessAt : Nat) : Option Induction :=
  if physical.length ≠ lowered.length ∨ lowered.length - 3 ≤ accessAt then none
  else do
  let byAddress := Cfg.addrToInstr physical
  let access ← lowered[accessAt]?
  let gp ← indexedGpInAccess access.operands
  if !indexWasZeroInitialized lowered accessAt gp then none else do
  let incAt := stretchEnd lowered accessAt gp lowered.length (accessAt + 1)
  let inc ← lowered[incAt]?
  let isInc := lowerMnemonic inc == "inc" && firstCell inc == some gp
  let isAdd1 := lowerMnemonic inc == "add" && addsOne inc gp
  if !isInc && !isAdd1 then none else do
  let branch ← lowered[incAt + 2]?
  let cmp ← lowered[incAt + 1]?
  if lowerMnemonic cmp ≠ "cmp" then none else do
  let (cell, bound) ← comparedBound cmp
  if cell ≠ gp ∨ !loopBranchMnemonics.contains (lowerMnemonic branch) then none else do
  let branchPhysical ← physical[incAt + 2]?
  if branchTargetIndex branchPhysical byAddress ≠ some accessAt then none
  else some (gp, bound.toUInt64)

/-- The fact attached to an instruction: the recognisers are asked in turn. -/
def inductionAt (lowered : List LoweredInstr) (physical : List PhysicalInstruction) (position : Nat) :
    Option Induction :=
  (postTestInduction lowered position).orElse (fun _ =>
    (countdownInduction lowered position).orElse (fun _ =>
      (cfgPreTestInductions lowered physical position).orElse (fun _ =>
        cfgPostTestInduction lowered physical position)))

end Semasm.Cli
