import Semasm.Cli.Inductions
import Semasm.Contract.Alias

/-!
# The memory-effect collector

The collector walks once over the lowered instructions and keeps facts: which
register or stack slot still holds an entry pointer, which register holds a known
constant, and which one is below a bound that a guard has established. Each
memory operand is recorded with the address these facts give it.
-/

namespace Semasm.Cli

open Contract Decode X86

/-- Calling convention used to seed entry-parameter affinities. -/
inductive AbiConvention where
  | sysV | win64
deriving DecidableEq, Repr

/-- A stack slot, by frame register and displacement. -/
inductive FrameSlot where
  | rbp (disp : Int64)
  | rsp (disp : Int64)
deriving DecidableEq, Repr

/-- What the collector knows between two instructions. -/
structure Facts where
  affinity : Gp → Option String
  stackSlots : FrameSlot → Option String
  consts : Gp → Option UInt64
  uppers : Gp → Option UInt64
  pendingCmp : Option (Gp × UInt64)

/-- `is_stack_frame`. -/
def isStackFrame (mem : MemOperand) : Bool :=
  match mem.base with
  | some base => (base.storage == .gp .rsp || base.storage == .gp .rbp) && mem.index.isNone
  | none => false

/-- `frame_slot`. -/
def frameSlot (mem : MemOperand) : Option FrameSlot :=
  match mem.index, mem.base with
  | none, some base =>
    match base.storage with
    | .gp .rbp => some (.rbp mem.disp)
    | .gp .rsp => some (.rsp mem.disp)
    | _ => none
  | _, _ => none

/-- The index facts attached to an access: an induction bound first, then a known
constant, then a bound from a guard. -/
def indexFacts (facts : Facts) (bounded : Option Induction) (index : Register) :
    Option UInt64 × Option UInt64 :=
  match index.storage with
  | .gp cell =>
    match bounded.filter (fun entry => entry.1 == cell) with
    | some (_, bound) => (none, some bound)
    | none =>
      match facts.consts cell with
      | some value => (some value, none)
      | none => (none, facts.uppers cell)
  | _ => (none, none)

/-- `classify_addr`. -/
def classifyAddr (mem : MemOperand) (facts : Facts) (bounded : Option Induction) : AccessAddr :=
  if isStackFrame mem then .stackFrame
  else
    match mem.base with
    | none => .unknown
    | some base =>
      match base.storage with
      | .gp cell =>
        match facts.affinity cell with
        | none => .unknown
        | some param =>
          match mem.index with
          | some index =>
            let known := indexFacts facts bounded index
            .indexed param (max mem.scale 1) mem.disp known.1 known.2
          | none => .affine param mem.disp
      | _ => .unknown

/-- Mnemonics that move between operands. -/
def moveMnemonics : List String := ["mov", "movabs", "movzx", "movsx", "movsxd"]

/-- Mnemonics recorded as stores whatever the operand. -/
def storingMnemonics : List String := ["push", "stosb", "stosw", "stosd", "stosq"]

/-- Mnemonics that modify their first operand. -/
def modifyingMnemonics : List String :=
  ["add", "sub", "adc", "sbb", "and", "or", "xor", "inc", "dec", "not", "neg", "shl", "shr", "sal",
   "sar", "rol", "ror", "xchg"]

/-- `access_mode`, at an operand that refers to memory. -/
def accessMode (mnemonic : String) (operandIndex : Nat) (instr : LoweredInstr) :
    Option AccessMode :=
  let memoryAt := fun (position : Nat) => instr.operands[position]?.any Operand.isMem
  if mnemonic = "lea" then none
  else if moveMnemonics.contains mnemonic then
    if operandIndex = 0 then (if memoryAt 0 then some .store else none)
    else if memoryAt 1 then some .load
    else none
  else if storingMnemonics.contains mnemonic then some .store
  else if modifyingMnemonics.contains mnemonic then
    if operandIndex = 0 ∧ memoryAt 0 then some .store
    else if memoryAt operandIndex then some .load
    else none
  else some .load

/-- `width_bytes`. -/
def widthBytes (width : Width) : UInt32 := UInt32.ofNat width.bytes

/-- The effect recorded for one operand. -/
def operandEffect (instr : LoweredInstr) (facts : Facts) (bounded : Option Induction)
    (entry : Operand × Nat) : Option ObservedMemoryAccess :=
  match entry.1 with
  | .mem mem =>
    (accessMode (lowerMnemonic instr) entry.2 instr).map (fun mode =>
      { mode := mode
        widthBytes := widthBytes mem.width
        addr := classifyAddr mem facts bounded
        mnemonic := lowerMnemonic instr
        instructionOffset := 0 })
  | _ => none

/-- `record_accesses`. -/
def recordAccesses (instr : LoweredInstr) (facts : Facts) (bounded : Option Induction) :
    List ObservedMemoryAccess :=
  instr.operands.zipIdx.filterMap (operandEffect instr facts bounded)

/-- What an instruction does to the facts, by mnemonic. -/
inductive UpdateArm where
  | cmp | guard | branch | move | lea | xor | clear | arithmetic | other
deriving DecidableEq, Repr

/-- The arm of `update_affinity` for a mnemonic. -/
def updateArm (mnemonic : String) : UpdateArm :=
  match mnemonic with
  | "cmp" => .cmp
  | "jae" | "jnb" | "jge" => .guard
  | "ja" | "jb" | "jbe" | "jg" | "jl" | "jle" | "je" | "jne" | "jz" | "jnz" | "jmp" => .branch
  | "mov" | "movabs" => .move
  | "lea" => .lea
  | "xor" => .xor
  | "pop" | "movzx" | "movsx" | "movsxd" | "and" | "or" | "imul" | "mul" | "div" | "idiv" | "neg"
  | "not" => .clear
  | "inc" | "dec" | "add" | "sub" | "adc" | "sbb" | "shl" | "shr" | "sal" | "sar" | "rol"
  | "ror" => .arithmetic
  | _ => .other

namespace Facts

/-- The facts with those of one cell replaced. -/
def withCell (facts : Facts) (cell : Gp) (affinity : Option String) (const upper : Option UInt64) :
    Facts :=
  { facts with
    affinity := Function.update facts.affinity cell affinity
    consts := Function.update facts.consts cell const
    uppers := Function.update facts.uppers cell upper }

/-- The facts with those of one cell dropped. -/
def forget (facts : Facts) (cell : Gp) : Facts := facts.withCell cell none none none

/-- The facts without a pending comparison. -/
def settle (facts : Facts) : Facts := { facts with pendingCmp := none }

/-- A nonnegative immediate. -/
def unsignedImmediate (value : Int64) : Option UInt64 :=
  if 0 ≤ value then some value.toUInt64 else none

/-- The arm for comparisons. -/
def compare (facts : Facts) (operands : List Operand) : Facts :=
  let pending := match operands with
    | .reg register :: .imm bound :: _ =>
      match register.storage with
      | .gp cell => (unsignedImmediate bound).map (fun value => (cell, value))
      | _ => none
    | _ => none
  { facts with pendingCmp := pending }

/-- The arm for guards: falling through puts the compared register below the
immediate. -/
def guarded (facts : Facts) : Facts :=
  match facts.pendingCmp with
  | some (cell, bound) =>
    { facts with
      uppers := Function.update facts.uppers cell (some bound)
      pendingCmp := none }
  | none => facts

/-- The facts of a cell after a move into it. -/
def assigned (facts : Facts) (cell : Gp) (src : Option Operand) : Facts :=
  match src with
  | some (.reg register) =>
    match register.storage with
    | .gp origin => facts.withCell cell (facts.affinity origin) (facts.consts origin) (facts.uppers origin)
    | _ => facts.forget cell
  | some (.imm value) => facts.withCell cell none (unsignedImmediate value) none
  | some (.mem mem) => facts.withCell cell ((frameSlot mem).bind facts.stackSlots) none none
  | none => facts.forget cell

/-- The arm for moves. -/
def moved (facts : Facts) (operands : List Operand) : Facts :=
  match operands with
  | .mem mem :: .reg src :: _ =>
    match frameSlot mem, src.storage with
    | some slot, .gp origin =>
      { facts with
        stackSlots := Function.update facts.stackSlots slot (facts.affinity origin) }
    | _, _ => facts
  | .reg dst :: rest =>
    match dst.storage with
    | .gp cell => facts.assigned cell rest.head?
    | _ => facts
  | _ => facts

/-- The arm for `lea`: the cell takes the base parameter of an affine address. -/
def leaArm (facts : Facts) (operands : List Operand) : Facts :=
  match operands with
  | .reg dst :: rest =>
    match dst.storage with
    | .gp cell =>
      let base := match rest.head? with
        | some (.mem mem) =>
          match classifyAddr mem facts none with
          | .affine baseParam _ => some baseParam
          | _ => none
        | _ => none
      facts.withCell cell base none none
    | _ => facts
  | _ => facts

/-- The arm for `xor`: a register with itself gives zero. -/
def xorArm (facts : Facts) (operands : List Operand) : Facts :=
  match operands with
  | .reg dst :: .reg src :: _ =>
    match dst.storage, src.storage with
    | .gp cell, .gp other =>
      if cell = other then facts.withCell cell none (some 0) none else facts.forget cell
    | _, _ => facts
  | .reg dst :: _ =>
    match dst.storage with
    | .gp cell => facts.forget cell
    | _ => facts
  | _ => facts

end Facts

/-- `update_affinity`. -/
def updateAffinity (facts : Facts) (instr : LoweredInstr) : Facts :=
  match updateArm (lowerMnemonic instr) with
  | .cmp => facts.compare instr.operands
  | .guard => facts.guarded
  | .branch => facts.settle
  | .move => facts.settle.moved instr.operands
  | .lea => facts.settle.leaArm instr.operands
  | .xor => facts.settle.xorArm instr.operands
  | .clear =>
    match firstCell instr with
    | some cell => facts.settle.forget cell
    | none => facts.settle
  | .arithmetic =>
    match firstCell instr with
    | some cell => facts.settle.withCell cell (facts.affinity cell) none none
    | none => facts.settle
  | .other => facts.settle

/-- Parameter registers of a calling convention. -/
def parameterRegisters : AbiConvention → List Gp
  | .sysV => [.rdi, .rsi, .rdx, .rcx, .r8, .r9]
  | .win64 => [.rcx, .rdx, .r8, .r9]

/-- `seed_param_affinity`. -/
def seedParamAffinity (contract : CheckedContract) (abi : AbiConvention) : Gp → Option String :=
  (contract.parameters.zip (parameterRegisters abi)).foldl
    (fun affinity entry =>
      if entry.1.ty.isPtr then Function.update affinity entry.2 (some entry.1.name) else affinity)
    (fun _ => none)

/-- The facts at the entry of the function. -/
def entryFacts (contract : CheckedContract) (abi : AbiConvention) : Facts :=
  ⟨seedParamAffinity contract abi, fun _ => none, fun _ => none, fun _ => none, none⟩

/-- The loop of the collector, from a position on. -/
def collectFrom (inductions : Nat → Option Induction) :
    List LoweredInstr → Nat → Facts → List ObservedMemoryAccess
  | [], _, _ => []
  | instr :: rest, position, facts =>
    recordAccesses instr facts (inductions position) ++
      collectFrom inductions rest (position + 1) (updateAffinity facts instr)

/-- `collect_memory_effects_with_cfg`. -/
def collectMemoryEffectsWithCfg (lowered : List LoweredInstr) (physical : List PhysicalInstruction)
    (contract : CheckedContract) (abi : AbiConvention) : List ObservedMemoryAccess :=
  collectFrom (inductionAt lowered physical) lowered 0 (entryFacts contract abi)

/-- The facts before the instruction at a position. -/
def factsAt (lowered : List LoweredInstr) (contract : CheckedContract) (abi : AbiConvention)
    (position : Nat) : Facts :=
  (lowered.take position).foldl updateAffinity (entryFacts contract abi)

/-- The effects recorded for the instruction at a position. -/
def effectsAt (lowered : List LoweredInstr) (physical : List PhysicalInstruction)
    (contract : CheckedContract) (abi : AbiConvention) (position : Nat) :
    List ObservedMemoryAccess :=
  match lowered[position]? with
  | some instr =>
    recordAccesses instr (factsAt lowered contract abi position)
      (inductionAt lowered physical position)
  | none => []

theorem factsAt_succ (lowered : List LoweredInstr) (contract : CheckedContract)
    (abi : AbiConvention) (position : Nat) (instr : LoweredInstr)
    (found : lowered[position]? = some instr) :
    factsAt lowered contract abi (position + 1) =
      updateAffinity (factsAt lowered contract abi position) instr := by
  unfold factsAt
  rw [List.take_add_one, found, Option.toList_some, List.foldl_append]
  rfl

/-- The recorded effects are those of the instructions, position by position. -/
theorem mem_collect_iff (lowered : List LoweredInstr) (physical : List PhysicalInstruction)
    (contract : CheckedContract) (abi : AbiConvention) (effect : ObservedMemoryAccess) :
    effect ∈ collectMemoryEffectsWithCfg lowered physical contract abi ↔
      ∃ position, effect ∈ effectsAt lowered physical contract abi position := by
  have general : ∀ (rest : List LoweredInstr) (done : Nat), rest = lowered.drop done →
      (effect ∈ collectFrom (inductionAt lowered physical) rest done
          (factsAt lowered contract abi done) ↔
        ∃ position, done ≤ position ∧ effect ∈ effectsAt lowered physical contract abi position) := by
    intro rest
    induction rest with
    | nil =>
      intro done suffix
      have bound : lowered.length ≤ done := List.drop_eq_nil_iff.mp suffix.symm
      simp only [collectFrom, List.not_mem_nil, false_iff]
      rintro ⟨position, after, member⟩
      rw [effectsAt, List.getElem?_eq_none (by omega)] at member
      cases member
    | cons instr rest inductionHypothesis =>
      intro done suffix
      have found : lowered[done]? = some instr := by
        rw [← List.head?_drop, ← suffix, List.head?_cons]
      have later : rest = lowered.drop (done + 1) := by
        rw [← List.tail_drop, ← suffix, List.tail_cons]
      rw [collectFrom, ← factsAt_succ lowered contract abi done instr found, List.mem_append,
        inductionHypothesis (done + 1) later]
      have here : recordAccesses instr (factsAt lowered contract abi done)
          (inductionAt lowered physical done) = effectsAt lowered physical contract abi done := by
        rw [effectsAt, found]
      rw [here]
      constructor
      · rintro (now | ⟨position, after, member⟩)
        · exact ⟨done, Nat.le_refl _, now⟩
        · exact ⟨position, by omega, member⟩
      · rintro ⟨position, after, member⟩
        rcases Nat.eq_or_lt_of_le after with rfl | strictly
        · exact Or.inl member
        · exact Or.inr ⟨position, strictly, member⟩
  have whole := general lowered 0 rfl
  simpa [collectMemoryEffectsWithCfg, factsAt] using whole

end Semasm.Cli
