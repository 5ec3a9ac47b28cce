import Semasm.Cli.SettledIndex
import Semasm.Cli.SlotsPreserved
import Semasm.Contract.AccessBounds
import Semasm.X86.Accesses

/-!
# Recorded addresses against executed ones

An effect is true of an execution when the instruction it was recorded for
accesses memory at the recorded address, and when a verdict drawn from it places
every byte of the access in a permitting region. Along straight-line runs this
holds as long as no step takes one of the branches that leave a wrong fact.
-/

namespace Semasm.Cli

open Contract Decode Library X86

/-- The parameters at their entry values. -/
def entryAssignment (entry : String → Word) (lengths : String → Int) : Assignment where
  base := fun name => (entry name).toNat
  length := lengths

/-- The address belongs to the region, in an address space that wraps. -/
def InRegion (assignment : Assignment) (region : CheckedRegion) (address : Word) : Prop :=
  ∃ point ∈ (region.span assignment).members, BitVec.ofInt 64 point = address

/-- The recorded address is the executed one. -/
def AddressTrue (entry : String → Word) (regs : Gp → Word) (mem : MemOperand) (address : Word) :
    AccessAddr → Prop
  | .affine param offset => address = entry param + BitVec.ofInt 64 offset.toInt
  | .indexed param scale displacement const upper =>
    ∃ index cell, mem.index = some index ∧ index.storage = .gp cell ∧
      address = entry param + BitVec.ofNat 64 scale.toNat * regs cell +
        BitVec.ofInt 64 displacement.toInt ∧
      (∀ value, const = some value → (regs cell).toNat = value.toNat) ∧
      ∀ bound, upper = some bound → (regs cell).toNat < bound.toNat
  | .stackFrame | .unknown => True

/-- An inside verdict on the effect is true of an access at the address. -/
def VerdictTrue (entry : String → Word) (memory : CheckedMemory) (effect : ObservedMemoryAccess)
    (address : Word) : Prop :=
  ∀ row, judgeAccess memory effect = some row → row.bounds = .provenInside →
    row.permission = .allowed → ∀ lengths, ∃ region ∈ memory.regions,
      accessAllowed region.access effect.mode ∧
      ∀ byte < effect.widthBytes.toNat,
        InRegion (entryAssignment entry lengths) region (address + BitVec.ofNat 64 byte)

/-- The effect is true of the executed instruction. -/
def EffectTrue (entry : String → Word) (env : Environment) (state : State) (instr : LoweredInstr)
    (op : Op) (outcome : Outcome) (effect : ObservedMemoryAccess) : Prop :=
  ∃ mem access, .mem mem ∈ instr.operands ∧ access ∈ outcome.accesses ∧
    mem.address env (op.addressRegs state.regs instr.operands) = some access.address ∧
    effect.widthBytes = widthBytes access.width ∧
    AddressTrue entry state.regs mem access.address effect.addr ∧
    ∀ memory, FitsExactly memory effect → VerdictTrue entry memory effect access.address

/-- The operand is recorded at an offset from a parameter. -/
def Tracked (facts : Facts) (bounded : Option Induction) (mem : MemOperand) : Prop :=
  classifyAddr mem facts bounded ≠ .unknown ∧ classifyAddr mem facts bounded ≠ .stackFrame

/-- The branches of the classification that record a wrong address. -/
inductive Misaddresses (facts : Facts) (bounded : Option Induction) (earlier : List LoweredInstr)
    (instr : LoweredInstr) (op : Op) : Prop
  /-- A narrow view of a pointer register is taken for the pointer. -/
  | narrowBase (mem : MemOperand) (base : Register) (member : .mem mem ∈ instr.operands)
      (tracked : Tracked facts bounded mem) (based : mem.base = some base)
      (narrow : base.width ≠ .b64)
  /-- `pop` moves the stack pointer before it computes an address from it. -/
  | poppedBase (mem : MemOperand) (base : Register) (pop : op = .pop)
      (member : .mem mem ∈ instr.operands) (tracked : Tracked facts bounded mem)
      (based : mem.base = some base) (storage : base.storage = .gp .rsp)
  /-- The text overlooks a change of an index that a loop is taken to bound. -/
  | unsettledIndex (mem : MemOperand) (cell : Gp) (bound : UInt64)
      (member : .mem mem ∈ instr.operands) (tracked : Tracked facts bounded mem)
      (indexed : indexCell mem = some cell) (attached : bounded = some (cell, bound))
      (unsettled : settled cell earlier = none)

/-- The instruction before a position. -/
def instrBefore (lowered : List LoweredInstr) : Nat → Option LoweredInstr
  | 0 => none
  | position + 1 => lowered[position]?

/-- The step from a point takes none of the branches that go wrong. -/
def Judged (lowered : List LoweredInstr) (physical : List PhysicalInstruction)
    (contract : CheckedContract) (abi : AbiConvention) (envs : Nat → Environment) (point : Point) :
    Prop :=
  ∀ instr op, lowered[point.position]? = some instr → instr.op = some op →
    ¬ Misjudges (factsAt lowered contract abi point.position) (instrBefore lowered point.position)
        (envs point.position) point.state instr op ∧
      ¬ Misaddresses (factsAt lowered contract abi point.position)
        (inductionAt lowered physical point.position) (lowered.take point.position).reverse instr op

/-- The parameter registers hold the entry values. -/
def EntryAgrees (contract : CheckedContract) (abi : AbiConvention) (entry : String → Word)
    (start : State) : Prop :=
  ∀ pair ∈ contract.parameters.zip (parameterRegisters abi), pair.1.ty.isPtr = true →
    start.regs pair.2 = entry pair.1.name

/-- What holds between two instructions of a run. -/
structure FactsHold (lowered : List LoweredInstr) (contract : CheckedContract) (abi : AbiConvention)
    (entry : String → Word) (point : Point) : Prop where
  facts : (factsAt lowered contract abi point.position).Hold entry
    (instrBefore lowered point.position) point.state
  settles : ∀ cell value, settled cell (lowered.take point.position).reverse = some value →
    point.state.regs cell = value

/-- A seeded register is one of the parameter registers. -/
theorem seedParamAffinity_some (contract : CheckedContract) (abi : AbiConvention) (cell : Gp)
    (name : String) (seeded : seedParamAffinity contract abi cell = some name) :
    ∃ pair ∈ contract.parameters.zip (parameterRegisters abi), pair.1.ty.isPtr = true ∧
      pair.2 = cell ∧ pair.1.name = name := by
  unfold seedParamAffinity at seeded
  generalize contract.parameters.zip (parameterRegisters abi) = pairs at seeded ⊢
  have general : ∀ (rest : List (CheckedParam × Gp)) (before : Gp → Option String),
      rest.foldl (fun affinity pair =>
        if pair.1.ty.isPtr then Function.update affinity pair.2 (some pair.1.name) else affinity)
        before cell = some name →
      before cell = some name ∨ ∃ pair ∈ rest, pair.1.ty.isPtr = true ∧ pair.2 = cell ∧
        pair.1.name = name := by
    intro rest
    induction rest with
    | nil =>
      intro before same
      exact Or.inl same
    | cons pair rest inductionHypothesis =>
      intro before same
      rcases inductionHypothesis _ same with here | ⟨later, member, known⟩
      · dsimp only at here
        split_ifs at here with pointer
        · by_cases target : cell = pair.2
          · subst target
            rw [Function.update_self] at here
            exact Or.inr ⟨pair, by simp, pointer, rfl, Option.some.inj here⟩
          · rw [Function.update_of_ne target] at here
            exact Or.inl here
        · exact Or.inl here
      · exact Or.inr ⟨later, by simp [member], known⟩
  rcases general pairs _ seeded with impossible | found
  · cases impossible
  · exact found

/-- The facts at the entry are true. -/
theorem entryFacts_hold (contract : CheckedContract) (abi : AbiConvention) (entry : String → Word)
    (start : State) (agrees : EntryAgrees contract abi entry start) :
    (entryFacts contract abi).Hold entry none start := by
  constructor
  · intro cell
    constructor
    · intro param known
      obtain ⟨pair, member, pointer, rfl, rfl⟩ := seedParamAffinity_some contract abi cell param known
      exact agrees pair member pointer
    · intro value known
      cases known
    · intro bound known
      cases known
  · intro slot param known
    cases known
  · intro cell bound pending
    cases pending

/-- The facts stay true along a run. -/
theorem factsHold_of_reaches (lowered : List LoweredInstr) (physical : List PhysicalInstruction)
    (contract : CheckedContract) (abi : AbiConvention) (envs : Nat → Environment)
    (entry : String → Word) (start : State) (agrees : EntryAgrees contract abi entry start)
    (point : Point)
    (reached : Transitions.Reaches
      (Transitions.Under (Judged lowered physical contract abi envs) (StraightStep lowered envs))
      ⟨0, start⟩ point) : FactsHold lowered contract abi entry point := by
  induction reached with
  | start =>
    refine ⟨entryFacts_hold contract abi entry start agrees, ?_⟩
    intro cell value settles
    cases settles
  | @next point after before taken inductionHypothesis =>
    obtain ⟨judged, instr, outcome, found, executed, through, rfl⟩ := taken
    obtain ⟨op, known, ran⟩ := op_of_exec _ _ _ _ executed
    constructor
    · rw [factsAt_succ lowered contract abi point.position instr found]
      have kept := facts_preserved _ _ _ _ instr op outcome inductionHypothesis.facts
        (judged instr op found known).1 ran known through
      simpa only [instrBefore, found] using kept
    · intro cell value settles
      rw [List.take_add_one, found, Option.toList_some, List.reverse_append,
        List.reverse_singleton, List.singleton_append] at settles
      exact settled_step cell _ _ _ instr outcome executed (inductionHypothesis.settles cell) value
        settles

/-- A recorded effect comes from a memory operand. -/
theorem mem_recordAccesses (instr : LoweredInstr) (facts : Facts) (bounded : Option Induction)
    (effect : ObservedMemoryAccess) (recorded : effect ∈ recordAccesses instr facts bounded) :
    ∃ mem position, (.mem mem, position) ∈ instr.operands.zipIdx ∧
      accessMode (lowerMnemonic instr) position instr = some effect.mode ∧
      effect.widthBytes = widthBytes mem.width ∧ effect.addr = classifyAddr mem facts bounded := by
  obtain ⟨⟨operand, position⟩, member, made⟩ := List.mem_filterMap.mp recorded
  unfold operandEffect at made
  split at made
  next mem shape =>
    obtain ⟨mode, moded, rfl⟩ := Option.map_eq_some_iff.mp made
    have same : operand = .mem mem := shape
    subst same
    exact ⟨mem, position, member, moded, rfl, rfl⟩
  next => cases made

/-- `lea` records no effect. -/
theorem op_ne_lea (instr : LoweredInstr) (op : Op) (known : instr.op = some op) (position : Nat)
    (mode : AccessMode) (moded : accessMode (lowerMnemonic instr) position instr = some mode) :
    op ≠ .lea := by
  rintro rfl
  have name := Op.ofMnemonic_forall (fun mnemonic op => op = .lea → mnemonic = "lea") (by decide)
    _ _ known rfl
  have same : lowerMnemonic instr = "lea" := name
  simp [accessMode, same] at moded

/-- The index facts recorded at an access hold of the index. -/
theorem indexFacts_true (entry : String → Word) (facts : Facts) (bounded : Option Induction)
    (index : Register) (cell : Gp) (value : Word) (const upper : Option UInt64)
    (storage : index.storage = .gp cell) (holds : CellTrue entry facts cell value)
    (bound : ∀ limit, bounded = some (cell, limit) → value.toNat < limit.toNat)
    (recorded : indexFacts facts bounded index = (const, upper)) :
    (∀ known, const = some known → value.toNat = known.toNat) ∧
      ∀ limit, upper = some limit → value.toNat < limit.toNat := by
  simp only [indexFacts, storage] at recorded
  split at recorded
  next other limit filtered =>
    obtain ⟨attached, same⟩ := Option.filter_eq_some_iff.mp filtered
    have target : other = cell := by simpa using same
    subst target
    cases recorded
    refine ⟨nofun, ?_⟩
    intro found same
    cases same
    exact bound _ attached
  next =>
    split at recorded
    next known held =>
      cases recorded
      refine ⟨?_, nofun⟩
      intro found same
      cases same
      exact holds.const _ held
    next =>
      cases recorded
      exact ⟨nofun, holds.upper⟩

/-- The recorded address of an operand is the executed one. -/
theorem address_true (entry : String → Word) (facts : Facts) (previous : Option LoweredInstr)
    (bounded : Option Induction) (earlier : List LoweredInstr) (env : Environment) (state : State)
    (instr : LoweredInstr) (op : Op) (mem : MemOperand) (address : Word)
    (held : facts.Hold entry previous state)
    (member : .mem mem ∈ instr.operands)
    (bound : Tracked facts bounded mem → ∀ cell limit, indexCell mem = some cell →
      bounded = some (cell, limit) → (state.regs cell).toNat < limit.toNat)
    (judged : ¬ Misaddresses facts bounded earlier instr op)
    (located : mem.address env (op.addressRegs state.regs instr.operands) = some address) :
    AddressTrue entry state.regs mem address (classifyAddr mem facts bounded) := by
  have based : Tracked facts bounded mem → ∀ base cell param, mem.base = some base →
      base.storage = .gp cell → facts.affinity cell = some param → base.width = .b64 ∧
        op.addressRegs state.regs instr.operands cell = entry param := by
    intro tracked base cell param named storage known
    constructor
    · by_contra narrow
      exact judged (.narrowBase mem base member tracked named narrow)
    · rw [op.addressRegs_kept state.regs instr.operands cell]
      · exact (held.cells cell).affinity param known
      · by_contra popped
        rw [not_or, not_not, not_not] at popped
        obtain ⟨rfl, pop⟩ := popped
        exact judged (.poppedBase mem base pop member tracked named storage)
  cases classified : classifyAddr mem facts bounded with
  | affine param offset =>
    obtain ⟨base, cell, named, storage, plain, known, rfl⟩ :=
      classifyAddr_affine mem facts bounded param offset classified
    have tracked : Tracked facts bounded mem := by simp [Tracked, classified]
    obtain ⟨wide, value⟩ := based tracked base cell param named storage known
    have place := mem.address_base env _ base cell address named storage wide plain located
    rw [value] at place
    exact place
  | indexed param scale displacement const upper =>
    obtain ⟨base, cell, index, named, storage, indexed, known, rfl, rfl, recorded⟩ :=
      classifyAddr_indexed mem facts bounded param scale displacement const upper classified
    have tracked : Tracked facts bounded mem := by simp [Tracked, classified]
    obtain ⟨wide, value⟩ := based tracked base cell param named storage known
    obtain ⟨held', indexStorage, notStack, _, encodable, place⟩ :=
      mem.address_indexed env _ base index cell address named storage wide indexed located
    have scaled : max mem.scale 1 = mem.scale := by
      simp only [List.mem_cons, List.not_mem_nil, or_false] at encodable
      rcases encodable with scale | scale | scale | scale <;> rw [scale] <;> rfl
    rw [value, op.addressRegs_kept _ _ held' (Or.inl notStack)] at place
    refine ⟨index, held', indexed, indexStorage, by rw [scaled]; exact place, ?_⟩
    exact indexFacts_true entry facts bounded index held' _ const upper indexStorage
      (held.cells held') (fun limit attached =>
        bound tracked held' limit (by simp [indexCell, indexed, indexStorage]) attached) recorded
  | stackFrame => trivial
  | unknown => trivial

/-- A region that fits an access holds its bytes at the executed address. -/
theorem inRegion_of_fits (entry : String → Word) (lengths : String → Int) (region : CheckedRegion)
    (mode : AccessMode) (param : String) (offset : Int) (width : UInt32) (address : Word)
    (fits : region.Fits mode param offset width)
    (place : address = entry param + BitVec.ofInt 64 offset) (byte : Nat) (inside : byte < width.toNat) :
    InRegion (entryAssignment entry lengths) region (address + BitVec.ofNat 64 byte) := by
  have covers := covers_of_fits region mode param offset width (entryAssignment entry lengths) fits
  refine ⟨(entry param).toNat + offset + byte, covers ?_, ?_⟩
  · rw [Span.mem_members]
    simp only [accessSpan, entryAssignment]
    omega
  · rw [BitVec.ofInt_add, BitVec.ofInt_add, BitVec.ofInt_natCast, BitVec.ofInt_natCast,
      BitVec.ofNat_toNat, BitVec.setWidth_eq, ← place]

/-- An inside verdict on a true address is true. -/
theorem verdict_true (entry : String → Word) (regs : Gp → Word) (mem : MemOperand) (address : Word)
    (memory : CheckedMemory) (effect : ObservedMemoryAccess)
    (addressed : AddressTrue entry regs mem address effect.addr)
    (exact : FitsExactly memory effect) : VerdictTrue entry memory effect address := by
  intro row judged inside allowed lengths
  rcases exact with empty | fits
  · obtain ⟨region, declared, permitted⟩ :=
      judgeAccess_permitted memory effect row judged inside allowed
    refine ⟨region, declared, permitted, ?_⟩
    intro byte below
    simp [empty] at below
  · cases shape : effect.addr with
    | affine param offset =>
      rw [shape] at addressed fits
      obtain ⟨region, declared, fit⟩ := fits 0 param offset.toInt trivial rfl
      exact ⟨region, declared, fit.2.1,
        inRegion_of_fits entry lengths region _ _ _ _ address fit addressed⟩
    | indexed param scale displacement const upper =>
      rw [shape] at addressed fits
      obtain ⟨index, cell, _, _, place, known, below⟩ := addressed
      let value : UInt64 := ⟨regs cell⟩
      have number : value.toNat = (regs cell).toNat := rfl
      obtain ⟨region, declared, fit⟩ := fits value param _
        ⟨fun constant same => UInt64.toNat_inj.mp (known constant same),
          fun limit same => UInt64.lt_iff_toNat_lt.mpr (below limit same)⟩ rfl
      refine ⟨region, declared, fit.2.1, inRegion_of_fits entry lengths region _ _ _ _ address fit ?_⟩
      rw [place, BitVec.ofInt_add, BitVec.ofInt_mul, BitVec.ofInt_natCast, BitVec.ofInt_natCast,
        number, BitVec.ofNat_toNat, BitVec.setWidth_eq, BitVec.mul_comm, BitVec.add_assoc]
    | stackFrame =>
      rw [judgeAccess, shape] at judged
      cases judged
    | unknown =>
      rw [judgeAccess, shape] at judged
      cases judged
      cases inside

/-- Where the facts hold and the step takes no branch that goes wrong, a recorded
effect is true. -/
theorem effectTrue_of_factsHold (lowered : List LoweredInstr) (physical : List PhysicalInstruction)
    (contract : CheckedContract) (abi : AbiConvention) (envs : Nat → Environment)
    (entry : String → Word) (straight : StraightLine lowered physical) (point : Point)
    (holds : FactsHold lowered contract abi entry point)
    (judged : Judged lowered physical contract abi envs point) (instr : LoweredInstr) (op : Op)
    (outcome : Outcome) (found : lowered[point.position]? = some instr) (known : instr.op = some op)
    (executed : exec (envs point.position) instr point.state = some outcome)
    (effect : ObservedMemoryAccess)
    (recorded : effect ∈ effectsAt lowered physical contract abi point.position) :
    EffectTrue entry (envs point.position) point.state instr op outcome effect := by
  obtain ⟨_, same, ran⟩ := op_of_exec _ _ _ _ executed
  rw [known] at same
  cases same
  simp only [effectsAt, found] at recorded
  obtain ⟨mem, position, listed, moded, width, addressed⟩ := mem_recordAccesses instr _ _ effect recorded
  have member : .mem mem ∈ instr.operands := (List.mem_zipIdx' listed).2 ▸ List.getElem_mem _
  obtain ⟨mode, touched⟩ := op.mem_touches _ _ instr.operands outcome ran
    (op_ne_lea instr op known position _ moded) mem member
  obtain ⟨address, located, accessed⟩ :=
    touched_address _ _ _ _ (op.exec_accesses _ _ instr.operands outcome ran) mem mode touched
  have fine := judged instr op found known
  have placed : AddressTrue entry point.state.regs mem address effect.addr := by
    rw [addressed]
    refine address_true entry _ _ _ _ _ _ instr op mem address holds.facts member ?_ fine.2 located
    intro tracked cell limit indexed attached
    cases settles : settled cell (lowered.take point.position).reverse with
    | none =>
      exact absurd (.unsettledIndex mem cell limit member tracked indexed attached settles) fine.2
    | some value =>
      rw [holds.settles cell value settles]
      exact inductionAt_settled lowered physical straight point.position cell limit value attached
        settles
  exact ⟨mem, ⟨mode, address, mem.width⟩, member, accessed, located, width, placed,
    fun memory exact => verdict_true entry _ mem address memory effect placed exact⟩

/-- Along a straight-line run in which no step takes a branch that goes wrong,
every recorded effect is true of the instruction it was recorded for.

Proof: the facts hold in every reached state, since each step keeps them. There
the address computed from them is the executed one, and a bound attached by a
loop recogniser holds because the index is settled by the text. -/
theorem effects_true_along_runs (lowered : List LoweredInstr) (physical : List PhysicalInstruction)
    (contract : CheckedContract) (abi : AbiConvention) (envs : Nat → Environment)
    (entry : String → Word) (start : State) (straight : StraightLine lowered physical)
    (agrees : EntryAgrees contract abi entry start) (point : Point)
    (reached : Transitions.Reaches
      (Transitions.Under (Judged lowered physical contract abi envs) (StraightStep lowered envs))
      ⟨0, start⟩ point)
    (judged : Judged lowered physical contract abi envs point) (instr : LoweredInstr) (op : Op)
    (outcome : Outcome) (found : lowered[point.position]? = some instr) (known : instr.op = some op)
    (executed : exec (envs point.position) instr point.state = some outcome)
    (effect : ObservedMemoryAccess)
    (recorded : effect ∈ effectsAt lowered physical contract abi point.position) :
    EffectTrue entry (envs point.position) point.state instr op outcome effect :=
  effectTrue_of_factsHold lowered physical contract abi envs entry straight point
    (factsHold_of_reaches lowered physical contract abi envs entry start agrees point reached)
    judged instr op outcome found known executed effect recorded

/-- Every effect recorded for a straight-line text is true on every run. -/
def CollectorSound (lowered : List LoweredInstr) (physical : List PhysicalInstruction)
    (contract : CheckedContract) (abi : AbiConvention) : Prop :=
  ∀ envs entry start, EntryAgrees contract abi entry start →
    ∀ point, Transitions.Reaches (StraightStep lowered envs) ⟨0, start⟩ point →
      ∀ instr op outcome, lowered[point.position]? = some instr → instr.op = some op →
        exec (envs point.position) instr point.state = some outcome →
        ∀ effect ∈ effectsAt lowered physical contract abi point.position,
          EffectTrue entry (envs point.position) point.state instr op outcome effect

/-- A read of one byte through a pointer. -/
def readByte : LoweredInstr :=
  ⟨"mov", .store, .b8, none, [.reg Gp.rax.low8, .mem ⟨some Gp.rdi.full, none, 1, 0, .b8⟩]⟩

def readBytePhysical : List PhysicalInstruction :=
  [⟨0, [0x8A, 0x07], "mov", ["al", "byte ptr [rdi]"], [], [], [], false⟩]

/-- The pointer is moved by one and then read through. -/
def bumpedRead : List LoweredInstr := [⟨"inc", .binary, .b64, none, [.reg Gp.rdi.full]⟩, readByte]

def bumpedReadPhysical : List PhysicalInstruction :=
  [⟨0, [0x48, 0xFF, 0xC7], "inc", ["rdi"], [], [], [], false⟩,
   ⟨3, [0x8A, 0x07], "mov", ["al", "byte ptr [rdi]"], [], [], [], false⟩]

/-- One readable byte at a pointer parameter. -/
def oneByte : CheckedMemory := ⟨[⟨"byte", "p", 0, .literal 1, .read⟩], []⟩

/-- A function with that parameter. -/
def readOneByte : CheckedContract where
  name := "first"
  parameters := [⟨"p", .ptr (.uint 8) true, none⟩]
  returns := []
  requires := []
  ensures := []
  effects := []
  memory := some oneByte

/-- Every register holds one address. -/
def sameRegisters : State := ⟨fun _ => 0x1000, fun _ => 0, ⟨false, false, false, false, false⟩⟩

def nothingOutside : Environment := ⟨0, sameRegisters, sameRegisters.flags⟩

example : bumpedReadPhysical.map lower = bumpedRead.map .lowered := by decide

theorem readOneByte_agrees :
    EntryAgrees readOneByte .sysV (fun _ => 0x1000) sameRegisters := by
  intro pair member pointer
  rfl

/-- The read is recorded at the parameter and judged inside, and reads the byte
behind it. -/
theorem moved_pointer_is_recorded_unmoved :
    StraightLine bumpedRead bumpedReadPhysical ∧
      ¬ CollectorSound bumpedRead bumpedReadPhysical readOneByte .sysV ∧
      ∃ effect ∈ effectsAt bumpedRead bumpedReadPhysical readOneByte .sysV 1,
        FitsExactly oneByte effect ∧ ¬ VerdictTrue (fun _ => 0x1000) oneByte effect 0x1001 := by
  have recorded : effectsAt bumpedRead bumpedReadPhysical readOneByte .sysV 1 =
      [⟨.load, 1, .affine "p" 0, "mov", 0⟩] := by decide
  refine ⟨?_, ?_, ?_⟩
  · intro position instr jump found _ named
    match position with
    | 0 =>
      cases found
      exact absurd named (by decide)
    | 1 =>
      cases found
      exact absurd named (by decide)
    | position + 2 => cases found
  · intro sound
    have reached : Transitions.Reaches (StraightStep bumpedRead (fun _ => nothingOutside))
        ⟨0, sameRegisters⟩
        ⟨1, (Outcome.mk [] [.reg Gp.rdi.full 0x1001] sameRegisters.flags .goOn).result
          sameRegisters⟩ :=
      .next .start ⟨_, _, rfl, rfl, rfl, rfl⟩
    obtain ⟨mem, access, _, accessed, _, _, addressed, _⟩ := sound (fun _ => nothingOutside) _
      sameRegisters readOneByte_agrees _ reached readByte .move
      ⟨[⟨.load, 0x1001, .b8⟩], [.reg Gp.rax.low8 0], sameRegisters.flags, .goOn⟩ rfl (by decide) rfl
      ⟨.load, 1, .affine "p" 0, "mov", 0⟩ (by rw [recorded]; simp)
    obtain rfl := List.mem_singleton.mp accessed
    have place : (0x1001 : Word) = 0x1000 + BitVec.ofInt 64 0 := addressed
    exact absurd place (by decide)
  · refine ⟨_, by rw [recorded]; exact List.mem_singleton_self _, Or.inr ?_, ?_⟩
    · intro index baseParam offset _ same
      cases same
      exact ⟨_, List.mem_singleton_self _, rfl, rfl, 1, rfl, by decide, by decide⟩
    · intro holds
      obtain ⟨region, declared, _, inside⟩ := holds _ rfl (by decide) (by decide) (fun _ => 0)
      obtain rfl := List.mem_singleton.mp declared
      obtain ⟨point, ⟨above, below⟩, same⟩ := inside 0 (by decide)
      have only : point = 0x1000 := by
        have start : (0x1000 : Int) ≤ point := above
        have stop : point < 0x1001 := below
        omega
      rw [only] at same
      exact absurd same (by decide)

theorem readByte_straight : StraightLine [readByte] readBytePhysical := by
  intro position instr jump found _ named
  match position with
  | 0 =>
    cases found
    exact absurd named (by decide)
  | position + 1 => cases found

/-- The single read takes none of the branches that go wrong. -/
theorem readByte_judged :
    Judged [readByte] readBytePhysical readOneByte .sysV (fun _ => nothingOutside)
      ⟨0, sameRegisters⟩ := by
  intro instr op found known
  cases found
  have move : op = .move := by
    have named : readByte.op = some .move := by decide
    rw [named] at known
    exact (Option.some.inj known).symm
  subst move
  constructor
  · intro wrong
    cases wrong <;> simp_all [readByte, factsAt, entryFacts, armOf, Facts.Keeps]
  · have only : ∀ mem, .mem mem ∈ readByte.operands →
        mem = ⟨some Gp.rdi.full, none, 1, 0, .b8⟩ := by
      intro mem member
      simpa [readByte] using member
    rintro (⟨mem, base, member, _, based, narrow⟩ | ⟨_, _, pop⟩ | ⟨mem, _, _, member, _, indexed, _⟩)
    · rw [only mem member] at based
      cases based
      exact narrow rfl
    · cases pop
    · rw [only mem member] at indexed
      cases indexed

/-- The read without the increment is recorded truly. -/
theorem readByte_effects_true :
    EffectTrue (fun _ => 0x1000) nothingOutside sameRegisters readByte .move
      ⟨[⟨.load, 0x1000, .b8⟩], [.reg Gp.rax.low8 0], sameRegisters.flags, .goOn⟩
      ⟨.load, 1, .affine "p" 0, "mov", 0⟩ :=
  effects_true_along_runs [readByte] readBytePhysical readOneByte .sysV (fun _ => nothingOutside)
    (fun _ => 0x1000) sameRegisters readByte_straight readOneByte_agrees ⟨0, sameRegisters⟩ .start
    readByte_judged readByte .move _ rfl (by decide) rfl _ (by decide)

end Semasm.Cli
