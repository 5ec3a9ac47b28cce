import Semasm.X86.Accesses
import Semasm.X86.Analysis.Blocks
import Semasm.X86.Kinds

/-!
# Which accesses are recorded

The accesses are recorded once, before the first visit; a visit changes their
provenance only. A record is made for a memory operand that comes first in an
instruction that loads or stores. Loading comes with the memory operand second, and
arithmetic, comparisons, selections, jumps and calls have other kinds, so the only
operands recorded as they are used are the destinations of moves and pops.
-/

namespace Semasm.X86.Analysis

open Contract

/-- What a record says beside the provenance. -/
structure AccessRow where
  position : Nat
  kind : MemKind
  disp : Int64
deriving DecidableEq, Repr

def MemAccess.row (access : MemAccess) : AccessRow :=
  ⟨access.position, access.kind, access.disp⟩

/-- The memory operand that comes first. -/
def firstMemory (instr : LoweredInstr) : Option MemOperand :=
  match instr.operands.head? with
  | some (.mem operand) => some operand
  | _ => none

/-- The kind of access an operation makes through an operand: a store when it writes it,
a load when it only reads it. -/
def memKindOf (op : Op) (operands : List Operand) (operand : Operand) : Option MemKind :=
  if (operand, AccessMode.store) ∈ op.touches operands then some .store
  else if (operand, AccessMode.load) ∈ op.touches operands then some .load
  else none

/-- The explicit memory operands that an instruction reads or writes. -/
def memoryUses (instr : LoweredInstr) : List (MemKind × Int64) :=
  match instr.op with
  | none => []
  | some op =>
    instr.operands.filterMap (fun operand =>
      match operand with
      | .mem memory => (memKindOf op instr.operands operand).map (fun kind => (kind, memory.disp))
      | _ => none)

/-- The record made of an instruction: one of a memory operand that comes first where
values are loaded or stored. -/
def recordOf (instr : LoweredInstr) : Option (MemKind × Int64) :=
  (firstMemory instr).bind (fun operand =>
    match instr.kind with
    | .load => some (.load, operand.disp)
    | .store => some (.store, operand.disp)
    | _ => none)

/-- The records of an instruction. -/
def recordsAt (accesses : List MemAccess) (position : Nat) : List (MemKind × Int64) :=
  (accesses.filter (fun access => access.position = position)).map
    (fun access => (access.kind, access.disp))

/-- Every explicit memory operand that is read or written is recorded exactly once. -/
def RecordedOnce (lowered : List LoweredInstr) (blocks : List BlockRange) : Prop :=
  ∀ (position : Nat) (instr : LoweredInstr), lowered[position]? = some instr →
    ∀ access ∈ memoryUses instr,
      recordsAt (analyze lowered blocks).memAccesses position = [access]

/-- A move or pop into the memory operand that comes first. -/
def StoresFirst (instr : LoweredInstr) : Prop :=
  (instr.op = some .move ∨ instr.op = some .pop) ∧ firstMemory instr ≠ none

/-! ## Visits keep what is recorded -/

theorem revise_rows (accesses : List MemAccess) (position : Nat) (provenance : MemProvenance) :
    (accesses.map (fun access =>
      if access.position = position then { access with provenance := provenance }
      else access)).map MemAccess.row = accesses.map MemAccess.row := by
  rw [List.map_map]
  apply List.map_congr_left
  intro access _
  simp only [Function.comp_apply]
  split <;> rfl

/-- The walk along a block keeps what is recorded. -/
theorem reviseAccesses_rows (instrs : List LoweredInstr) (start : Nat) (inState : BlockState)
    (accesses : List MemAccess) :
    (reviseAccesses instrs start inState accesses).map MemAccess.row =
      accesses.map MemAccess.row := by
  unfold reviseAccesses
  induction instrs generalizing start inState accesses with
  | nil => rfl
  | cons instr instrs inductionHypothesis =>
    rw [List.zipIdx_cons, List.foldl_cons, inductionHypothesis]
    split
    next operand _ => exact revise_rows accesses start _
    next => rfl

/-- Pushing a successor keeps the accesses. -/
theorem push_memAccesses (count : Nat) (nexts : List Nat) (driver : Driver) :
    (nexts.foldl (Driver.push count) driver).memAccesses = driver.memAccesses := by
  induction nexts generalizing driver with
  | nil => rfl
  | cons next nexts inductionHypothesis =>
    rw [List.foldl_cons, inductionHypothesis]
    unfold Driver.push
    split <;> rfl

/-- A visit keeps what is recorded. -/
theorem visit_rows (lowered : List LoweredInstr) (blocks : List BlockRange) (driver : Driver)
    (index : Nat) (rest : List Nat) :
    (driver.visit lowered blocks index rest).memAccesses.map MemAccess.row =
      driver.memAccesses.map MemAccess.row := by
  simp only [Driver.visit]
  split
  · rw [push_memAccesses]
    exact reviseAccesses_rows _ _ _ _
  · exact reviseAccesses_rows _ _ _ _

/-- The loop of the driver keeps what is recorded. -/
theorem loop_rows (lowered : List LoweredInstr) (blocks : List BlockRange) (fuel : Nat)
    (driver : Driver) :
    (Driver.loop lowered blocks fuel driver).1.memAccesses.map MemAccess.row =
      driver.memAccesses.map MemAccess.row := by
  induction fuel generalizing driver with
  | zero => rfl
  | succ fuel inductionHypothesis =>
    rw [Driver.loop]
    split
    · rfl
    · split
      · rfl
      · rw [inductionHypothesis, visit_rows]

/-- The report records what was recorded before the first visit. -/
theorem analyze_rows (lowered : List LoweredInstr) (blocks : List BlockRange) :
    (analyze lowered blocks).memAccesses.map MemAccess.row =
      (lowered.zipIdx.filterMap recordAccess).map MemAccess.row :=
  loop_rows lowered blocks (visitBound blocks + 2) (Driver.initial lowered blocks)

/-! ## The records of one instruction -/

/-- The records of an instruction depend on what is recorded. -/
theorem recordsAt_congr {accesses others : List MemAccess}
    (same : accesses.map MemAccess.row = others.map MemAccess.row) (position : Nat) :
    recordsAt accesses position = recordsAt others position := by
  have byRows (accesses : List MemAccess) : recordsAt accesses position =
      ((accesses.map MemAccess.row).filter (fun row => row.position = position)).map
        (fun row => (row.kind, row.disp)) := by
    rw [List.filter_map, List.map_map]
    rfl
  rw [byRows, byRows, same]

/-- A record stands at the position of its instruction. -/
theorem recordAccess_position (entry : LoweredInstr × Nat) (access : MemAccess)
    (recorded : recordAccess entry = some access) : access.position = entry.2 := by
  unfold recordAccess at recorded
  split at recorded
  · cases recorded
    rfl
  · cases recorded
    rfl
  · cases recorded

/-- Of entries that carry their position, those at one position come from the item there. -/
theorem filter_zipIdx_filterMap {α β : Type} (entryOf : α × Nat → Option β) (position : β → Nat)
    (carries : ∀ item entry, entryOf item = some entry → position entry = item.2)
    (items : List α) (start index : Nat) :
    ((items.zipIdx start).filterMap entryOf).filter (fun entry => position entry = start + index) =
      ((items[index]?).bind (fun item => entryOf (item, start + index))).toList := by
  have later (items : List α) (start other : Nat) (before : other < start) :
      ((items.zipIdx start).filterMap entryOf).filter (fun entry => position entry = other) = [] := by
    rw [List.filter_eq_nil_iff]
    intro entry listed
    obtain ⟨⟨item, place⟩, indexed, made⟩ := List.mem_filterMap.mp listed
    have own := carries _ _ made
    have behind := List.le_snd_of_mem_zipIdx indexed
    simp only [decide_eq_true_eq]
    simp only at own behind
    omega
  induction items generalizing start index with
  | nil => simp
  | cons item items inductionHypothesis =>
    rw [List.zipIdx_cons]
    cases index with
    | zero =>
      have none := later items (start + 1) start (Nat.lt_succ_self start)
      cases made : entryOf (item, start) with
      | none => simp [made, none]
      | some entry =>
        have own := carries _ _ made
        simp [made, none, own]
    | succ index =>
      have next := inductionHypothesis (start + 1) index
      have same : start + 1 + index = start + (index + 1) := by omega
      rw [same] at next
      cases made : entryOf (item, start) with
      | none => simpa [made] using next
      | some entry =>
        have own := carries _ _ made
        have apart : position entry ≠ start + (index + 1) := by
          simp only at own
          omega
        simpa [made, apart] using next

theorem recordAccess_eq (instr : LoweredInstr) (position : Nat) :
    (recordAccess (instr, position)).map (fun access => (access.kind, access.disp)) =
      recordOf instr := by
  unfold recordAccess recordOf firstMemory
  cases instr.operands.head? with
  | none => rfl
  | some operand =>
    cases operand with
    | reg register => rfl
    | imm value => rfl
    | mem memory => cases instr.kind <;> simp

/-- The records of an instruction in the report are the one made of it. -/
theorem recordsAt_analyze (lowered : List LoweredInstr) (blocks : List BlockRange)
    (position : Nat) (instr : LoweredInstr) (here : lowered[position]? = some instr) :
    recordsAt (analyze lowered blocks).memAccesses position = (recordOf instr).toList := by
  rw [recordsAt_congr (analyze_rows lowered blocks) position, ← recordAccess_eq instr position]
  have own := filter_zipIdx_filterMap recordAccess MemAccess.position recordAccess_position
    lowered 0 position
  rw [Nat.zero_add, here] at own
  rw [recordsAt, own, Option.bind_some]
  cases recordAccess (instr, position) <;> rfl

/-- An access in use is made through a memory operand by the operation. -/
theorem mem_memoryUses (instr : LoweredInstr) (access : MemKind × Int64) :
    access ∈ memoryUses instr ↔ ∃ op memory, instr.op = some op ∧
      Operand.mem memory ∈ instr.operands ∧
      memKindOf op instr.operands (.mem memory) = some access.1 ∧ access.2 = memory.disp := by
  unfold memoryUses
  cases instr.op with
  | none => simp
  | some op =>
    simp only [List.mem_filterMap, Option.some.injEq]
    constructor
    · rintro ⟨operand, listed, made⟩
      cases operand with
      | reg register => cases made
      | imm value => cases made
      | mem memory =>
        obtain ⟨kind, through, rfl⟩ := Option.map_eq_some_iff.mp made
        exact ⟨op, memory, rfl, listed, through, rfl⟩
    · rintro ⟨_, memory, rfl, listed, through, disp⟩
      refine ⟨.mem memory, listed, Option.map_eq_some_iff.mpr ⟨access.1, through, ?_⟩⟩
      rw [← disp]

/-- The operands begin with the memory operand that comes first. -/
theorem operands_of_firstMemory (instr : LoweredInstr) (memory : MemOperand)
    (first : firstMemory instr = some memory) :
    ∃ rest, instr.operands = .mem memory :: rest := by
  unfold firstMemory at first
  split at first
  next operand head =>
    cases first
    exact ⟨_, List.eq_cons_of_mem_head? head⟩
  next => cases first

/-- Behind the only memory operand comes no other. -/
theorem not_mem_behind (memory other : MemOperand) (rest : List Operand)
    (single : ((Operand.mem memory :: rest).filter Operand.isMem).length ≤ 1) :
    Operand.mem other ∉ rest := by
  intro listed
  have counted : 0 < (rest.filter Operand.isMem).length :=
    List.length_pos_of_mem (List.mem_filter.mpr ⟨listed, rfl⟩)
  simp only [List.filter_cons, Operand.isMem, if_true, List.length_cons] at single
  omega

/-- What a destination of a move or pop is used for. -/
theorem memKindOf_stores (op : Op) (stores : op = .move ∨ op = .pop) (memory : MemOperand)
    (rest : List Operand) (kind : MemKind)
    (through : memKindOf op (.mem memory :: rest) (.mem memory) = some kind) : kind = .store := by
  unfold memKindOf at through
  split at through
  · cases through
    rfl
  · next absent =>
    split at through
    · next loads =>
      exfalso
      apply absent
      rcases stores with rfl | rfl
      · rcases rest with _ | ⟨src, _ | ⟨third, others⟩⟩ <;> simp_all [Op.touches]
      · rcases rest with _ | ⟨src, others⟩ <;> simp_all [Op.touches]
    · cases through

/-- One instruction: its accesses are recorded exactly if it has none or stores into the
memory operand that comes first. -/
theorem records_right_iff (instr : LoweredInstr) (supported : instr.Supported)
    (single : (instr.operands.filter Operand.isMem).length ≤ 1) :
    (∀ access ∈ memoryUses instr, (recordOf instr).toList = [access]) ↔
      memoryUses instr = [] ∨ StoresFirst instr := by
  unfold recordOf
  constructor
  · intro recorded
    by_cases unused : memoryUses instr = []
    · exact .inl unused
    · obtain ⟨access, used⟩ := List.exists_mem_of_ne_nil _ unused
      have only := recorded access used
      obtain ⟨op, memory, known, listed, through, disp⟩ := (mem_memoryUses instr access).mp used
      have kind := supported.kind_eq op known
      cases first : firstMemory instr with
      | none =>
        rw [first] at only
        cases only
      | some head =>
        rw [first, Option.bind_some, kind] at only
        obtain ⟨rest, operands⟩ := operands_of_firstMemory instr head first
        rw [operands] at single listed through
        have same : memory = head := by
          rcases List.mem_cons.mp listed with same | behind
          · exact Operand.mem.inj same
          · exact absurd behind (not_mem_behind head memory rest single)
        subst same
        have behind := not_mem_behind memory memory rest single
        cases op with
        | move => exact .inr ⟨.inl known, by rw [first]; simp⟩
        | pop => exact .inr ⟨.inr known, by rw [first]; simp⟩
        | push =>
          rcases rest with _ | ⟨src, others⟩
          · have loads : access.1 = .load := by simpa [memKindOf, Op.touches, eq_comm] using through
            have stored : (MemKind.store, memory.disp) = access := by simpa [Op.kind] using only
            rw [← stored] at loads
            cases loads
          · simp [memKindOf, Op.touches] at through
        | movzx =>
          rcases rest with _ | ⟨src, _ | ⟨third, others⟩⟩
          · simp [memKindOf, Op.touches] at through
          · have other : Operand.mem memory ≠ src := by simpa using behind
            simp [memKindOf, Op.touches, other] at through
          · simp [memKindOf, Op.touches] at through
        | lea => simp [memKindOf, Op.touches] at through
        | _ => simp [Op.kind] at only
  · rintro (unused | ⟨stores, placed⟩) access used
    · rw [unused] at used
      cases used
    · obtain ⟨op, memory, known, listed, through, disp⟩ := (mem_memoryUses instr access).mp used
      obtain ⟨head, first⟩ := Option.ne_none_iff_exists'.mp placed
      obtain ⟨rest, operands⟩ := operands_of_firstMemory instr head first
      rw [operands] at single listed through
      have same : memory = head := by
        rcases List.mem_cons.mp listed with same | behind
        · exact Operand.mem.inj same
        · exact absurd behind (not_mem_behind head memory rest single)
      subst same
      rw [known, Option.some.injEq, Option.some.injEq] at stores
      have stored := memKindOf_stores op stores memory rest access.1 through
      have kind : instr.kind = .store := by
        rw [supported.kind_eq op known]
        rcases stores with rfl | rfl <;> rfl
      simp only [first, Option.bind_some, kind, Option.toList_some, ← disp, ← stored]

/-- Of a list of instructions with one memory operand at most, every operand that is read
or written is recorded exactly once, and as what it is used for, exactly if only moves and
pops access memory and only to store.

    Proof: the visits keep what was recorded at first, and the records of an instruction
come from itself. -/
theorem recorded_once_iff (lowered : List LoweredInstr) (blocks : List BlockRange)
    (supported : ∀ instr ∈ lowered, instr.Supported)
    (single : ∀ instr ∈ lowered, (instr.operands.filter Operand.isMem).length ≤ 1) :
    RecordedOnce lowered blocks ↔
      ∀ instr ∈ lowered, memoryUses instr = [] ∨ StoresFirst instr := by
  constructor
  · intro recorded instr listed
    obtain ⟨position, here⟩ := List.mem_iff_getElem?.mp listed
    apply (records_right_iff instr (supported instr listed) (single instr listed)).mp
    intro access used
    rw [← recordsAt_analyze lowered blocks position instr here]
    exact recorded position instr here access used
  · intro stores position instr here access used
    have listed := List.mem_of_getElem? here
    rw [recordsAt_analyze lowered blocks position instr here]
    exact (records_right_iff instr (supported instr listed) (single instr listed)).mpr
      (stores instr listed) access used

/-- `mov rax, [rdi]`. -/
def loadThroughRdi : List LoweredInstr :=
  [⟨"mov", .store, .b64, none,
    [.reg Gp.rax.full, .mem ⟨some Gp.rdi.full, none, 1, 0, .b64⟩]⟩]

/-- `mov [rdi], rax`. -/
def storeThroughRdi : List LoweredInstr :=
  [⟨"mov", .store, .b64, none,
    [.mem ⟨some Gp.rdi.full, none, 1, 0, .b64⟩, .reg Gp.rax.full]⟩]

/-- A load is not recorded. -/
theorem load_is_not_recorded :
    (∀ instr ∈ loadThroughRdi, instr.Supported) ∧
      (analyze loadThroughRdi (buildBlocks loadThroughRdi (fun _ => none))).memAccesses = [] ∧
      ¬ RecordedOnce loadThroughRdi (buildBlocks loadThroughRdi (fun _ => none)) := by
  have none : (analyze loadThroughRdi
      (buildBlocks loadThroughRdi (fun _ => none))).memAccesses = [] := by
    decide +kernel
  refine ⟨by decide, none, fun recorded => ?_⟩
  have once := recorded 0 _ rfl (.load, 0) (by decide)
  rw [none] at once
  cases once

/-- A store is recorded once. -/
theorem store_is_recorded :
    RecordedOnce storeThroughRdi (buildBlocks storeThroughRdi (fun _ => none)) := by
  apply (recorded_once_iff storeThroughRdi _ (by decide) (by decide)).mpr
  intro instr listed
  obtain rfl := List.mem_singleton.mp listed
  exact .inr ⟨.inl (by decide), by decide⟩

end Semasm.X86.Analysis
