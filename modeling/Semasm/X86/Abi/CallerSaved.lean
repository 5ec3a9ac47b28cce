import Semasm.Library.Since
import Semasm.X86.Analysis.Domain
import Semasm.X86.Kinds
import Semasm.X86.Abi.Calls

/-!
# Volatile registers read after a call

A warning is due for the first read of a watched register after a call behind which it
was not written. The scan sees fewer reads than there are: not the old value of a
destination that is computed from it, not a register stored where the memory operand
comes first, not the address of a pop or of an increment in memory, and no read by a
call. It also does not count a call as clobbering a register again that was read, and
warned of, after an earlier one and not written since.
-/

namespace Semasm.X86.Abi.SysV

open Library

/-- The value of the first operand is read. -/
def readsFirst : Op → Bool
  | .move | .movzx | .lea | .pop => false
  | _ => true

/-- The first operand is written. -/
def writesFirst : Op → Bool
  | .move | .movzx | .lea | .pop | .alu _ | .inc | .dec | .shl | .shr | .select _ => true
  | _ => false

/-- An operand at an index reads the register: as a source, as the old value of a
destination, or in its address. -/
def ReadsThrough (op : Op) (index : Nat) (operand : Operand) (cell : Gp) : Prop :=
  match operand with
  | .reg register => gpFromReg register = some cell ∧ (index = 0 → readsFirst op = true)
  | .mem memory => cell ∈ addressGps memory
  | .imm _ => False

/-- The instruction reads the register. -/
def Reads (instr : LoweredInstr) (cell : Gp) : Prop :=
  ∃ op index operand, instr.op = some op ∧ (instr.operands[index]? : Option Operand) = some operand ∧
    ReadsThrough op index operand cell

/-- The instruction writes the register, through any view. -/
def Writes (instr : LoweredInstr) (cell : Gp) : Prop :=
  ∃ op, instr.op = some op ∧ writesFirst op = true ∧
    instr.operands.head?.bind operandGp = some cell

/-- The instruction clobbers the watched registers. -/
def Clobbers (instr : LoweredInstr) : Prop := instr.mnemonic = "call" ∨ instr.mnemonic = "syscall"

instance (instr : LoweredInstr) : Decidable (Clobbers instr) :=
  inferInstanceAs (Decidable (_ ∨ _))

/-- The scan takes the register as read. -/
def SeenRead (instr : LoweredInstr) (cell : Gp) : Prop :=
  ¬ Clobbers instr ∧ cell ∈ (collectRegOps instr).2

/-- The scan takes the register as written. -/
def SeenWrite (instr : LoweredInstr) (cell : Gp) : Prop :=
  ¬ Clobbers instr ∧ cell ∈ (collectRegOps instr).1

/-- The instruction at a position has a property. -/
def At (body : List LoweredInstr) (holds : LoweredInstr → Prop) (position : Nat) : Prop :=
  ∃ instr, body[position]? = some instr ∧ holds instr

/-- A warning is due: a watched register is read for the first time after a call behind
which it was not written. -/
def Due (body : List LoweredInstr) (cell : Gp) (position : Nat) : Prop :=
  cell ∈ callerSavedWatch ∧ At body (Reads · cell) position ∧
    Since (At body Clobbers) (At body fun instr => Reads instr cell ∨ Writes instr cell) position

/-- The finding of a register read at an index. -/
def readFinding (index : Nat) (cell : Gp) : AbiFinding :=
  ⟨"CALLER_SAVED", .warning,
    "register " ++ gpName cell ++ " read at index " ++ toString index
      ++ " after call/syscall clobber without redefine "
      ++ "(SysV volatile; prefer RBX/R12+ for live counters)", some index⟩

/-- The scan warns of the register. -/
def Warned (body : List LoweredInstr) (cell : Gp) (position : Nat) : Prop :=
  readFinding position cell ∈ checkCallerSaved body

/-- Every warning that is due is given, and one is given only for a register that is read
and was not written since a call. -/
def WarningsExact (body : List LoweredInstr) : Prop :=
  (∀ cell position, Due body cell position → Warned body cell position) ∧
    ∀ cell position, Warned body cell position →
      At body (Reads · cell) position ∧ Since (At body Clobbers) (At body (Writes · cell)) position

/-- The register was clobbered and, as the scan sees it, not written since. -/
def Unwritten (body : List LoweredInstr) (cell : Gp) : Nat → Prop :=
  Since (At body Clobbers) (At body (SeenWrite · cell))

/-- The register was clobbered, then seen read, and not seen written since. -/
def Spent (body : List LoweredInstr) (cell : Gp) : Nat → Prop :=
  Since (fun position => At body (SeenRead · cell) position ∧ Unwritten body cell position ∧
    ¬ At body (SeenWrite · cell) position) (At body (SeenWrite · cell))

/-! ## The state of the scan -/

/-- The scan over the first instructions. -/
def watchAt (body : List LoweredInstr) (count : Nat) : Watch :=
  (body.take count).zipIdx.foldl Watch.visit ⟨[], callerSavedWatch, []⟩

theorem watchAt_succ (body : List LoweredInstr) (position : Nat) (instr : LoweredInstr)
    (here : body[position]? = some instr) :
    watchAt body (position + 1) = (watchAt body position).visit (instr, position) := by
  have length : (body.take position).length = position := by
    have inside := (List.getElem?_eq_some_iff.mp here).1
    rw [List.length_take]
    omega
  simp only [watchAt, List.take_add_one, here, Option.toList_some, List.zipIdx_append, length,
    Nat.zero_add, List.foldl_append, List.zipIdx_cons, List.zipIdx_nil, List.foldl_cons,
    List.foldl_nil]

/-- What some reads do to the poisoned registers. -/
theorem reads_poisoned (index : Nat) (cells : List Gp) (watch : Watch) (cell : Gp)
    (watched : cell ∈ callerSavedWatch) :
    cell ∈ (cells.foldl (Watch.read index) watch).poisoned ↔
      cell ∈ watch.poisoned ∧ cell ∉ cells := by
  induction cells generalizing watch with
  | nil => simp
  | cons first cells inductionHypothesis =>
    have one : cell ∈ (Watch.read index watch first).poisoned ↔
        cell ∈ watch.poisoned ∧ cell ≠ first := by
      unfold Watch.read
      split
      · simp
      next kept =>
        constructor
        · intro poisoned
          refine ⟨poisoned, ?_⟩
          rintro rfl
          exact kept ⟨watched, poisoned⟩
        · exact And.left
    rw [List.foldl_cons, inductionHypothesis, one, List.mem_cons, not_or, and_assoc]

/-- Reads leave the live registers alone. -/
theorem reads_live (index : Nat) (cells : List Gp) (watch : Watch) :
    (cells.foldl (Watch.read index) watch).live = watch.live := by
  induction cells generalizing watch with
  | nil => rfl
  | cons first cells inductionHypothesis =>
    rw [List.foldl_cons, inductionHypothesis]
    unfold Watch.read
    split <;> rfl

/-- The findings of some reads. -/
theorem reads_findings (index : Nat) (cells : List Gp) (watch : Watch) (finding : AbiFinding) :
    finding ∈ (cells.foldl (Watch.read index) watch).findings ↔
      finding ∈ watch.findings ∨ ∃ cell ∈ cells, cell ∈ callerSavedWatch ∧
        cell ∈ watch.poisoned ∧ finding = readFinding index cell := by
  induction cells generalizing watch with
  | nil => simp
  | cons first cells inductionHypothesis =>
    rw [List.foldl_cons, inductionHypothesis, Watch.read]
    split
    next given =>
      constructor
      · rintro (own | ⟨cell, listed, watched, poisoned, same⟩)
        · rcases List.mem_append.mp own with before | added
          · exact .inl before
          · exact .inr ⟨first, List.mem_cons_self, given.1, given.2, List.mem_singleton.mp added⟩
        · exact .inr ⟨cell, List.mem_cons_of_mem _ listed, watched,
            (List.mem_filter.mp poisoned).1, same⟩
      · rintro (before | ⟨cell, listed, watched, poisoned, same⟩)
        · exact .inl (List.mem_append_left _ before)
        · by_cases own : cell = first
          · rw [same, own]
            exact .inl (List.mem_append_right _ (List.mem_singleton_self _))
          · refine .inr ⟨cell, ?_, watched, List.mem_filter.mpr ⟨poisoned, by simpa using own⟩, same⟩
            exact (List.mem_cons.mp listed).resolve_left own
    next kept =>
      constructor
      · rintro (before | ⟨cell, listed, rest⟩)
        · exact .inl before
        · exact .inr ⟨cell, List.mem_cons_of_mem _ listed, rest⟩
      · rintro (before | ⟨cell, listed, watched, poisoned, same⟩)
        · exact .inl before
        · rcases List.mem_cons.mp listed with rfl | later
          · exact absurd ⟨watched, poisoned⟩ kept
          · exact .inr ⟨cell, later, watched, poisoned, same⟩

/-- What some writes do. -/
theorem writes_effect (cells : List Gp) (watch : Watch) (cell : Gp)
    (watched : cell ∈ callerSavedWatch) :
    (cells.foldl Watch.write watch).findings = watch.findings ∧
      (cell ∈ (cells.foldl Watch.write watch).live ↔ cell ∈ watch.live ∨ cell ∈ cells) ∧
      (cell ∈ (cells.foldl Watch.write watch).poisoned ↔
        cell ∈ watch.poisoned ∧ cell ∉ cells) := by
  induction cells generalizing watch with
  | nil => simp
  | cons first cells inductionHypothesis =>
    obtain ⟨findings, live, poisoned⟩ := inductionHypothesis (Watch.write watch first)
    rw [List.foldl_cons, findings, live, poisoned]
    by_cases other : cell = first
    · subst other
      simp [Watch.write, watched]
    · unfold Watch.write
      split
      · simp [other]
      · simp [other]

/-- What holds at a position where an instruction is. -/
theorem at_iff (body : List LoweredInstr) (holds : LoweredInstr → Prop) (position : Nat)
    (instr : LoweredInstr) (here : body[position]? = some instr) :
    At body holds position ↔ holds instr := by
  constructor
  · rintro ⟨other, there, own⟩
    rw [here] at there
    cases there
    exact own
  · intro own
    exact ⟨instr, here, own⟩

/-- A spent register is unwritten. -/
theorem Spent.unwritten {body : List LoweredInstr} {cell : Gp} {position : Nat}
    (spent : Spent body cell position) : Unwritten body cell position :=
  Since.trans spent

theorem unwritten_succ (body : List LoweredInstr) (cell : Gp) (position : Nat)
    (instr : LoweredInstr) (here : body[position]? = some instr) :
    Unwritten body cell (position + 1) ↔
      Clobbers instr ∨ (Unwritten body cell position ∧ ¬ SeenWrite instr cell) := by
  rw [Unwritten, Since.succ_iff, at_iff body Clobbers position instr here,
    at_iff body (SeenWrite · cell) position instr here]

theorem spent_succ (body : List LoweredInstr) (cell : Gp) (position : Nat)
    (instr : LoweredInstr) (here : body[position]? = some instr) :
    Spent body cell (position + 1) ↔
      ((SeenRead instr cell ∧ Unwritten body cell position) ∨ Spent body cell position) ∧
        ¬ SeenWrite instr cell := by
  rw [Spent, Since.succ_iff, at_iff body (SeenRead · cell) position instr here,
    at_iff body (SeenWrite · cell) position instr here, ← and_assoc, ← or_and_right]

/-- The scan before a position: a watched register is live if it was not clobbered since it
was seen written, and poisoned if it was and has not been seen read since. -/
theorem watch_state (body : List LoweredInstr) (cell : Gp) (watched : cell ∈ callerSavedWatch)
    (position : Nat) (inside : position ≤ body.length) :
    (cell ∈ (watchAt body position).live ↔ ¬ Unwritten body cell position) ∧
      (cell ∈ (watchAt body position).poisoned ↔
        Unwritten body cell position ∧ ¬ Spent body cell position) := by
  induction position with
  | zero =>
    have fresh : ¬ Unwritten body cell 0 := Since.not_zero
    simp [watchAt, fresh, watched]
  | succ position inductionHypothesis =>
    obtain ⟨live, poisoned⟩ := inductionHypothesis (by omega)
    obtain ⟨instr, here⟩ : ∃ instr, body[position]? = some instr :=
      ⟨_, List.getElem?_eq_getElem (by omega)⟩
    have exhausted : Spent body cell position → Unwritten body cell position := Spent.unwritten
    rw [unwritten_succ body cell position instr here, spent_succ body cell position instr here,
      watchAt_succ body position instr here]
    by_cases clobbers : Clobbers instr
    · have visited : (watchAt body position).visit (instr, position) =
          (watchAt body position).call := if_pos clobbers
      have hidden : ¬ SeenRead instr cell ∧ ¬ SeenWrite instr cell :=
        ⟨fun seen => seen.1 clobbers, fun seen => seen.1 clobbers⟩
      have calledLive : cell ∉ (watchAt body position).call.live := by
        simp [Watch.call, watched]
      have calledPoisoned : cell ∈ (watchAt body position).call.poisoned ↔
          cell ∈ (watchAt body position).poisoned ∨ cell ∈ (watchAt body position).live := by
        simp [Watch.call, watched]
      rw [visited, calledPoisoned, live, poisoned]
      simp only [clobbers, hidden, calledLive, true_or, not_true_eq_false, false_and, false_or,
        not_false_eq_true, and_true, true_and]
      by_cases spent : Spent body cell position
      · simp [spent, exhausted spent]
      · simp [spent, em]
    · have visited : (watchAt body position).visit (instr, position) =
          (collectRegOps instr).1.foldl Watch.write
            ((collectRegOps instr).2.foldl (Watch.read position) (watchAt body position)) :=
        if_neg clobbers
      have seenRead : SeenRead instr cell ↔ cell ∈ (collectRegOps instr).2 := by
        simp [SeenRead, clobbers]
      have seenWrite : SeenWrite instr cell ↔ cell ∈ (collectRegOps instr).1 := by
        simp [SeenWrite, clobbers]
      obtain ⟨_, writtenLive, writtenPoisoned⟩ := writes_effect (collectRegOps instr).1
        ((collectRegOps instr).2.foldl (Watch.read position) (watchAt body position)) cell watched
      rw [visited, writtenLive, writtenPoisoned, reads_live, reads_poisoned _ _ _ _ watched, live,
        poisoned, ← seenRead, ← seenWrite]
      simp only [clobbers, false_or]
      by_cases written : SeenWrite instr cell
      · simp [written]
      · by_cases unwritten : Unwritten body cell position
        · simp [written, unwritten, and_comm]
        · simp [written, unwritten]

/-- The findings of the scan before a position. -/
theorem watch_findings (body : List LoweredInstr) (position : Nat)
    (inside : position ≤ body.length) (finding : AbiFinding) :
    finding ∈ (watchAt body position).findings ↔
      ∃ index < position, ∃ cell ∈ callerSavedWatch, At body (SeenRead · cell) index ∧
        Unwritten body cell index ∧ ¬ Spent body cell index ∧ finding = readFinding index cell := by
  induction position with
  | zero => simp [watchAt]
  | succ position inductionHypothesis =>
    obtain ⟨instr, here⟩ : ∃ instr, body[position]? = some instr :=
      ⟨_, List.getElem?_eq_getElem (by omega)⟩
    have turn : finding ∈ ((watchAt body position).visit (instr, position)).findings ↔
        finding ∈ (watchAt body position).findings ∨ ∃ cell ∈ callerSavedWatch,
          SeenRead instr cell ∧ cell ∈ (watchAt body position).poisoned ∧
            finding = readFinding position cell := by
      by_cases clobbers : Clobbers instr
      · have visited : (watchAt body position).visit (instr, position) =
            (watchAt body position).call := if_pos clobbers
        rw [visited]
        simp [Watch.call, SeenRead, clobbers]
      · have visited : (watchAt body position).visit (instr, position) =
            (collectRegOps instr).1.foldl Watch.write
              ((collectRegOps instr).2.foldl (Watch.read position) (watchAt body position)) :=
          if_neg clobbers
        rw [visited, (writes_effect _ _ .rdi (by decide)).1, reads_findings]
        simp only [SeenRead, clobbers, not_false_eq_true, true_and]
        constructor
        · rintro (before | ⟨cell, listed, watched, rest⟩)
          · exact .inl before
          · exact .inr ⟨cell, watched, listed, rest⟩
        · rintro (before | ⟨cell, watched, listed, rest⟩)
          · exact .inl before
          · exact .inr ⟨cell, listed, watched, rest⟩
    rw [watchAt_succ body position instr here, turn, inductionHypothesis (by omega)]
    constructor
    · rintro (⟨index, before, own⟩ | ⟨cell, watched, seen, poisoned, same⟩)
      · exact ⟨index, Nat.lt_succ_of_lt before, own⟩
      · have state := (watch_state body cell watched position (by omega)).2.mp poisoned
        exact ⟨position, Nat.lt_succ_self position, cell, watched,
          (at_iff body (SeenRead · cell) position instr here).mpr seen, state.1, state.2, same⟩
    · rintro ⟨index, before, cell, watched, seen, unwritten, unspent, same⟩
      rcases Nat.lt_succ_iff_lt_or_eq.mp before with earlier | rfl
      · exact .inl ⟨index, earlier, cell, watched, seen, unwritten, unspent, same⟩
      · exact .inr ⟨cell, watched, (at_iff body (SeenRead · cell) index instr here).mp seen,
          (watch_state body cell watched index (by omega)).2.mpr ⟨unwritten, unspent⟩, same⟩

/-- A finding tells the register and the index. -/
theorem readFinding_inj {index other : Nat} {cell another : Gp}
    (same : readFinding index cell = readFinding other another) :
    index = other ∧ cell = another := by
  have places : index = other := by
    have fields := congrArg AbiFinding.index same
    simpa [readFinding] using fields
  subst places
  have messages := congrArg AbiFinding.message same
  simp only [readFinding, String.append_assoc, String.append_right_inj,
    String.append_left_inj] at messages
  have names : ∀ one two : Gp, gpName one = gpName two → one = two := by decide
  exact ⟨rfl, names _ _ messages⟩

/-- The scan warns of a watched register that it sees read, that was clobbered and not
seen written since, and that was not seen read before in between. -/
theorem warned_iff (body : List LoweredInstr) (cell : Gp) (position : Nat) :
    Warned body cell position ↔ cell ∈ callerSavedWatch ∧ At body (SeenRead · cell) position ∧
      Unwritten body cell position ∧ ¬ Spent body cell position := by
  have whole : checkCallerSaved body = (watchAt body body.length).findings := by
    rw [watchAt, List.take_length]
    rfl
  rw [Warned, whole, watch_findings body body.length (Nat.le_refl _)]
  constructor
  · rintro ⟨index, _, another, watched, seen, unwritten, unspent, same⟩
    obtain ⟨rfl, rfl⟩ := readFinding_inj same
    exact ⟨watched, seen, unwritten, unspent⟩
  · rintro ⟨watched, seen, unwritten, unspent⟩
    obtain ⟨instr, here, own⟩ := seen
    exact ⟨position, (List.getElem?_eq_some_iff.mp here).1, cell, watched, ⟨instr, here, own⟩,
      unwritten, unspent, rfl⟩

/-! ## What the scan sees of an instruction -/

/-- How the scan treats a mnemonic and what its operation does with the first operand. -/
structure Treated (mnemonic : String) (op : Op) : Prop where
  read : mnemonic ∈ ["push", "cmp", "test", "call", "jmp", "ret", "retn"] →
    readsFirst op = true ∧ writesFirst op = false
  popped : mnemonic = "pop" → writesFirst op = true
  updated : mnemonic ∈ ["inc", "dec", "neg", "not"] → readsFirst op = true ∧ writesFirst op = true
  touched : readsFirst op = true ∨ writesFirst op = true
  called : writesFirst op = true → ¬ (mnemonic = "call" ∨ mnemonic = "syscall")

instance (mnemonic : String) (op : Op) : Decidable (Treated mnemonic op) :=
  decidable_of_iff
    ((mnemonic ∈ ["push", "cmp", "test", "call", "jmp", "ret", "retn"] →
        readsFirst op = true ∧ writesFirst op = false) ∧
      (mnemonic = "pop" → writesFirst op = true) ∧
      (mnemonic ∈ ["inc", "dec", "neg", "not"] → readsFirst op = true ∧ writesFirst op = true) ∧
      (readsFirst op = true ∨ writesFirst op = true) ∧
      (writesFirst op = true → ¬ (mnemonic = "call" ∨ mnemonic = "syscall")))
    ⟨fun ⟨read, popped, updated, touched, called⟩ => ⟨read, popped, updated, touched, called⟩,
      fun ⟨read, popped, updated, touched, called⟩ => ⟨read, popped, updated, touched, called⟩⟩

/-- A lower-case mnemonic is treated as its operation. -/
theorem treated_of_op (instr : LoweredInstr)
    (lower : Text.asciiLower instr.mnemonic = instr.mnemonic) (op : Op)
    (known : instr.op = some op) : Treated instr.mnemonic op := by
  have table := Op.ofMnemonic_forall Treated (by decide +kernel) _ _ known
  rwa [lower] at table

/-- One operand of the default. -/
def defaultStep (seen : List Gp × List Gp) (operand : Operand) : List Gp × List Gp :=
  match operand with
  | .reg register =>
    match gpFromReg register with
    | some cell => if seen.1.isEmpty then ([cell], seen.2) else (seen.1, seen.2 ++ [cell])
    | none => seen
  | .mem memory => (seen.1, seen.2 ++ addressGps memory)
  | .imm _ => seen

theorem collectDefault_eq (operands : List Operand) :
    collectDefault operands = operands.foldl defaultStep ([], []) := rfl

/-- The register that counts as written by default is the first one named. -/
theorem default_writes (operands : List Operand) (seen : List Gp × List Gp) :
    (operands.foldl defaultStep seen).1 =
      if seen.1.isEmpty then (operands.findSome? operandGp).toList else seen.1 := by
  induction operands generalizing seen with
  | nil =>
    rw [List.foldl_nil]
    split
    next empty => simpa using empty
    next => rfl
  | cons operand operands inductionHypothesis =>
    rw [List.foldl_cons, inductionHypothesis, List.findSome?_cons]
    cases operand with
    | mem memory => rfl
    | imm value => rfl
    | reg register =>
      cases found : gpFromReg register with
      | none => simp only [defaultStep, operandGp, found]
      | some cell =>
        simp only [defaultStep, operandGp, found]
        by_cases empty : seen.1.isEmpty = true
        · simp [empty]
        · simp [empty]

/-- What counts as read by default: the address of a memory operand, and a register behind
the first. -/
theorem default_reads (operands : List Operand) (seen : List Gp × List Gp) (cell : Gp)
    (read : cell ∈ (operands.foldl defaultStep seen).2) :
    cell ∈ seen.2 ∨ ∃ (index : Nat) (operand : Operand), operands[index]? = some operand ∧
      cell ∈ operandGps operand ∧
        (operandGp operand = some cell → index ≠ 0 ∨ seen.1.isEmpty = false) := by
  induction operands generalizing seen with
  | nil => exact .inl read
  | cons operand operands inductionHypothesis =>
    rcases inductionHypothesis (defaultStep seen operand) read with before | later
    · cases operand with
      | imm value => exact .inl before
      | mem memory =>
        rcases List.mem_append.mp before with earlier | address
        · exact .inl earlier
        · exact .inr ⟨0, _, rfl, address, fun absurd => by cases absurd⟩
      | reg register =>
        simp only [defaultStep] at before
        cases found : gpFromReg register with
        | none =>
          rw [found] at before
          exact .inl before
        | some own =>
          simp only [found] at before
          split at before
          next => exact .inl before
          next filled =>
            rcases List.mem_append.mp before with earlier | same
            · exact .inl earlier
            · obtain rfl := List.mem_singleton.mp same
              exact .inr ⟨0, _, rfl, by simp [operandGps, found],
                fun _ => .inr (by simpa using filled)⟩
    · obtain ⟨index, other, there, through, _⟩ := later
      exact .inr ⟨index + 1, other, there, through, fun _ => .inl (Nat.succ_ne_zero index)⟩

theorem named_of_operandGp {operand : Operand} {cell : Gp} (named : operandGp operand = some cell) :
    cell ∈ operandGps operand := by
  cases operand with
  | reg register =>
    have found : gpFromReg register = some cell := named
    simp [operandGps, found]
  | mem memory => cases named
  | imm value => cases named

/-- A register an operand names or computes its address from is read through it, if the
operand is behind the first or its old value is read. -/
theorem readsThrough_of_named (op : Op) (index : Nat) (operand : Operand) (cell : Gp)
    (named : cell ∈ operandGps operand)
    (read : operandGp operand = some cell → index ≠ 0 ∨ readsFirst op = true) :
    ReadsThrough op index operand cell := by
  cases operand with
  | reg register =>
    have found : gpFromReg register = some cell := by simpa [operandGps] using named
    refine ⟨found, fun first => ?_⟩
    exact (read found).resolve_left (fun apart => apart first)
  | mem memory => exact named
  | imm value => cases named

section Seen

variable {instr : LoweredInstr} {cell : Gp} {op : Op}

/-- What the scan takes as read is read. -/
theorem SeenRead.reads (known : instr.op = some op) (treated : Treated instr.mnemonic op)
    (seen : SeenRead instr cell) : Reads instr cell := by
  obtain ⟨_, listed⟩ := seen
  unfold collectRegOps at listed
  split at listed
  next named =>
    obtain ⟨operand, member, through⟩ := List.mem_flatMap.mp listed
    obtain ⟨index, there⟩ := List.mem_iff_getElem?.mp member
    exact ⟨op, index, operand, known, there,
      readsThrough_of_named op index operand cell through (fun _ => .inr (treated.read named).1)⟩
  next =>
    simp only at listed
    split at listed
    next => cases listed
    next =>
      split at listed
      next updated =>
        obtain ⟨operand, head, named⟩ :=
          Option.bind_eq_some_iff.mp (Option.mem_toList.mp listed)
        refine ⟨op, 0, operand, known, ?_, readsThrough_of_named op 0 operand cell
          (named_of_operandGp named) (fun _ => .inr (treated.updated updated).1)⟩
        rw [← List.head?_eq_getElem?]
        exact head
      next =>
        rw [collectDefault_eq] at listed
        rcases default_reads instr.operands ([], []) cell listed with absurd | found
        · cases absurd
        · obtain ⟨index, operand, there, through, behind⟩ := found
          refine ⟨op, index, operand, known, there,
            readsThrough_of_named op index operand cell through (fun named => .inl ?_)⟩
          exact (behind named).resolve_right (by simp)

/-- What the scan takes as written is written, or read where it is stored. -/
theorem SeenWrite.touches (known : instr.op = some op) (treated : Treated instr.mnemonic op)
    (seen : SeenWrite instr cell) : Reads instr cell ∨ Writes instr cell := by
  obtain ⟨_, listed⟩ := seen
  unfold collectRegOps at listed
  split at listed
  next => cases listed
  next =>
    simp only at listed
    split at listed
    next popped => exact .inr ⟨op, known, treated.popped popped, Option.mem_toList.mp listed⟩
    next =>
      split at listed
      next updated =>
        exact .inr ⟨op, known, (treated.updated updated).2, Option.mem_toList.mp listed⟩
      next =>
        rw [collectDefault_eq, default_writes] at listed
        have found : instr.operands.findSome? operandGp = some cell := by simpa using listed
        obtain ⟨operand, member, named⟩ := List.exists_of_findSome?_eq_some found
        obtain ⟨index, there⟩ := List.mem_iff_getElem?.mp member
        have through := named_of_operandGp named
        by_cases first : index = 0
        · subst first
          rcases treated.touched with read | written
          · exact .inl ⟨op, 0, operand, known, there,
              readsThrough_of_named op 0 operand cell through (fun _ => .inr read)⟩
          · refine .inr ⟨op, known, written, ?_⟩
            rw [List.head?_eq_getElem?, there]
            exact named
        · exact .inl ⟨op, index, operand, known, there,
            readsThrough_of_named op index operand cell through (fun _ => .inl first)⟩

/-- What is written the scan takes as written. -/
theorem Writes.seen (treated : ∀ op, instr.op = some op → Treated instr.mnemonic op)
    (writes : Writes instr cell) : SeenWrite instr cell := by
  obtain ⟨op, known, written, named⟩ := writes
  have own := treated op known
  refine ⟨own.called written, ?_⟩
  unfold collectRegOps
  split
  next read =>
    rw [(own.read read).2] at written
    cases written
  next =>
    simp only
    split
    next => simpa using named
    next =>
      split
      next => simpa using named
      next =>
        rw [collectDefault_eq, default_writes]
        obtain ⟨operand, head, same⟩ := Option.bind_eq_some_iff.mp named
        obtain ⟨rest, shape⟩ := List.head?_eq_some_iff.mp head
        simp [shape, same]

end Seen

/-- A call and an addition to `rdi`. -/
def addAfterCall : List LoweredInstr :=
  [⟨"call", .call, .b64, none, [.imm 4096]⟩,
   ⟨"add", .binary, .b64, none, [.reg Gp.rdi.full, .imm 1]⟩]

/-- A call and a copy of `rdi`. -/
def copyAfterCall : List LoweredInstr :=
  [⟨"call", .call, .b64, none, [.imm 4096]⟩,
   ⟨"mov", .store, .b64, none, [.reg Gp.rax.full, .reg Gp.rdi.full]⟩]

end Semasm.X86.Abi.SysV
