import Semasm.AArch64.Abi
import Semasm.AArch64.Machine
import Semasm.Machine.AbiVerdict

/-!
# The AAPCS64 stack walk and the stack pointer

What moves the stack pointer is `add` and `sub` with it as target and an access that
writes its base back. The walk sees the lowered form only, which says neither how an
access is indexed nor how an immediate is shifted. While every instruction moves the stack
pointer as its lowered form shows, the tracked delta is the way it has gone since entry.
-/

namespace Semasm.AArch64

open Library Displacement Machine Machine.Abi StraightLine Transitions

/-- The operation and the sources of an `add` or `sub` with the stack pointer as target. -/
def Instr.adjusts (instr : Instr) : Option (Arith × List Operand) :=
  match instr.lowered.operands with
  | .reg target :: sources =>
    if target.storage = .sp then
      if instr.lowered.mnemonic = "add" then some (.add, sources)
      else if instr.lowered.mnemonic = "sub" then some (.sub, sources)
      else none
    else none
  | _ => none

/-- The stack pointer behind an instruction. A single immediate is added to the stack
pointer itself. -/
def Instr.spAfter (instr : Instr) (state : State) : Option Word :=
  match instr.adjusts with
  | some (operation, [.imm count]) =>
    some (operation.apply .b64 state.sp (instr.modifier count.toBitVec))
  | some (operation, [.reg left, .imm count]) =>
    some (operation.apply .b64 (state.read left) (instr.modifier count.toBitVec))
  | some (operation, [.reg left, .reg right]) =>
    some (operation.apply .b64 (state.read left) (instr.modifier (state.read right)))
  | some _ => none
  | none =>
    match instr.addressing with
    | some addressing => some (addressing.writeback state).sp
    | none => some state.sp

/-- An instruction hands over to the next one. Nothing else is asked of the state behind it
than the stack pointer; a callee gives it back. -/
def StackRuns (_position : Nat) (instr : Instr) (state after : State) : Prop :=
  instr.lowered.mnemonic ≠ "ret" ∧ instr.spAfter state = some after.sp

/-- An `add` or `sub` of the stack pointer is of the shape the walk looks for. -/
theorem shape_of_adjusts (instr : Instr) (operation : Arith) (sources : List Operand)
    (adjusts : instr.adjusts = some (operation, sources)) :
    ∃ target, instr.lowered.operands = .reg target :: sources ∧ target.storage = .sp ∧
      ((operation = .add ∧ instr.lowered.mnemonic = "add") ∨
        (operation = .sub ∧ instr.lowered.mnemonic = "sub")) := by
  unfold Instr.adjusts at adjusts
  split at adjusts
  next target rest shape =>
    split_ifs at adjusts with stack add sub
    · cases adjusts
      exact ⟨target, shape, stack, Or.inl ⟨rfl, add⟩⟩
    · cases adjusts
      exact ⟨target, shape, stack, Or.inr ⟨rfl, sub⟩⟩
  next => cases adjusts

/-- The machine executes an access of the subset with its writeback. -/
theorem sp_of_access (env : Environment State) (instr : Instr) (state : State)
    (outcome : Outcome State) (executed : exec env instr state = some outcome)
    (addressing : Addressing) (text : instr.addressing = some addressing)
    (accesses : (∃ bytes signed, instr.op = some (.load bytes signed)) ∨
      ∃ bytes, instr.op = some (.store bytes))
    (apart : ∀ register, instr.lowered.operands.head? = some (.reg register) →
      register.storage ≠ .sp) : outcome.after.sp = (addressing.writeback state).sp := by
  obtain ⟨op, known, ran⟩ | ⟨unknown, _, _⟩ := exec_cases env instr state outcome executed
  · obtain ⟨bytes, signed, load⟩ | ⟨bytes, store⟩ := accesses
    · rw [known] at load
      cases load
      simp only [Op.exec, execLoad, text] at ran
      split at ran
      next _ target memory rest same shape =>
        cases ran
        cases same
        have other := apart target (by rw [shape, List.head?_cons])
        exact State.cell_set_of_ne _ target.storage .sp _ (Ne.symm other)
      next => cases ran
    · rw [known] at store
      cases store
      simp only [Op.exec, execStore, text] at ran
      split at ran
      next _ source memory rest same shape =>
        cases ran
        cases same
        unfold Addressing.writeback
        obtain ⟨base, index, disp, indexing⟩ := addressing
        cases indexing <;> cases base <;> simp only [State.set, State.cell]
        all_goals split_ifs <;> rfl
      next => cases ran
  · rw [unknown] at accesses
    obtain ⟨_, _, load⟩ | ⟨_, store⟩ := accesses
    · cases load
    · cases store

/-- The machine moves the stack pointer as said above, where an instruction that neither
adds to it nor accesses memory leaves it alone. -/
theorem spAfter_of_exec (env : Environment State) (instr : Instr) (state : State)
    (outcome : Outcome State) (executed : exec env instr state = some outcome)
    (lowerCase : Text.asciiLower instr.lowered.mnemonic = instr.lowered.mnemonic)
    (whole : ∀ operation sources, instr.adjusts = some (operation, sources) →
      instr.lowered.operands.head? = some (.reg .sp) ∧
        ∃ left right, sources = [.reg left, right])
    (accesses : instr.addressing.isSome → (∃ bytes signed, instr.op = some (.load bytes signed)) ∨
      ∃ bytes, instr.op = some (.store bytes))
    (apart : instr.adjusts = none → ∀ register,
      instr.lowered.operands.head? = some (.reg register) → register.storage ≠ .sp)
    (still : instr.addressing = none → instr.adjusts = none → outcome.after.sp = state.sp) :
    instr.spAfter state = some outcome.after.sp := by
  cases adjusts : instr.adjusts with
  | none =>
    simp only [Instr.spAfter, adjusts]
    cases text : instr.addressing with
    | none => exact congrArg some (still text adjusts).symm
    | some addressing =>
      exact congrArg some (sp_of_access env instr state outcome executed addressing text
        (accesses (by rw [text]; rfl)) (apart adjusts)).symm
  | some adjustment =>
    obtain ⟨operation, sources⟩ := adjustment
    obtain ⟨first, left, right, rfl⟩ := whole operation sources adjusts
    obtain ⟨target, shape, _, named⟩ := shape_of_adjusts instr operation _ adjusts
    have stack : target = .sp := by
      rw [shape, List.head?_cons] at first
      cases first
      rfl
    have op : instr.op = some (.arith operation) := by
      rw [Instr.op, lowerCase]
      rcases named with ⟨rfl, name⟩ | ⟨rfl, name⟩ <;> rw [name] <;> decide +kernel
    obtain ⟨known, same, ran⟩ | ⟨unknown, _, _⟩ := exec_cases env instr state outcome executed
    · rw [op] at same
      cases same
      simp only [Op.exec, shape, stack, execData, combined, Operand.value] at ran
      cases right with
      | mem memory => cases ran
      | imm count =>
        cases ran
        have value : BitVec.ofInt 64 count.toInt = count.toBitVec := BitVec.ofInt_toInt
        simp only [Instr.spAfter, adjusts, ← value]
        rcases named with ⟨rfl, _⟩ | ⟨rfl, _⟩ <;> rfl
      | reg amount =>
        cases ran
        simp only [Instr.spAfter, adjusts]
        rcases named with ⟨rfl, _⟩ | ⟨rfl, _⟩ <;> rfl
    · rw [op] at unknown
      cases unknown

/-- What lowering gives a call and a return their names for: `blr` becomes `bl` as well. -/
theorem names_of_lower (physical : Decode.PhysicalInstruction) (instr : LoweredInstr)
    (lowered : lower physical = .lowered instr) :
    (instr.kind = .call → instr.mnemonic = "bl") ∧ (instr.kind = .ret → instr.mnemonic = "ret") := by
  unfold lower at lowered
  generalize splitMnemonic physical.mnemonic = parts at lowered
  obtain ⟨base, suffix⟩ := parts
  dsimp only at lowered
  generalize (if Text.startsWith base "w" = true ∨
    base = "movz" ∧ Text.startsWith physical.mnemonic "movz w" = true then Width.b32 else .b64) =
    width at lowered
  cases known : classify base with
  | none =>
    rw [known] at lowered
    cases lowered
  | some kind =>
    rw [known] at lowered
    dsimp only at lowered
    split_ifs at lowered with moved named
    · cases lowered
      exact ⟨nofun, nofun⟩
    · cases lowered
      constructor <;> rintro rfl <;> rfl
    · cases lowered
      exact ⟨fun call => absurd (Or.inr call) named, fun ret => absurd (Or.inl ret) named⟩

/-- The displacement that an access writes back to the stack pointer. -/
def Instr.writtenBack (instr : Instr) : Int64 :=
  match instr.addressing with
  | some addressing =>
    if addressing.indexing ≠ .offset ∧ addressing.base = .sp then addressing.disp else 0
  | none => 0

/-- The displacement of a memory operand that is based on the stack pointer. -/
def stackDisp (instr : LoweredInstr) : Int64 :=
  match Abi.memOperand instr with
  | some memory => if memory.base.any Abi.isSp then memory.disp else 0
  | none => 0

/-- The displacement of the memory operand through which `str`, `stp`, `ldr` or `ldp`
accesses the stack. -/
def Instr.shownDisp (instr : Instr) : Int64 :=
  if instr.lowered.mnemonic ∈ ["str", "stp", "ldr", "ldp"] then stackDisp instr.lowered else 0

/-- An instruction moves the stack pointer as its lowered form shows. -/
def Followed (instr : Instr) (state : State) : Prop :=
  match instr.adjusts with
  -- a single immediate is not shifted
  | some (_, [.imm count]) => instr.modifier count.toBitVec = count.toBitVec
  -- the result is the stack pointer moved by the immediate, as it is when the source is the
  -- stack pointer and the immediate is not shifted
  | some (operation, [.reg left, .imm count]) =>
    operation.apply .b64 (state.read left) (instr.modifier count.toBitVec) =
      operation.apply .b64 state.sp count.toBitVec
  -- an amount in a register leaves the stack pointer where it was
  | some (operation, [.reg left, .reg right]) =>
    operation.apply .b64 (state.read left) (instr.modifier (state.read right)) = state.sp
  | some _ => True
  -- what an access writes back is what its lowered form shows
  | none => instr.writtenBack = instr.shownDisp

/-- The instruction at a point moves the stack pointer as its lowered form shows. -/
def FollowedAt (body : List Instr) (point : Point State) : Prop :=
  ∀ instr, body[point.position]? = some instr → Followed instr point.state

/-- The tracked change of an instruction. -/
def Instr.change (instr : Instr) : Int64 := Abi.spChange instr.lowered

/-- The tracked delta is the way of the stack pointer since entry. -/
def TracksStack (body : List Instr) : Word → Point State → Prop :=
  Tracks Instr.change body State.sp

/-- The delta of the walk is the sum over the lowered instructions. -/
theorem tracked_map (body : List Instr) (position : Nat) :
    tracked Abi.checker.change (body.map Instr.lowered) position =
      tracked Instr.change body position := by
  simp only [tracked, accAt, ← List.map_take, List.foldl_map]
  rfl

/-- The walk takes the immediate of an `add` or `sub` of the stack pointer for its way. -/
theorem change_of_adjusts (instr : Instr) (operation : Arith) (sources : List Operand)
    (adjusts : instr.adjusts = some (operation, sources)) :
    instr.change = match Abi.adjustment sources with
      | some count => if operation = .sub then count else -count
      | none => 0 := by
  obtain ⟨target, shape, stack, ⟨rfl, name⟩ | ⟨rfl, name⟩⟩ :=
    shape_of_adjusts instr operation sources adjusts
  all_goals
    simp only [Instr.change, Abi.spChange, Abi.adjustmentChange, shape, name, Abi.isSp, stack]
    cases Abi.adjustment sources <;> simp

/-- An instruction that does not add to the stack pointer has no such change. -/
theorem adjustmentChange_of_other (instr : Instr) (other : instr.adjusts = none)
    (arithmetic : instr.lowered.mnemonic = "add" ∨ instr.lowered.mnemonic = "sub") :
    Abi.adjustmentChange instr.lowered = 0 := by
  unfold Abi.adjustmentChange
  split
  next target sources shape =>
    have apart : Abi.isSp target = false := by
      by_contra stack
      rcases arithmetic with name | name <;>
        simp_all [Instr.adjusts, Abi.isSp]
    cases Abi.adjustment sources <;> simp [apart]
  next => rfl

/-- An access is taken to move the stack pointer by its displacement, upwards or downwards. -/
theorem accessChange_eq (instr : LoweredInstr) : Abi.accessChange instr = -stackDisp instr := by
  unfold Abi.accessChange stackDisp
  cases Abi.memOperand instr with
  | none => rfl
  | some memory =>
    dsimp only
    by_cases stack : memory.base.any Abi.isSp = true
    · rw [if_pos stack, if_pos stack]
      split_ifs with below above
      · rfl
      · rfl
      · have zero : memory.disp = 0 := by
          rw [gt_iff_lt, Int64.lt_iff_toInt_lt] at above
          rw [Int64.lt_iff_toInt_lt] at below
          rw [← Int64.toInt_inj]
          omega
        rw [zero]
        rfl
    · rw [if_neg stack, if_neg stack]
      rfl

/-- The walk takes any other instruction to move the stack pointer as its operand shows. -/
theorem change_of_other (instr : Instr) (other : instr.adjusts = none) :
    instr.change = -instr.shownDisp := by
  unfold Instr.change Abi.spChange Instr.shownDisp
  split_ifs with accesses arithmetic
  · exact accessChange_eq instr.lowered
  · exact adjustmentChange_of_other instr other arithmetic
  · rfl

/-- A writeback moves the stack pointer by the displacement it writes back. -/
theorem writeback_sp (instr : Instr) (addressing : Addressing) (state : State)
    (accesses : instr.addressing = some addressing) :
    (addressing.writeback state).sp = state.sp + instr.writtenBack.toBitVec := by
  have amount : addressing.amount = addressing.disp.toBitVec := BitVec.ofInt_toInt
  unfold Instr.writtenBack Addressing.writeback
  rw [accesses]
  obtain ⟨base, index, disp, indexing⟩ := addressing
  cases indexing <;> cases base <;> simp_all [State.set, State.cell]
  all_goals split_ifs <;> rfl

/-- A way as far as an operation goes with an immediate. -/
theorem gone_apply_iff (operation : Arith) (known : operation = .add ∨ operation = .sub)
    (pointer value : Word) (count : Int64) :
    Gone pointer value (if operation = .sub then count else -count) ↔
      value = operation.apply .b64 pointer count.toBitVec := by
  unfold Gone
  rcases known with rfl | rfl
  · simp only [Arith.apply, reduceCtorEq, if_false, Int64.toBitVec_neg]
    constructor <;> intro same <;> bv_omega
  · simp only [Arith.apply, if_true]
    constructor <;> intro same <;> bv_omega

/-- What executes is one of four kinds of instruction. -/
theorem spAfter_cases (instr : Instr) (state : State) (value : Word)
    (executed : instr.spAfter state = some value) :
    (∃ operation count, instr.adjusts = some (operation, [.imm count]) ∧
        value = operation.apply .b64 state.sp (instr.modifier count.toBitVec)) ∨
      (∃ operation left count, instr.adjusts = some (operation, [.reg left, .imm count]) ∧
        value = operation.apply .b64 (state.read left) (instr.modifier count.toBitVec)) ∨
      (∃ operation left right, instr.adjusts = some (operation, [.reg left, .reg right]) ∧
        value = operation.apply .b64 (state.read left) (instr.modifier (state.read right))) ∨
      (instr.adjusts = none ∧ value = state.sp + instr.writtenBack.toBitVec) := by
  unfold Instr.spAfter at executed
  split at executed
  next operation count adjusts =>
    exact Or.inl ⟨operation, count, adjusts, (Option.some.inj executed).symm⟩
  next operation left count adjusts =>
    exact Or.inr (Or.inl ⟨operation, left, count, adjusts, (Option.some.inj executed).symm⟩)
  next operation left right adjusts =>
    exact Or.inr (Or.inr (Or.inl
      ⟨operation, left, right, adjusts, (Option.some.inj executed).symm⟩))
  next => cases executed
  next other =>
    refine Or.inr (Or.inr (Or.inr ⟨other, ?_⟩))
    split at executed
    next addressing accesses =>
      rw [← writeback_sp instr addressing state accesses]
      exact (Option.some.inj executed).symm
    next still =>
      rw [Instr.writtenBack, still, ← Option.some.inj executed]
      exact (BitVec.add_zero state.sp).symm

/-- An instruction moves the stack pointer by its tracked change exactly when it moves it as
its lowered form shows. -/
theorem gone_iff_followed (instr : Instr) (state : State) (value : Word)
    (executed : instr.spAfter state = some value) :
    Gone state.sp value instr.change ↔ Followed instr state := by
  have known (operation : Arith) (sources : List Operand)
      (adjusts : instr.adjusts = some (operation, sources)) : operation = .add ∨ operation = .sub := by
    obtain ⟨_, _, _, named⟩ := shape_of_adjusts instr operation sources adjusts
    exact named.imp And.left And.left
  obtain ⟨operation, count, adjusts, rfl⟩ | ⟨operation, left, count, adjusts, rfl⟩ |
    ⟨operation, left, right, adjusts, rfl⟩ | ⟨other, rfl⟩ := spAfter_cases instr state value executed
  · rw [change_of_adjusts instr operation _ adjusts, Abi.adjustment,
      gone_apply_iff operation (known operation _ adjusts)]
    simp only [Followed, adjusts]
    rcases known operation _ adjusts with rfl | rfl
    · exact BitVec.add_right_inj state.sp
    · exact BitVec.sub_right_inj state.sp
  · rw [change_of_adjusts instr operation _ adjusts, Abi.adjustment,
      gone_apply_iff operation (known operation _ adjusts)]
    simp only [Followed, adjusts]
  · rw [change_of_adjusts instr operation _ adjusts,
      show Abi.adjustment [.reg left, .reg right] = none from rfl]
    simp only [Followed, adjusts]
    unfold Gone
    rw [show (0 : Int64).toBitVec = 0 from rfl]
    constructor <;> intro same <;> bv_omega
  · rw [change_of_other instr other]
    simp only [Followed, other]
    unfold Gone
    rw [Int64.toBitVec_neg, ← Int64.toBitVec_inj]
    constructor <;> intro same <;> bv_omega

/-- What the walk says of a point of a run. -/
structure WalkRight (body : List Instr) (entry : Word) (point : Point State) : Prop where
  /-- The tracked delta is the way of the stack pointer since entry. -/
  tracked : TracksStack body entry point
  /-- The next instruction keeps it so exactly when it moves the stack pointer as it shows. -/
  sharp : ∀ after, Step body StackRuns point after →
    (TracksStack body entry after ↔ FollowedAt body point)
  /-- A return of a clean body finds the stack pointer of entry. -/
  returned : (Abi.analyze (body.map Instr.lowered)).isClean = true → ∀ instr,
    body[point.position]? = some instr → instr.lowered.mnemonic = "ret" → point.state.sp = entry
  /-- A call of a clean body finds it aligned when the caller called aligned. -/
  aligned : (Abi.analyze (body.map Instr.lowered)).isClean = true → ∀ instr,
    body[point.position]? = some instr → instr.lowered.mnemonic = "bl" →
      entry.toNat % 16 = 0 → point.state.sp.toNat % 16 = 0
  /-- A return is reported as unbalanced exactly when it finds another stack pointer. -/
  reported : ∀ instr, body[point.position]? = some instr → instr.lowered.mnemonic = "ret" →
    ((∃ finding ∈ (Abi.analyze (body.map Instr.lowered)).findings,
        finding.code = "STACK_BALANCE_RET" ∧ finding.index = some point.position) ↔
      point.state.sp ≠ entry)

/-- The next instruction keeps the delta right exactly when it is followed. -/
theorem tracksStack_succ_iff (body : List Instr) (entry : Word) (point after : Point State)
    (tracks : TracksStack body entry point) (step : Step body StackRuns point after) :
    TracksStack body entry after ↔ FollowedAt body point := by
  rw [TracksStack, tracks_succ_iff Instr.change body State.sp StackRuns entry point after tracks step]
  obtain ⟨_, instr, found, _, executed⟩ := step
  apply forall_congr'
  intro other
  apply imp_congr_right
  intro there
  rw [found] at there
  cases there
  exact gone_iff_followed instr point.state after.state.sp executed

/-- While every instruction moves the stack pointer as its lowered form shows, what the walk
says is right.

Proof: the tracked delta is an invariant of the run. A clean verdict gives the delta at a
return and at a call, and with it the stack pointer. -/
theorem aapcs64_walk_right_along_runs (body : List Instr) (entry : State) (point : Point State)
    (reached : Reaches (Under (FollowedAt body) (Step body StackRuns)) ⟨0, entry⟩ point) :
    WalkRight body entry.sp point := by
  have tracks : TracksStack body entry.sp point := by
    refine tracks_along Instr.change body State.sp StackRuns (FollowedAt body) ?_ entry point reached
    intro point after followed step instr found
    obtain ⟨_, other, there, _, executed⟩ := step
    rw [found] at there
    cases there
    exact (gone_iff_followed instr _ _ executed).mpr (followed instr found)
  have gone : Gone entry.sp point.state.sp
      (Displacement.tracked Abi.checker.change (body.map Instr.lowered) point.position) := by
    rw [tracked_map]
    exact tracks
  have verdict := verdictRight_of_gone Abi.checker rfl rfl _ entry.sp _ point.position gone
  have lowered (instr : Instr) (found : body[point.position]? = some instr) :
      (body.map Instr.lowered)[point.position]? = some instr.lowered := by
    rw [List.getElem?_map, found, Option.map_some]
  have named (name : String) (instr : Instr) (same : instr.lowered.mnemonic = name) :
      (instr.lowered.mnemonic == name) = true := beq_iff_eq.mpr same
  refine ⟨tracks, fun after => tracksStack_succ_iff body entry.sp point after tracks, ?_, ?_, ?_⟩
  · intro clean instr found returns
    exact verdict.returned clean _ (lowered instr found) (named _ instr returns)
  · intro clean instr found calls
    exact verdict.aligned clean _ (lowered instr found) (named _ instr calls)
  · intro instr found returns
    exact verdict.reported _ (lowered instr found) (named _ instr returns)

/-- A frame of sixteen bytes around a call. -/
def framedCall : List Instr :=
  [⟨⟨"sub", .binary, .b64, none, [.reg .sp, .reg .sp, .imm 16]⟩, none, id⟩,
    ⟨⟨"bl", .call, .b64, none, [.imm 4096]⟩, none, id⟩,
    ⟨⟨"add", .binary, .b64, none, [.reg .sp, .reg .sp, .imm 16]⟩, none, id⟩,
    ⟨⟨"ret", .ret, .b64, none, []⟩, none, id⟩]

/-- A state with a stack pointer. -/
def stateAt (sp : Word) : State := ⟨fun _ => 0, sp, fun _ => 0⟩

/-- The walk is right at the call. -/
theorem framedCall_walk_right :
    (Abi.analyze (framedCall.map Instr.lowered)).isClean = true ∧
      WalkRight framedCall 4096 ⟨1, stateAt 4080⟩ := by
  have followed : FollowedAt framedCall ⟨0, stateAt 4096⟩ := by
    intro instr found
    cases found
    rfl
  have step : Step framedCall StackRuns ⟨0, stateAt 4096⟩ ⟨1, stateAt 4080⟩ :=
    ⟨rfl, _, rfl, by decide, rfl⟩
  exact ⟨by decide +kernel, aapcs64_walk_right_along_runs framedCall (stateAt 4096) _
    (.next .start ⟨followed, step⟩)⟩

/-- A pre-indexed store as the decoder splits it, and a return. -/
def pushedOnly : List Instr :=
  [⟨⟨"str", .store, .b64, none, [.reg Gp.x0.full, .mem ⟨some .sp, none, 1, 0, .b64⟩]⟩,
      some ⟨.sp, none, -16, .pre⟩, id⟩,
    ⟨⟨"ret", .ret, .b64, none, []⟩, none, id⟩]

/-- `str x0, [sp, #-16]!` followed by `ret` is judged clean, and the walk tracks no change,
while the return finds the stack pointer sixteen bytes below that of entry. -/
theorem pushedOnly_not_tracked :
    lowerKeepAll
        [⟨0, [], "str", ["x0", "[sp", "#-16]!"], [], [], [], false⟩,
          ⟨4, [], "ret", [], [], [], [], false⟩] = pushedOnly.map Instr.lowered ∧
      (Abi.analyze (pushedOnly.map Instr.lowered)).isClean = true ∧
      ∃ point, Reaches (Step pushedOnly StackRuns) ⟨0, stateAt 4096⟩ point ∧
        (pushedOnly[point.position]?.map fun instr => instr.lowered.mnemonic) = some "ret" ∧
        ¬ TracksStack pushedOnly 4096 point ∧ point.state.sp ≠ 4096 := by
  refine ⟨by decide +kernel, by decide +kernel, ⟨1, stateAt 4080⟩, ?_, rfl, ?_, by decide⟩
  · exact .next .start ⟨rfl, _, rfl, by decide, rfl⟩
  · unfold TracksStack Tracks Gone
    decide +kernel

end Semasm.AArch64
