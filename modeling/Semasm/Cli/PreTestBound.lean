import Semasm.Cli.LoopSteps

/-!
# The bound of a confirmed pre-test loop

Along a run the value of the index is followed from its zeroing to the exit. It
stays below the bound between the guard and the increment as long as the text of
the loop tells the whole story: no other instruction changes the index, the views
are whole enough, and control stays on the path that passes the comparison.
-/

namespace Semasm.Cli

open Decode Library X86

namespace LoopPlaces

/-- A jump between two places of the loop on which the bound survives. Behind the
comparison a jump comes from the guarded part, and before it anything goes as
long as the index is still zero. -/
def Continues (loop : LoopPlaces) (point : RunPoint) (target : Nat) : Prop :=
  (loop.zeroing < point.position ∧ point.position < loop.header ∧
      (target ≤ loop.header ∨ loop.increment < target ∨ point.state.regs loop.cell = 0)) ∨
    (loop.header + 2 ≤ point.position ∧ point.position ≤ loop.increment) ∨
    (loop.increment < point.position ∧ point.position < loop.exit ∧
      (target ≤ loop.header ∨ loop.increment < target))

/-- The steps that the recogniser overlooks. -/
inductive Disorder (loop : LoopPlaces) (lowered : List LoweredInstr)
    (physical : List PhysicalInstruction) (envs : Nat → Environment) (point : RunPoint) : Prop
  /-- The index is zeroed through a view that leaves the rest of it. -/
  | partialZeroing (instr : LoweredInstr) (here : point.position = loop.zeroing)
      (found : lowered[point.position]? = some instr) (narrow : ¬ FirstView Wide instr)
  /-- The comparison or the increment names the second byte of the index. -/
  | partialCount (instr : LoweredInstr)
      (here : point.position = loop.header ∨ point.position = loop.increment)
      (found : lowered[point.position]? = some instr) (second : ¬ FirstView Low instr)
  /-- Another instruction of the loop may change the index. -/
  | overwritten (after : loop.zeroing < point.position) (before : point.position < loop.exit)
      (other : point.position ≠ loop.increment) (changes : MayChange lowered loop.cell point.position)
  /-- Control enters the loop past its zeroing or its comparison. -/
  | entered (after : RunPoint) (transfer : Transfer lowered physical envs point after)
      (past : loop.zeroing < after.position) (inside : after.position < loop.exit)
      (astray : ¬ (Jumps lowered point.position ∧ loop.Continues point after.position))

/-- The step from a moment is none of the overlooked ones. -/
def Orderly (loop : LoopPlaces) (lowered : List LoweredInstr) (physical : List PhysicalInstruction)
    (envs : Nat → Environment) (point : RunPoint) : Prop :=
  ¬ loop.Disorder lowered physical envs point

/-- What the loop maintains of the index at each of its places. -/
structure Maintains (loop : LoopPlaces) (point : RunPoint) : Prop where
  atMost : loop.zeroing < point.position → point.position < loop.exit →
    (point.state.regs loop.cell).toNat ≤ loop.limit.toNat
  reached : point.position = loop.header + 1 →
    (point.state.regs loop.cell).toNat = loop.limit.toNat → NotBelow point.state.flags
  below : loop.header + 2 ≤ point.position → point.position ≤ loop.increment →
    (point.state.regs loop.cell).toNat < loop.limit.toNat

/-- Outside the loop nothing is maintained. -/
theorem maintains_outside (loop : LoopPlaces) (lowered : List LoweredInstr)
    (physical : List PhysicalInstruction) (confirmed : loop.Confirmed lowered physical)
    (point : RunPoint) (outside : point.position ≤ loop.zeroing ∨ loop.exit ≤ point.position) :
    loop.Maintains point := by
  have first := confirmed.zeroingFirst
  have starts := confirmed.bodyStarts
  have ends := confirmed.bodyEnds
  constructor
  · intro past inside
    omega
  · intro here
    omega
  · intro past inside
    omega

/-- The bound of a confirmed loop is positive. -/
theorem limit_pos (loop : LoopPlaces) (lowered : List LoweredInstr)
    (physical : List PhysicalInstruction) (confirmed : loop.Confirmed lowered physical) :
    0 < loop.limit.toNat := by
  obtain ⟨instr, bound, _, _, compared, limit⟩ := confirmed.compares
  have positive := comparedBound_pos instr loop.cell bound compared
  have number := (toUInt64_of_nonneg bound (by omega)).1
  rw [limit]
  omega

/-- Falling through an orderly step maintains the bound. -/
theorem maintains_falls (loop : LoopPlaces) (lowered : List LoweredInstr)
    (physical : List PhysicalInstruction) (confirmed : loop.Confirmed lowered physical)
    (envs : Nat → Environment) (point after : RunPoint)
    (orderly : loop.Orderly lowered physical envs point) (holds : loop.Maintains point)
    (falls : Falls lowered envs point after) : loop.Maintains after := by
  have first := confirmed.zeroingFirst
  have starts := confirmed.bodyStarts
  have ends := confirmed.bodyEnds
  have next : after.position = point.position + 1 := by
    cases falls
    rfl
  by_cases outside : after.position ≤ loop.zeroing ∨ loop.exit ≤ after.position
  · exact loop.maintains_outside lowered physical confirmed after outside
  have kept : loop.zeroing < point.position → point.position ≠ loop.increment →
      after.state.regs loop.cell = point.state.regs loop.cell := by
    intro past other
    apply falls.regs_kept
    intro changes
    exact orderly (.overwritten past (by omega) other changes)
  obtain ⟨instr, outcome, found, executed, through⟩ := falls
  simp only at kept next outside ⊢
  by_cases atZeroing : point.position = loop.zeroing
  · -- the zeroing itself
    have zero : (outcome.result point.state).regs loop.cell = 0 := by
      obtain ⟨zeroing, here, zeroes⟩ := confirmed.zeroes
      rw [atZeroing, here] at found
      cases found
      apply zeroing_leaves_zero _ instr _ outcome loop.cell executed zeroes
      by_contra narrow
      exact orderly (.partialZeroing instr atZeroing (by rw [atZeroing]; exact here) narrow)
    constructor
    · intro _ _
      simp [zero]
    · intro here
      simp only at here
      omega
    · intro past
      simp only at past
      omega
  by_cases atHeader : point.position = loop.header
  · -- the comparison
    obtain ⟨cmp, bound, here, named, compared, limit⟩ := confirmed.compares
    have there := found
    rw [atHeader, here] at there
    cases there
    obtain ⟨_, reaches⟩ := comparison_step _ instr _ outcome loop.cell bound executed named compared
    have low : FirstView Low instr := by
      by_contra second
      exact orderly (.partialCount instr (Or.inl atHeader) found second)
    have same := kept (by omega) (by omega)
    constructor
    · intro _ _
      simp only [same]
      exact holds.atMost (by omega) (by omega)
    · intro _ equal
      apply reaches low
      rw [← limit, ← same]
      exact equal
    · intro past
      simp only at past
      omega
  by_cases atGuard : point.position = loop.header + 1
  · -- the guard falls through
    obtain ⟨guard, branch, here, named, _⟩ := confirmed.guards
    have there := found
    rw [atGuard, here] at there
    cases there
    have notReached := guard_falls _ instr _ outcome executed named through
    have same := kept (by omega) (by omega)
    have atMost := holds.atMost (by omega) (by omega)
    have differs : (point.state.regs loop.cell).toNat ≠ loop.limit.toNat :=
      fun equal => notReached (holds.reached atGuard equal)
    constructor
    · intro _ _
      simp only [same]
      exact atMost
    · intro again
      simp only at again
      omega
    · intro _ _
      simp only [same]
      omega
  by_cases atIncrement : point.position = loop.increment
  · -- the increment
    obtain ⟨inc, here, named, target⟩ := confirmed.increments
    have there := found
    rw [atIncrement, here] at there
    cases there
    have low : FirstView Low instr := by
      by_contra second
      exact orderly (.partialCount instr (Or.inr atIncrement) found second)
    have counted := increment_le _ instr _ outcome loop.cell executed (Or.inl ⟨named, target⟩) low
    have below := holds.below (by omega) (by omega)
    constructor
    · intro _ _
      simp only
      omega
    · intro again
      simp only at again
      omega
    · intro _ again
      simp only at again
      omega
  · -- an instruction that leaves the index alone
    have same := kept (by omega) atIncrement
    constructor
    · intro _ _
      simp only [same]
      exact holds.atMost (by omega) (by omega)
    · intro again
      simp only at again
      omega
    · intro past inside
      simp only at past inside
      simp only [same]
      exact holds.below (by omega) (by omega)

/-- An orderly transfer maintains the bound. -/
theorem maintains_transfer (loop : LoopPlaces) (lowered : List LoweredInstr)
    (physical : List PhysicalInstruction) (confirmed : loop.Confirmed lowered physical)
    (envs : Nat → Environment) (point after : RunPoint)
    (orderly : loop.Orderly lowered physical envs point) (holds : loop.Maintains point)
    (transfer : Transfer lowered physical envs point after) : loop.Maintains after := by
  have first := confirmed.zeroingFirst
  have starts := confirmed.bodyStarts
  have ends := confirmed.bodyEnds
  have positive := loop.limit_pos lowered physical confirmed
  by_cases outside : after.position ≤ loop.zeroing ∨ loop.exit ≤ after.position
  · exact loop.maintains_outside lowered physical confirmed after outside
  obtain ⟨jumps, continues⟩ : Jumps lowered point.position ∧
      loop.Continues point after.position := by
    by_contra astray
    exact orderly (.entered after transfer (by omega) (by omega) astray)
  have state := (transfer.jump_state jumps).1
  rcases continues with ⟨past, early, target⟩ | ⟨past, early⟩ | ⟨past, early, target⟩
  · have atMost := holds.atMost (by omega) (by omega)
    have zero : after.position ≤ loop.header ∨ loop.increment < after.position ∨
        (point.state.regs loop.cell).toNat = 0 := by
      rcases target with near | far | zero
      · exact Or.inl near
      · exact Or.inr (Or.inl far)
      · exact Or.inr (Or.inr (by simp [zero]))
    constructor <;> rw [state] <;> intros <;> omega
  · have below := holds.below past early
    constructor <;> rw [state] <;> intros <;> omega
  · have atMost := holds.atMost (by omega) (by omega)
    constructor <;> rw [state] <;> intros <;> omega

/-- The loop is confirmed and bounds the index of the access at a position. -/
structure Bounds (loop : LoopPlaces) (lowered : List LoweredInstr)
    (physical : List PhysicalInstruction) (position : Nat) (cell : Gp) (limit : UInt64) : Prop where
  sameCell : loop.cell = cell
  sameLimit : loop.limit = limit
  confirmed : loop.Confirmed lowered physical
  past : loop.header + 2 ≤ position
  inside : position < loop.exit - 1

end LoopPlaces

/-- A bound attached to an access comes from a confirmed pre-test loop around it,
and holds at every access before the increment in every run whose steps are all
orderly.

Proof: the value is at most the bound from the zeroing to the exit, equal to it
at the guard only with flags that leave the loop, and therefore below it from the
guard to the increment. Each step of a run maintains this. -/
theorem pre_test_bound_along_runs (lowered : List LoweredInstr)
    (physical : List PhysicalInstruction) (position : Nat) (cell : Gp) (limit : UInt64)
    (attached : cfgPreTestInductions lowered physical position = some (cell, limit)) :
    (∃ loop : LoopPlaces, loop.Bounds lowered physical position cell limit) ∧
      ∀ loop : LoopPlaces, loop.Bounds lowered physical position cell limit →
        ∀ envs start point, Transitions.Reaches
            (Transitions.Under (loop.Orderly lowered physical envs)
              (ProgramStep lowered physical envs)) ⟨0, 0, start⟩ point →
          point.position = position → position ≤ loop.increment →
          (point.state.regs cell).toNat < limit.toNat := by
  constructor
  · obtain ⟨loop, sameCell, sameLimit, confirmed, past, inside⟩ :=
      cfgPreTestInductions_some lowered physical position cell limit attached
    exact ⟨loop, sameCell, sameLimit, confirmed, past, inside⟩
  · rintro loop ⟨rfl, rfl, confirmed, past, inside⟩ envs start point reached here early
    have maintained : loop.Maintains point := by
      apply reached.invariant loop.Maintains
      · exact loop.maintains_outside lowered physical confirmed _ (Or.inl (Nat.zero_le _))
      · intro before after _ holds taken
        obtain ⟨orderly, falls | transfer⟩ := taken
        · exact loop.maintains_falls lowered physical confirmed envs before after orderly holds falls
        · exact loop.maintains_transfer lowered physical confirmed envs before after orderly holds
            transfer
    exact maintained.below (by omega) (by omega)

/-- A counted loop whose access stands behind the increment. -/
def incrementFirst : List LoweredInstr :=
  [⟨"xor", .binary, .b32, none, [.reg Gp.rcx.low32, .reg Gp.rcx.low32]⟩,
   ⟨"cmp", .compare, .b64, none, [.reg Gp.rcx.full, .imm 1]⟩,
   ⟨"jae", .branch, .b64, some false, [.imm 0x10]⟩,
   ⟨"inc", .binary, .b64, none, [.reg Gp.rcx.full]⟩,
   ⟨"mov", .store, .b8, none, [.reg Gp.rax.low8, .mem ⟨some Gp.rdi.full, some Gp.rcx.full, 1, 0, .b8⟩]⟩,
   ⟨"jmp", .branch, .b64, none, [.imm 2]⟩,
   ⟨"ret", .ret, .b64, none, []⟩]

def incrementFirstPhysical : List PhysicalInstruction :=
  [⟨0, [0x31, 0xC9], "xor", ["ecx", "ecx"], [], [], [], false⟩,
   ⟨2, [0x48, 0x83, 0xF9, 0x01], "cmp", ["rcx", "1"], [], [], [], false⟩,
   ⟨6, [0x73, 0x08], "jae", ["0x10"], [], [], [], false⟩,
   ⟨8, [0x48, 0xFF, 0xC1], "inc", ["rcx"], [], [], [], false⟩,
   ⟨0xB, [0x8A, 0x04, 0x0F], "mov", ["al", "byte ptr [rdi + rcx]"], [], [], [], false⟩,
   ⟨0xE, [0xEB, 0xF2], "jmp", ["2"], [], [], [], false⟩,
   ⟨0x10, [0xC3], "ret", [], [], [], [], false⟩]

example : incrementFirstPhysical.map lower = incrementFirst.map .lowered := by decide

/-- The access is given the bound one and executes with the index one. -/
theorem access_behind_increment_reaches_bound :
    cfgPreTestInductions incrementFirst incrementFirstPhysical 4 = some (.rcx, 1) ∧
      ∃ point, Transitions.Reaches
          (ProgramStep incrementFirst incrementFirstPhysical (fun _ => Environment.clear))
          ⟨0, 0, State.clear⟩ point ∧
        point.position = 4 ∧ (point.state.regs .rcx).toNat = 1 ∧
        ∃ instr outcome, incrementFirst[4]? = some instr ∧
          exec Environment.clear instr point.state = some outcome := by
  refine ⟨by decide, _, RunPoint.reaches_of_fallMany _ _ _ 4 _ _ rfl, rfl, by decide, _, _, rfl, rfl⟩

/-- The same loop with the access before the increment. -/
def accessFirst : List LoweredInstr :=
  [⟨"xor", .binary, .b32, none, [.reg Gp.rcx.low32, .reg Gp.rcx.low32]⟩,
   ⟨"cmp", .compare, .b64, none, [.reg Gp.rcx.full, .imm 1]⟩,
   ⟨"jae", .branch, .b64, some false, [.imm 0x10]⟩,
   ⟨"mov", .store, .b8, none, [.reg Gp.rax.low8, .mem ⟨some Gp.rdi.full, some Gp.rcx.full, 1, 0, .b8⟩]⟩,
   ⟨"inc", .binary, .b64, none, [.reg Gp.rcx.full]⟩,
   ⟨"jmp", .branch, .b64, none, [.imm 2]⟩,
   ⟨"ret", .ret, .b64, none, []⟩]

def accessFirstPhysical : List PhysicalInstruction :=
  [⟨0, [0x31, 0xC9], "xor", ["ecx", "ecx"], [], [], [], false⟩,
   ⟨2, [0x48, 0x83, 0xF9, 0x01], "cmp", ["rcx", "1"], [], [], [], false⟩,
   ⟨6, [0x73, 0x08], "jae", ["0x10"], [], [], [], false⟩,
   ⟨8, [0x8A, 0x04, 0x0F], "mov", ["al", "byte ptr [rdi + rcx]"], [], [], [], false⟩,
   ⟨0xB, [0x48, 0xFF, 0xC1], "inc", ["rcx"], [], [], [], false⟩,
   ⟨0xE, [0xEB, 0xF2], "jmp", ["2"], [], [], [], false⟩,
   ⟨0x10, [0xC3], "ret", [], [], [], [], false⟩]

example : accessFirstPhysical.map lower = accessFirst.map .lowered := by decide

def accessFirstPlaces : LoopPlaces := ⟨.rcx, 1, 0, 1, 4, 6⟩

theorem accessFirst_bounds :
    accessFirstPlaces.Bounds accessFirst accessFirstPhysical 3 .rcx 1 where
  sameCell := rfl
  sameLimit := rfl
  past := by decide
  inside := by decide
  confirmed :=
    { zeroingFirst := by decide
      bodyStarts := by decide
      bodyEnds := by decide
      zeroes := ⟨_, rfl, by decide⟩
      silentBefore := by
        intro position instr past before _
        simp only [accessFirstPlaces] at past before
        omega
      compares := ⟨_, 1, rfl, by decide, by decide, by decide⟩
      guards := ⟨_, _, rfl, by decide, rfl, by decide⟩
      increments := ⟨_, rfl, by decide, by decide⟩
      silentBody := by
        intro position instr past before other found
        simp only [accessFirstPlaces] at past before other
        have access : position = 3 := by omega
        subst access
        cases found
        decide
      jumpsBack := ⟨_, _, rfl, by decide, rfl, by decide⟩ }

/-- Up to the guard that falls through, every step is orderly. -/
theorem accessFirst_orderly (point : RunPoint) (early : point.position < 3)
    (smaller : point.position = 2 → point.state.flags.carry = true) :
    accessFirstPlaces.Orderly accessFirst accessFirstPhysical (fun _ => Environment.clear) point := by
  obtain ⟨clock, position, state⟩ := point
  simp only at early smaller
  rintro (⟨instr, here, found, narrow⟩ | ⟨instr, here, found, second⟩ |
    ⟨past, _, _, instr, op, found, known, changes⟩ | ⟨after, transfer, _, _, astray⟩)
  · cases here
    cases found
    exact narrow ⟨_, _, rfl, by decide⟩
  · simp only [accessFirstPlaces] at here
    obtain rfl : position = 1 := by omega
    cases found
    exact second ⟨_, _, rfl, by decide⟩
  · have silent : ∀ (place : Nat) instr op, place < 3 → 0 < place →
        accessFirst[place]? = some instr → instr.op = some op →
        ¬ op.changes instr.operands .rcx := by
      intro place instr op below above found known
      obtain rfl | rfl : place = 1 ∨ place = 2 := by omega
      · cases found
        cases known
        decide
      · cases found
        cases known
        decide
    exact silent position instr op early past found known changes
  · obtain ⟨instr, op, found, known, transfers⟩ := transfer.source
    obtain rfl | rfl | rfl : position = 0 ∨ position = 1 ∨ position = 2 := by omega
    · cases found
      cases known
      cases transfers
    · cases found
      cases known
      cases transfers
    · obtain ⟨_, other, outcome, there, executed, taken⟩ :=
        transfer.jump_state ⟨_, _, rfl, rfl, Or.inr ⟨.ae, rfl⟩⟩
      cases there
      have branch : exec Environment.clear ⟨"jae", .branch, .b64, some false, [.imm 0x10]⟩ state =
          some ⟨[], [], state.flags, if Condition.ae.holds state.flags then .jump else .goOn⟩ := rfl
      rw [branch] at executed
      cases executed
      simp [Condition.holds, smaller rfl] at taken

/-- The first access of the loop reads at index zero. -/
theorem accessFirst_bound :
    ∃ point : RunPoint, point.position = 3 ∧ (point.state.regs .rcx).toNat < 1 := by
  have step : ∀ before after : RunPoint, before.position < 3 →
      (before.position = 2 → before.state.flags.carry = true) →
      before.fall accessFirst (fun _ => Environment.clear) = some after →
      Transitions.Under
        (accessFirstPlaces.Orderly accessFirst accessFirstPhysical (fun _ => Environment.clear))
        (ProgramStep accessFirst accessFirstPhysical (fun _ => Environment.clear)) before after :=
    fun before after early smaller fell => ⟨accessFirst_orderly before early smaller,
      Or.inl (RunPoint.falls_of_fall _ _ before after fell)⟩
  refine ⟨_, rfl, (pre_test_bound_along_runs accessFirst accessFirstPhysical 3 .rcx 1 (by decide)).2
    accessFirstPlaces accessFirst_bounds (fun _ => Environment.clear) State.clear _
    (.next (.next (.next .start (step _ _ (by decide) (by decide) rfl))
      (step _ _ (by decide) (by decide) rfl)) (step _ _ (by decide) (by decide) rfl))
    rfl (by decide)⟩

end Semasm.Cli
