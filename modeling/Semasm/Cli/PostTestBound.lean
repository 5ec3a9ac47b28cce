import Semasm.Cli.PostTestLoop

/-!
# The bound of a recognised post-test loop

The body of a post-test loop runs before any comparison, so its bound rests on
the zeroing reaching the access. From there the value of the index is followed to
the branch behind the comparison, which goes back only while the index is below
the bound.
-/

namespace Semasm.Cli

open Decode Library X86

namespace PostTestPlaces

/-- A jump between two places of the loop on which the bound survives: from up to
the increment anywhere, from behind it no further than the comparison, and from
the branch behind the comparison anywhere. -/
def Continues (loop : PostTestPlaces) (source target : Nat) : Prop :=
  (loop.zeroing < source ∧ source ≤ loop.increment) ∨
    (loop.increment < source ∧ source ≤ loop.compare ∧ loop.increment < target ∧
      target ≤ loop.compare) ∨
    source = loop.compare + 1

/-- The steps that the recognisers overlook. -/
inductive Disorder (loop : PostTestPlaces) (lowered : List LoweredInstr)
    (physical : List PhysicalInstruction) (envs : Nat → Environment) (point : RunPoint) : Prop
  /-- The index is zeroed through a view that leaves the rest of it. -/
  | partialZeroing (instr : LoweredInstr) (here : point.position = loop.zeroing)
      (found : lowered[point.position]? = some instr) (narrow : ¬ FirstView Wide instr)
  /-- The increment or the comparison names the second byte of the index. -/
  | partialCount (instr : LoweredInstr)
      (here : point.position = loop.increment ∨ point.position = loop.compare)
      (found : lowered[point.position]? = some instr) (second : ¬ FirstView Low instr)
  /-- Another instruction of the loop may change the index. -/
  | overwritten (after : loop.zeroing < point.position) (before : point.position < loop.compare)
      (other : point.position ≠ loop.increment) (changes : MayChange lowered loop.cell point.position)
  /-- Control enters the loop past its zeroing or its comparison. -/
  | entered (after : RunPoint) (transfer : Transfer lowered physical envs point after)
      (past : loop.zeroing < after.position) (inside : after.position ≤ loop.compare + 1)
      (astray : ¬ (Jumps lowered point.position ∧ loop.Continues point.position after.position))

/-- The step from a moment is none of the overlooked ones. -/
def Orderly (loop : PostTestPlaces) (lowered : List LoweredInstr)
    (physical : List PhysicalInstruction) (envs : Nat → Environment) (point : RunPoint) : Prop :=
  ¬ loop.Disorder lowered physical envs point

/-- What the loop maintains of the index at each of its places. -/
structure Maintains (loop : PostTestPlaces) (point : RunPoint) : Prop where
  below : loop.zeroing < point.position → point.position ≤ loop.increment →
    (point.state.regs loop.cell).toNat < loop.limit.toNat
  atMost : loop.increment < point.position → point.position ≤ loop.compare + 1 →
    (point.state.regs loop.cell).toNat ≤ loop.limit.toNat
  reached : point.position = loop.compare + 1 →
    (point.state.regs loop.cell).toNat = loop.limit.toNat → NotBelow point.state.flags

/-- The bound of a confirmed loop is positive. -/
theorem limit_pos (loop : PostTestPlaces) (lowered : List LoweredInstr)
    (confirmed : loop.Confirmed lowered) : 0 < loop.limit.toNat := by
  obtain ⟨instr, bound, _, _, compared, limit⟩ := confirmed.compares.compares
  have positive := comparedBound_pos instr loop.cell bound compared
  have number := (toUInt64_of_nonneg bound (by omega)).1
  rw [limit]
  omega

/-- Outside the loop nothing is maintained. -/
theorem maintains_outside (loop : PostTestPlaces) (lowered : List LoweredInstr)
    (confirmed : loop.Confirmed lowered) (point : RunPoint)
    (outside : point.position ≤ loop.zeroing ∨ loop.compare + 1 < point.position) :
    loop.Maintains point := by
  have first := confirmed.zeroingFirst
  have next := confirmed.accessNext
  have last := confirmed.compareLast
  constructor <;> intros <;> omega

/-- Falling through an orderly step maintains the bound. -/
theorem maintains_falls (loop : PostTestPlaces) (lowered : List LoweredInstr)
    (physical : List PhysicalInstruction) (confirmed : loop.Confirmed lowered)
    (envs : Nat → Environment) (point after : RunPoint)
    (orderly : loop.Orderly lowered physical envs point) (holds : loop.Maintains point)
    (falls : Falls lowered envs point after) : loop.Maintains after := by
  have first := confirmed.zeroingFirst
  have next := confirmed.accessNext
  have last := confirmed.compareLast
  have moved : after.position = point.position + 1 := by
    cases falls
    rfl
  by_cases outside : after.position ≤ loop.zeroing ∨ loop.compare + 1 < after.position
  · exact loop.maintains_outside lowered confirmed after outside
  have kept : loop.zeroing < point.position → point.position < loop.compare →
      point.position ≠ loop.increment →
      after.state.regs loop.cell = point.state.regs loop.cell := by
    intro past before other
    apply falls.regs_kept
    intro changes
    exact orderly (.overwritten past before other changes)
  obtain ⟨instr, outcome, found, executed, through⟩ := falls
  simp only at kept moved outside ⊢
  by_cases atZeroing : point.position = loop.zeroing
  · -- the zeroing itself
    obtain ⟨zeroing, here, zeroes⟩ := confirmed.zeroes
    have there := found
    rw [atZeroing, here] at there
    cases there
    have wide : FirstView Wide instr := by
      by_contra narrow
      exact orderly (.partialZeroing instr atZeroing found narrow)
    have zero := zeroing_leaves_zero _ instr _ outcome loop.cell executed zeroes wide
    have positive := loop.limit_pos lowered confirmed
    constructor
    · intro _ _
      simpa [zero] using positive
    · intro past
      simp only at past
      omega
    · intro past
      simp only at past
      omega
  by_cases atIncrement : point.position = loop.increment
  · -- the increment
    obtain ⟨increment, here, increments⟩ := confirmed.increments
    have there := found
    rw [atIncrement, here] at there
    cases there
    have low : FirstView Low instr := by
      by_contra second
      exact orderly (.partialCount instr (Or.inl atIncrement) found second)
    have counted := increment_le _ instr _ outcome loop.cell executed increments low
    have below := holds.below (by omega) (by omega)
    constructor
    · intro _ again
      simp only at again
      omega
    · intro _ _
      simp only
      omega
    · intro again
      simp only at again
      omega
  by_cases atCompare : point.position = loop.compare
  · -- the comparison
    obtain ⟨compare, bound, here, named, compared, limit⟩ := confirmed.compares.compares
    have there := found
    rw [atCompare, here] at there
    cases there
    have low : FirstView Low instr := by
      by_contra second
      exact orderly (.partialCount instr (Or.inr atCompare) found second)
    obtain ⟨same, reaches⟩ :=
      comparison_step _ instr _ outcome loop.cell bound executed named compared
    constructor
    · intro _ again
      simp only at again
      omega
    · intro _ _
      simp only [same]
      exact holds.atMost (by omega) (by omega)
    · intro _ equal
      apply reaches low
      rw [← limit, ← same]
      exact equal
  · -- an instruction that leaves the index alone
    have same := kept (by omega) (by omega) atIncrement
    constructor
    · intro past inside
      simp only at past inside
      simp only [same]
      exact holds.below (by omega) (by omega)
    · intro past inside
      simp only at past inside
      simp only [same]
      exact holds.atMost (by omega) (by omega)
    · intro again
      simp only at again
      omega

/-- An orderly transfer maintains the bound. -/
theorem maintains_transfer (loop : PostTestPlaces) (lowered : List LoweredInstr)
    (physical : List PhysicalInstruction) (confirmed : loop.Confirmed lowered)
    (envs : Nat → Environment) (point after : RunPoint)
    (orderly : loop.Orderly lowered physical envs point) (holds : loop.Maintains point)
    (transfer : Transfer lowered physical envs point after) : loop.Maintains after := by
  have first := confirmed.zeroingFirst
  have next := confirmed.accessNext
  have last := confirmed.compareLast
  by_cases outside : after.position ≤ loop.zeroing ∨ loop.compare + 1 < after.position
  · exact loop.maintains_outside lowered confirmed after outside
  obtain ⟨jumps, continues⟩ : Jumps lowered point.position ∧
      loop.Continues point.position after.position := by
    by_contra astray
    exact orderly (.entered after transfer (by omega) (by omega) astray)
  obtain ⟨state, instr, outcome, found, executed, taken⟩ := transfer.jump_state jumps
  rcases continues with ⟨past, early⟩ | ⟨past, early, beyond, within⟩ | atBranch
  · have below := holds.below past early
    constructor <;> rw [state] <;> intros <;> omega
  · have atMost := holds.atMost past (by omega)
    constructor <;> rw [state] <;> intros <;> omega
  · obtain ⟨branch, here, named⟩ := confirmed.compares.branches
    rw [atBranch, here] at found
    cases found
    have notReached := branch_taken _ instr _ outcome executed named taken
    have atMost := holds.atMost (by omega) (by omega)
    have differs : (point.state.regs loop.cell).toNat ≠ loop.limit.toNat :=
      fun equal => notReached (holds.reached atBranch equal)
    constructor <;> rw [state] <;> intros <;> omega

end PostTestPlaces

/-- A bound attached by either recogniser of post-test loops comes from a
confirmed loop around the access, and holds there in every run whose steps are
all orderly.

Proof: the index is below the bound from the zeroing to the increment and at most
the bound from there to the branch. Where it equals the bound the comparison
leaves flags that do not go back. Each step of a run maintains this. -/
theorem post_test_bound_along_runs (lowered : List LoweredInstr)
    (physical : List PhysicalInstruction) (position : Nat) (cell : Gp) (limit : UInt64)
    (attached : postTestInduction lowered position = some (cell, limit) ∨
      cfgPostTestInduction lowered physical position = some (cell, limit)) :
    (∃ loop : PostTestPlaces, loop.Bounds lowered position cell limit) ∧
      ∀ loop : PostTestPlaces, loop.Bounds lowered position cell limit →
        ∀ envs start point, Transitions.Reaches
            (Transitions.Under (loop.Orderly lowered physical envs)
              (ProgramStep lowered physical envs)) ⟨0, 0, start⟩ point →
          point.position = position → (point.state.regs cell).toNat < limit.toNat := by
  constructor
  · rcases attached with linear | edges
    · exact postTestInduction_some lowered position cell limit linear
    · exact cfgPostTestInduction_some lowered physical position cell limit edges
  · rintro loop ⟨rfl, rfl, rfl, confirmed⟩ envs start point reached here
    have maintained : loop.Maintains point := by
      apply reached.invariant loop.Maintains
      · exact loop.maintains_outside lowered confirmed _ (Or.inl (Nat.zero_le _))
      · intro before after _ holds taken
        obtain ⟨orderly, falls | transfer⟩ := taken
        · exact loop.maintains_falls lowered physical confirmed envs before after orderly holds falls
        · exact loop.maintains_transfer lowered physical confirmed envs before after orderly holds
            transfer
    have first := confirmed.zeroingFirst
    have next := confirmed.accessNext
    exact maintained.below (by omega) (by omega)

/-- A do-while loop over one byte, behind the instruction that zeroes its index. -/
def doWhile (zeroing : LoweredInstr) : List LoweredInstr :=
  [zeroing,
   ⟨"mov", .store, .b8, none, [.reg Gp.rax.low8, .mem ⟨some Gp.rdi.full, some Gp.rcx.full, 1, 0, .b8⟩]⟩,
   ⟨"inc", .binary, .b64, none, [.reg Gp.rcx.full]⟩,
   ⟨"cmp", .compare, .b64, none, [.reg Gp.rcx.full, .imm 1]⟩,
   ⟨"jb", .branch, .b64, some false, [.imm 2]⟩,
   ⟨"ret", .ret, .b64, none, []⟩]

def doWhilePhysical (zeroing : PhysicalInstruction) : List PhysicalInstruction :=
  [zeroing,
   ⟨2, [0x8A, 0x04, 0x0F], "mov", ["al", "byte ptr [rdi + rcx]"], [], [], [], false⟩,
   ⟨5, [0x48, 0xFF, 0xC1], "inc", ["rcx"], [], [], [], false⟩,
   ⟨8, [0x48, 0x83, 0xF9, 0x01], "cmp", ["rcx", "1"], [], [], [], false⟩,
   ⟨0xC, [0x72, 0xF4], "jb", ["2"], [], [], [], false⟩,
   ⟨0xE, [0xC3], "ret", [], [], [], [], false⟩]

/-- Only the low byte of the index is cleared. -/
def clearByte : LoweredInstr := ⟨"xor", .binary, .b8, none, [.reg Gp.rcx.low8, .reg Gp.rcx.low8]⟩

def clearBytePhysical : PhysicalInstruction :=
  ⟨0, [0x30, 0xC9], "xor", ["cl", "cl"], [], [], [], false⟩

/-- The whole index is cleared. -/
def clearWhole : LoweredInstr :=
  ⟨"xor", .binary, .b32, none, [.reg Gp.rcx.low32, .reg Gp.rcx.low32]⟩

def clearWholePhysical : PhysicalInstruction :=
  ⟨0, [0x31, 0xC9], "xor", ["ecx", "ecx"], [], [], [], false⟩

example : (doWhilePhysical clearBytePhysical).map lower = (doWhile clearByte).map .lowered ∧
    (doWhilePhysical clearWholePhysical).map lower = (doWhile clearWhole).map .lowered := by decide

/-- Every register holds 256. -/
def wideRegisters : State := { State.clear with regs := fun _ => 0x100 }

/-- Both recognisers give the access the bound one, and it executes with the
index 256. -/
theorem cleared_byte_is_taken_for_zero_index :
    postTestInduction (doWhile clearByte) 1 = some (.rcx, 1) ∧
      cfgPostTestInduction (doWhile clearByte) (doWhilePhysical clearBytePhysical) 1 =
        some (.rcx, 1) ∧
      ∃ point, Transitions.Reaches
          (ProgramStep (doWhile clearByte) (doWhilePhysical clearBytePhysical)
            (fun _ => Environment.clear)) ⟨0, 0, wideRegisters⟩ point ∧
        point.position = 1 ∧ (point.state.regs .rcx).toNat = 256 ∧
        ∃ instr outcome, (doWhile clearByte)[1]? = some instr ∧
          exec Environment.clear instr point.state = some outcome := by
  refine ⟨by decide, by decide, _, RunPoint.reaches_of_fallMany _ _ _ 1 _ _ rfl, rfl, by decide,
    _, _, rfl, rfl⟩

def doWhilePlaces : PostTestPlaces := ⟨.rcx, 1, 0, 1, 2, 3⟩

theorem doWhile_bounds : doWhilePlaces.Bounds (doWhile clearWhole) 1 .rcx 1 where
  sameCell := rfl
  sameLimit := rfl
  sameAccess := rfl
  confirmed :=
    { zeroingFirst := by decide
      accessNext := by decide
      compareLast := by decide
      zeroes := ⟨_, rfl, by decide⟩
      silentBefore := by
        intro position instr past before _
        simp only [doWhilePlaces] at past before
        omega
      increments := ⟨_, rfl, Or.inl (by decide)⟩
      silentAfter := by
        intro position instr past before other _
        simp only [doWhilePlaces] at past before other
        omega
      compares := ⟨⟨_, 1, rfl, by decide, by decide, by decide⟩, ⟨_, rfl, by decide⟩⟩ }

/-- The first access of the loop reads at index zero. -/
theorem doWhile_bound : ∃ point : RunPoint,
    point.position = 1 ∧ (point.state.regs .rcx).toNat < 1 := by
  have orderly : doWhilePlaces.Orderly (doWhile clearWhole) (doWhilePhysical clearWholePhysical)
      (fun _ => Environment.clear) ⟨0, 0, wideRegisters⟩ := by
    rintro (⟨instr, _, found, narrow⟩ | ⟨instr, here, _⟩ | ⟨past, _⟩ | ⟨after, transfer, _⟩)
    · cases found
      exact narrow ⟨_, _, rfl, by decide⟩
    · exact absurd here (by decide)
    · exact absurd past (by decide)
    · obtain ⟨instr, op, found, known, transfers⟩ := transfer.source
      cases found
      cases known
      cases transfers
  refine ⟨_, rfl, (post_test_bound_along_runs (doWhile clearWhole)
    (doWhilePhysical clearWholePhysical) 1 .rcx 1 (Or.inl (by decide))).2 doWhilePlaces
    doWhile_bounds (fun _ => Environment.clear) wideRegisters _
    (.next .start ⟨orderly, Or.inl (RunPoint.falls_of_fall _ _ _ _ rfl)⟩) rfl⟩

end Semasm.Cli
