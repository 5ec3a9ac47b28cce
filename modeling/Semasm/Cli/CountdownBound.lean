import Semasm.Cli.CountdownLoop

/-!
# The bound of a recognised countdown loop

Behind the decrement the index is below the count, provided it was positive
before. So the bound rests on the way back: a branch on not zero right behind the
decrement goes back with a positive index, while a branch on not negative, or one
on flags set since, may go back with index zero.
-/

namespace Semasm.Cli

open Decode Library X86

namespace CountdownPlaces

/-- Between the decrement and the branch no instruction sets the flags. -/
def FlagsKept (loop : CountdownPlaces) (lowered : List LoweredInstr) : Prop :=
  ∀ position instr op, loop.decrement < position → position < loop.branch →
    lowered[position]? = some instr → instr.op = some op → op.setsFlags = false

/-- The branch tests whether the decrement left zero. -/
def TestsZero (loop : CountdownPlaces) (lowered : List LoweredInstr) : Prop :=
  (∃ instr, lowered[loop.branch]? = some instr ∧ lowerMnemonic instr ∈ ["jnz", "jne"]) ∧
    loop.FlagsKept lowered

/-- A jump between two places of the loop on which the bound survives: before the
decrement it stays there, and from behind it goes back with an index that is not
zero. -/
def Continues (loop : CountdownPlaces) (lowered : List LoweredInstr) (point : RunPoint)
    (target : Nat) : Prop :=
  (loop.initial < point.position ∧ point.position ≤ loop.decrement ∧ target ≤ loop.decrement) ∨
    (loop.decrement < point.position ∧ point.position ≤ loop.branch ∧
      (loop.decrement < target ∨ point.state.regs loop.cell ≠ 0 ∨
        (point.position = loop.branch ∧ loop.TestsZero lowered)))

/-- The steps that the recogniser overlooks. -/
inductive Disorder (loop : CountdownPlaces) (lowered : List LoweredInstr)
    (physical : List PhysicalInstruction) (envs : Nat → Environment) (point : RunPoint) : Prop
  /-- The count is assigned or decremented in a part of the index only. -/
  | partialCount (instr : LoweredInstr)
      (here : point.position = loop.initial ∨ point.position = loop.decrement)
      (found : lowered[point.position]? = some instr) (narrow : ¬ FirstView Wide instr)
  /-- Another instruction of the loop may change the index. -/
  | overwritten (after : loop.initial < point.position) (before : point.position < loop.branch)
      (other : point.position ≠ loop.decrement) (changes : MayChange lowered loop.cell point.position)
  /-- Control enters the loop past its assignment or its decrement, or goes back
  with index zero. -/
  | entered (after : RunPoint) (transfer : Transfer lowered physical envs point after)
      (past : loop.initial < after.position) (inside : after.position ≤ loop.branch)
      (astray : ¬ (Jumps lowered point.position ∧ loop.Continues lowered point after.position))

/-- The step from a moment is none of the overlooked ones. -/
def Orderly (loop : CountdownPlaces) (lowered : List LoweredInstr)
    (physical : List PhysicalInstruction) (envs : Nat → Environment) (point : RunPoint) : Prop :=
  ¬ loop.Disorder lowered physical envs point

/-- What the loop maintains of the index at each of its places. -/
structure Maintains (loop : CountdownPlaces) (lowered : List LoweredInstr) (point : RunPoint) :
    Prop where
  counting : loop.initial < point.position → point.position ≤ loop.decrement →
    0 < (point.state.regs loop.cell).toNat ∧
      (point.state.regs loop.cell).toNat ≤ loop.limit.toNat
  below : loop.decrement < point.position → point.position ≤ loop.branch →
    (point.state.regs loop.cell).toNat < loop.limit.toNat
  tested : loop.decrement < point.position → point.position ≤ loop.branch →
    loop.FlagsKept lowered → (point.state.flags.zero = true ↔ point.state.regs loop.cell = 0)

/-- Outside the loop nothing is maintained. -/
theorem maintains_outside (loop : CountdownPlaces) (lowered : List LoweredInstr)
    (confirmed : loop.Confirmed lowered) (point : RunPoint)
    (outside : point.position ≤ loop.initial ∨ loop.branch < point.position) :
    loop.Maintains lowered point := by
  have first := confirmed.initialFirst
  have next := confirmed.decrementNext
  have last := confirmed.branchLast
  constructor <;> intros <;> omega

/-- Falling through an orderly step maintains the bound. -/
theorem maintains_falls (loop : CountdownPlaces) (lowered : List LoweredInstr)
    (physical : List PhysicalInstruction) (confirmed : loop.Confirmed lowered)
    (envs : Nat → Environment) (point after : RunPoint)
    (orderly : loop.Orderly lowered physical envs point) (holds : loop.Maintains lowered point)
    (falls : Falls lowered envs point after) : loop.Maintains lowered after := by
  have first := confirmed.initialFirst
  have next := confirmed.decrementNext
  have last := confirmed.branchLast
  have moved : after.position = point.position + 1 := by
    cases falls
    rfl
  by_cases outside : after.position ≤ loop.initial ∨ loop.branch < after.position
  · exact loop.maintains_outside lowered confirmed after outside
  have kept : loop.initial < point.position → point.position ≠ loop.decrement →
      after.state.regs loop.cell = point.state.regs loop.cell := by
    intro past other
    apply falls.regs_kept
    intro changes
    exact orderly (.overwritten past (by omega) other changes)
  obtain ⟨instr, outcome, found, executed, through⟩ := falls
  simp only at kept moved outside ⊢
  by_cases atInitial : point.position = loop.initial
  · -- the assignment of the count
    obtain ⟨assign, count, here, named, assigned, positive, limit⟩ := confirmed.assigns
    have there := found
    rw [atInitial, here] at there
    cases there
    have wide : FirstView Wide instr := by
      by_contra narrow
      exact orderly (.partialCount instr (Or.inl atInitial) found narrow)
    have above : 0 < count.toInt := by simpa [Int64.lt_iff_toInt_lt] using positive
    have value := assignment_value _ instr _ outcome loop.cell count executed named assigned above wide
    have number := (toUInt64_of_nonneg count above.le).1
    constructor
    · intro _ _
      simp only [value, limit]
      omega
    · intro past
      simp only at past
      omega
    · intro past
      simp only at past
      omega
  by_cases atDecrement : point.position = loop.decrement
  · -- the decrement
    obtain ⟨dec, here, named, target⟩ := confirmed.decrements
    have there := found
    rw [atDecrement, here] at there
    cases there
    have wide : FirstView Wide instr := by
      by_contra narrow
      exact orderly (.partialCount instr (Or.inr atDecrement) found narrow)
    obtain ⟨positive, atMost⟩ := holds.counting (by omega) (by omega)
    obtain ⟨below, zero⟩ :=
      decrement_below _ instr _ outcome loop.cell executed named target wide positive
    constructor
    · intro _ again
      simp only at again
      omega
    · intro _ _
      simp only
      omega
    · intro _ _ _
      exact zero
  · -- an instruction that leaves the index alone
    have same := kept (by omega) atDecrement
    constructor
    · intro past inside
      simp only at past inside
      simp only [same]
      exact holds.counting (by omega) (by omega)
    · intro past inside
      simp only at past inside
      simp only [same]
      exact holds.below (by omega) (by omega)
    · intro past inside silent
      simp only at past inside
      obtain ⟨op, known, ran⟩ := op_of_exec _ _ _ _ executed
      have quiet := silent point.position instr op (by omega) (by omega) found known
      have flags := op.exec_flags _ _ _ outcome ran quiet
      simp only [same, flags]
      exact holds.tested (by omega) (by omega) silent

/-- A branch on not zero is taken only when the zero flag is clear. -/
theorem zero_of_taken (env : Environment) (instr : LoweredInstr) (state : State) (outcome : Outcome)
    (executed : exec env instr state = some outcome)
    (named : lowerMnemonic instr ∈ ["jnz", "jne"]) (taken : outcome.next ≠ .goOn) :
    state.flags.zero = false := by
  obtain ⟨op, known, ran⟩ := op_of_exec env instr state outcome executed
  have branch : op = .branch .ne := by
    have all := Op.ofMnemonic_forall (fun mnemonic op => mnemonic ∈ ["jnz", "jne"] →
      op = .branch .ne) (by decide) _ _ known
    exact all named
  subst branch
  obtain ⟨_, rfl⟩ := exec_branch state .ne _ outcome ran
  cases zero : state.flags.zero with
  | false => rfl
  | true => simp [Condition.holds, zero] at taken

/-- An orderly transfer maintains the bound. -/
theorem maintains_transfer (loop : CountdownPlaces) (lowered : List LoweredInstr)
    (physical : List PhysicalInstruction) (confirmed : loop.Confirmed lowered)
    (envs : Nat → Environment) (point after : RunPoint)
    (orderly : loop.Orderly lowered physical envs point) (holds : loop.Maintains lowered point)
    (transfer : Transfer lowered physical envs point after) : loop.Maintains lowered after := by
  have first := confirmed.initialFirst
  have next := confirmed.decrementNext
  have last := confirmed.branchLast
  by_cases outside : after.position ≤ loop.initial ∨ loop.branch < after.position
  · exact loop.maintains_outside lowered confirmed after outside
  obtain ⟨jumps, continues⟩ : Jumps lowered point.position ∧
      loop.Continues lowered point after.position := by
    by_contra astray
    exact orderly (.entered after transfer (by omega) (by omega) astray)
  obtain ⟨state, instr, outcome, found, executed, taken⟩ := transfer.jump_state jumps
  rcases continues with ⟨past, early, near⟩ | ⟨past, early, back⟩
  · have counting := holds.counting past early
    constructor <;> rw [state] <;> intros <;> omega
  · have below := holds.below past early
    have positive : after.position ≤ loop.decrement →
        0 < (point.state.regs loop.cell).toNat := by
      intro returns
      have notZero : point.state.regs loop.cell ≠ 0 := by
        rcases back with ahead | notZero | ⟨atBranch, ⟨branch, here, named⟩, silent⟩
        · omega
        · exact notZero
        · rw [atBranch, here] at found
          cases found
          intro zero
          have clear := zero_of_taken _ instr _ outcome executed named taken
          rw [(holds.tested past early silent).mpr zero] at clear
          cases clear
      rw [← BitVec.toNat_ne_iff_ne] at notZero
      exact Nat.pos_of_ne_zero (by simpa using notZero)
    constructor
    · rw [state]
      intro _ returns
      exact ⟨positive returns, below.le⟩
    · rw [state]
      intros
      exact below
    · rw [state]
      intro _ _ silent
      exact holds.tested past early silent

end CountdownPlaces

/-- A bound attached by the recogniser of countdowns comes from a confirmed loop
around the access, and holds there in every run whose steps are all orderly.

Proof: up to the decrement the index is positive and at most the count, behind it
it is below the count. Only the way back needs a test, and as long as no flags are
set since the decrement the branch on not zero is one. -/
theorem countdown_bound_along_runs (lowered : List LoweredInstr)
    (physical : List PhysicalInstruction) (position : Nat) (cell : Gp) (limit : UInt64)
    (attached : countdownInduction lowered position = some (cell, limit)) :
    (∃ loop : CountdownPlaces, loop.Bounds lowered position cell limit) ∧
      ∀ loop : CountdownPlaces, loop.Bounds lowered position cell limit →
        ∀ envs start point, Transitions.Reaches
            (Transitions.Under (loop.Orderly lowered physical envs)
              (ProgramStep lowered physical envs)) ⟨0, 0, start⟩ point →
          point.position = position → (point.state.regs cell).toNat < limit.toNat := by
  constructor
  · exact countdownInduction_some lowered position cell limit attached
  · rintro loop ⟨rfl, rfl, rfl, confirmed⟩ envs start point reached here
    have maintained : loop.Maintains lowered point := by
      apply reached.invariant (loop.Maintains lowered)
      · exact loop.maintains_outside lowered confirmed _ (Or.inl (Nat.zero_le _))
      · intro before after _ holds taken
        obtain ⟨orderly, falls | transfer⟩ := taken
        · exact loop.maintains_falls lowered physical confirmed envs before after orderly holds falls
        · exact loop.maintains_transfer lowered physical confirmed envs before after orderly holds
            transfer
    have next := confirmed.decrementNext
    have last := confirmed.branchLast
    exact maintained.below (by omega) (by omega)

/-- A countdown over one byte whose branch tests the byte that was read. -/
def testsByte : List LoweredInstr :=
  [⟨"mov", .store, .b32, none, [.reg Gp.rcx.low32, .imm 1]⟩,
   ⟨"dec", .binary, .b64, none, [.reg Gp.rcx.full]⟩,
   ⟨"mov", .store, .b8, none, [.reg Gp.rax.low8, .mem ⟨some Gp.rdi.full, some Gp.rcx.full, 1, 0, .b8⟩]⟩,
   ⟨"cmp", .compare, .b8, none, [.reg Gp.rax.low8, .imm 1]⟩,
   ⟨"jne", .branch, .b64, none, [.imm 5]⟩,
   ⟨"ret", .ret, .b64, none, []⟩]

def testsBytePhysical : List PhysicalInstruction :=
  [⟨0, [0xB9, 0x01, 0x00, 0x00, 0x00], "mov", ["ecx", "1"], [], [], [], false⟩,
   ⟨5, [0x48, 0xFF, 0xC9], "dec", ["rcx"], [], [], [], false⟩,
   ⟨8, [0x8A, 0x04, 0x0F], "mov", ["al", "byte ptr [rdi + rcx]"], [], [], [], false⟩,
   ⟨0xB, [0x3C, 0x01], "cmp", ["al", "1"], [], [], [], false⟩,
   ⟨0xD, [0x75, 0xF6], "jne", ["5"], [], [], [], false⟩,
   ⟨0xF, [0xC3], "ret", [], [], [], [], false⟩]

example : testsBytePhysical.map lower = testsByte.map .lowered := by decide

/-- The access is given the bound one, and its second execution has the index
minus one. -/
theorem countdown_runs_below_zero :
    countdownInduction testsByte 2 = some (.rcx, 1) ∧
      ∃ point, Transitions.Reaches
          (ProgramStep testsByte testsBytePhysical (fun _ => Environment.clear))
          ⟨0, 0, State.clear⟩ point ∧
        point.position = 2 ∧ (point.state.regs .rcx).toNat = 2 ^ 64 - 1 ∧
        ∃ instr outcome, testsByte[2]? = some instr ∧
          exec Environment.clear instr point.state = some outcome := by
  have tested := RunPoint.reaches_of_fallMany testsByte testsBytePhysical
    (fun _ => Environment.clear) 4 ⟨0, 0, State.clear⟩ _ rfl
  have back := tested.next (Or.inr (.jump _ _ _ _ _ 1 rfl rfl (Or.inr ⟨.ne, rfl⟩) rfl (by decide) rfl
    rfl ⟨_, rfl, by decide⟩))
  have again := back.next (Or.inl (RunPoint.falls_of_fall _ _ _ _ rfl))
  exact ⟨by decide, _, again, rfl, by decide, _, _, rfl, rfl⟩

/-- The countdown whose branch tests the decrement. -/
def testsCount : List LoweredInstr :=
  [⟨"mov", .store, .b32, none, [.reg Gp.rcx.low32, .imm 1]⟩,
   ⟨"dec", .binary, .b64, none, [.reg Gp.rcx.full]⟩,
   ⟨"mov", .store, .b8, none, [.reg Gp.rax.low8, .mem ⟨some Gp.rdi.full, some Gp.rcx.full, 1, 0, .b8⟩]⟩,
   ⟨"jne", .branch, .b64, none, [.imm 5]⟩,
   ⟨"ret", .ret, .b64, none, []⟩]

def testsCountPlaces : CountdownPlaces := ⟨.rcx, 1, 0, 1, 2, 3⟩

theorem testsCount_bounds : testsCountPlaces.Bounds testsCount 2 .rcx 1 where
  sameCell := rfl
  sameLimit := rfl
  sameAccess := rfl
  confirmed :=
    { initialFirst := by decide
      decrementNext := by decide
      branchLast := by decide
      assigns := ⟨_, 1, rfl, by decide, by decide, by decide, by decide⟩
      decrements := ⟨_, rfl, by decide, by decide⟩
      branches := ⟨_, rfl, by decide⟩
      silent := by
        intro position instr past before notDecrement notAccess _
        simp only [testsCountPlaces] at past before notDecrement notAccess
        omega }

/-- The first access of the countdown reads at index zero. -/
theorem testsCount_bound : ∃ point : RunPoint,
    point.position = 2 ∧ (point.state.regs .rcx).toNat < 1 := by
  have orderly : ∀ point : RunPoint, point.position < 2 →
      testsCountPlaces.Orderly testsCount [] (fun _ => Environment.clear) point := by
    intro point early
    obtain ⟨clock, position, state⟩ := point
    simp only at early
    rintro (⟨instr, here, found, narrow⟩ | ⟨past, _, other, _⟩ | ⟨after, transfer, _⟩)
    · simp only [testsCountPlaces] at here
      rcases here with rfl | rfl
      · cases found
        exact narrow ⟨_, _, rfl, by decide⟩
      · cases found
        exact narrow ⟨_, _, rfl, by decide⟩
    · simp only [testsCountPlaces] at past other
      omega
    · obtain ⟨instr, op, found, known, transfers⟩ := transfer.source
      obtain rfl | rfl : position = 0 ∨ position = 1 := by omega
      · cases found
        cases known
        cases transfers
      · cases found
        cases known
        cases transfers
  have step : ∀ before after : RunPoint, before.position < 2 →
      before.fall testsCount (fun _ => Environment.clear) = some after →
      Transitions.Under (testsCountPlaces.Orderly testsCount [] (fun _ => Environment.clear))
        (ProgramStep testsCount [] (fun _ => Environment.clear)) before after :=
    fun before after early fell => ⟨orderly before early,
      Or.inl (RunPoint.falls_of_fall _ _ before after fell)⟩
  refine ⟨_, rfl, (countdown_bound_along_runs testsCount [] 2 .rcx 1 (by decide)).2
    testsCountPlaces testsCount_bounds (fun _ => Environment.clear) State.clear _
    (.next (.next .start (step _ _ (by decide) rfl)) (step _ _ (by decide) rfl)) rfl⟩

end Semasm.Cli
