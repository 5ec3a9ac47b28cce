import Semasm.Cli.LoopSteps

/-!
# Recognised post-test loops

What the two recognisers of do-while loops have checked when they attach a bound:
a zeroing of the index with nothing said about it up to the access, one increment
by one behind the access, a comparison with the bound behind the increment, and a
branch on below right behind the comparison.
-/

namespace Semasm.Cli

open Decode X86

/-- Mnemonics that end the search for the comparison on the index. -/
def countingStops : List String := "inc" :: "add" :: postTestStops

/-- The instruction is not seen to change the index. -/
def Passes (cell : Gp) (instr : LoweredInstr) : Prop :=
  lowerMnemonic instr ∈ countingStops → firstCell instr ≠ some cell

/-- A comparison with the bound and a branch on below behind it. -/
structure ComparesAt (instrs : List LoweredInstr) (cell : Gp) (limit : UInt64) (place : Nat) : Prop where
  compares : ∃ cmp bound, instrs[place]? = some cmp ∧ lowerMnemonic cmp = "cmp" ∧
    comparedBound cmp = some (cell, bound) ∧ limit = bound.toUInt64
  branches : ∃ branch, instrs[place + 1]? = some branch ∧
    lowerMnemonic branch ∈ loopBranchMnemonics

/-- The comparison of a longer list. -/
theorem ComparesAt.cons {instrs : List LoweredInstr} {cell : Gp} {limit : UInt64} {place : Nat}
    (found : ComparesAt instrs cell limit place) (instr : LoweredInstr) :
    ComparesAt (instr :: instrs) cell limit (place + 1) :=
  ⟨found.compares, found.branches⟩

/-- Silence about the index in a longer list. -/
theorem passes_cons (cell : Gp) (instr : LoweredInstr) (rest : List LoweredInstr) (stop : Nat)
    (own : Passes cell instr)
    (later : ∀ (place : Nat) other, place < stop → rest[place]? = some other → Passes cell other) :
    ∀ (place : Nat) other, place < stop + 1 → (instr :: rest)[place]? = some other →
      Passes cell other := by
  intro place other below there
  cases place with
  | zero =>
    cases there
    exact own
  | succ place => exact later place other (by omega) there

/-- Behind the increment the search passes over instructions that leave the index
alone, up to the comparison. -/
theorem postTestBound_compare (cell : Gp) (rest : List LoweredInstr) (limit : UInt64)
    (found : postTestBound cell true rest = some limit) :
    ∃ place, ComparesAt rest cell limit place ∧
      ∀ (other : Nat) instr, other < place → rest[other]? = some instr → Passes cell instr := by
  induction rest with
  | nil => cases found
  | cons instr rest inductionHypothesis =>
    have further : Passes cell instr → postTestBound cell true rest = some limit →
        ∃ place, ComparesAt (instr :: rest) cell limit place ∧
          ∀ (other : Nat) another, other < place → (instr :: rest)[other]? = some another →
            Passes cell another := by
      intro passes later
      obtain ⟨place, compares, silent⟩ := inductionHypothesis later
      exact ⟨place + 1, compares.cons instr, passes_cons cell instr rest place passes silent⟩
    rw [postTestBound] at found
    simp only [reduceIte, and_true] at found
    split_ifs at found with isInc first isAdd adds first isCmp stops
    · exact further (fun _ => first) found
    · exact further (fun _ => first) found
    · split at found
      next compared bound parsed =>
        split_ifs at found with same
        split at found
        next next following =>
          split_ifs at found with branch
          cases found
          subst same
          refine ⟨0, ⟨⟨instr, bound, rfl, isCmp, parsed, rfl⟩, ⟨next, ?_, by simpa using branch⟩⟩, ?_⟩
          · rw [List.getElem?_cons_succ, ← List.head?_eq_getElem?]
            exact following
          · intro other another below
            omega
        next => cases found
      next => cases found
    · refine further ?_ found
      intro member first
      apply stops
      simp only [countingStops, List.mem_cons, isInc, isAdd, false_or] at member
      exact ⟨by simpa using member, first⟩

/-- The search finds one increment and behind it the comparison. -/
theorem postTestBound_increment (cell : Gp) (rest : List LoweredInstr) (limit : UInt64)
    (found : postTestBound cell false rest = some limit) :
    ∃ increment place instr, increment < place ∧ rest[increment]? = some instr ∧
      Increments instr cell ∧ ComparesAt rest cell limit place ∧
      ∀ (other : Nat) another, other < place → other ≠ increment → rest[other]? = some another →
        Passes cell another := by
  induction rest with
  | nil => cases found
  | cons instr rest inductionHypothesis =>
    have further : Passes cell instr → postTestBound cell false rest = some limit →
        ∃ increment place inc, increment < place ∧ (instr :: rest)[increment]? = some inc ∧
          Increments inc cell ∧ ComparesAt (instr :: rest) cell limit place ∧
          ∀ (other : Nat) another, other < place → other ≠ increment →
            (instr :: rest)[other]? = some another → Passes cell another := by
      intro passes later
      obtain ⟨increment, place, inc, before, there, adds, compares, silent⟩ :=
        inductionHypothesis later
      refine ⟨increment + 1, place + 1, inc, by omega, there, adds, compares.cons instr, ?_⟩
      intro other another below different there
      cases other with
      | zero =>
        cases there
        exact passes
      | succ other => exact silent other another (by omega) (by omega) there
    have here : Increments instr cell → postTestBound cell true rest = some limit →
        ∃ increment place inc, increment < place ∧ (instr :: rest)[increment]? = some inc ∧
          Increments inc cell ∧ ComparesAt (instr :: rest) cell limit place ∧
          ∀ (other : Nat) another, other < place → other ≠ increment →
            (instr :: rest)[other]? = some another → Passes cell another := by
      intro adds later
      obtain ⟨place, compares, silent⟩ := postTestBound_compare cell rest limit later
      refine ⟨0, place + 1, instr, by omega, rfl, adds, compares.cons instr, ?_⟩
      intro other another below different there
      cases other with
      | zero => exact absurd rfl different
      | succ other => exact silent other another (by omega) there
    rw [postTestBound] at found
    simp only [reduceIte, Bool.false_eq_true, and_false] at found
    split_ifs at found with isInc first isAdd adds first stops
    · exact here (Or.inl ⟨isInc, first⟩) found
    · exact further (fun _ => first) found
    · exact here (Or.inr ⟨isAdd, adds⟩) found
    · exact further (fun _ => first) found
    · refine further ?_ found
      intro member first
      apply stops
      simp only [countingStops, List.mem_cons, isInc, isAdd, false_or] at member
      exact ⟨by simpa using member, first⟩

/-- The stretch behind an access ends at the first instruction seen to write the
index, or early. -/
theorem stretchEnd_silent (lowered : List LoweredInstr) (accessAt : Nat) (cell : Gp) (fuel start : Nat) :
    start ≤ stretchEnd lowered accessAt cell fuel start ∧
      ∀ (place : Nat) instr, start ≤ place → place < stretchEnd lowered accessAt cell fuel start →
        lowered[place]? = some instr → writesGp instr cell = false := by
  induction fuel generalizing start with
  | zero =>
    refine ⟨le_refl _, ?_⟩
    intro place instr above below
    rw [stretchEnd] at below
    omega
  | succ fuel inductionHypothesis =>
    rw [stretchEnd]
    split
    next =>
      refine ⟨le_refl _, ?_⟩
      intro place instr above below
      omega
    next instr here =>
      split_ifs with writes far
      · refine ⟨le_refl _, ?_⟩
        intro place other above below
        omega
      · refine ⟨le_refl _, ?_⟩
        intro place other above below
        omega
      · obtain ⟨past, silent⟩ := inductionHypothesis (start + 1)
        refine ⟨by omega, ?_⟩
        intro place other above below there
        by_cases first : place = start
        · rw [first, here] at there
          cases there
          simpa using writes
        · exact silent place other (by omega) below there

/-- An instruction that is not seen to write passes. -/
theorem passes_of_writesGp (cell : Gp) (instr : LoweredInstr) (silent : writesGp instr cell = false) :
    Passes cell instr := by
  have known : ∀ name ∈ countingStops, writingMnemonics.contains name = true := by decide
  intro member first
  simp only [writesGp, known _ member, first, beq_self_eq_true, Bool.and_self] at silent
  cases silent

/-- The places of a post-test loop in the text. -/
structure PostTestPlaces where
  cell : Gp
  limit : UInt64
  zeroing : Nat
  access : Nat
  increment : Nat
  compare : Nat

/-- What the text says at the places of a recognised loop. Nothing up to the
access speaks about the index, and nothing from there to the comparison but the
increment is seen to change it. -/
structure PostTestPlaces.Confirmed (loop : PostTestPlaces) (lowered : List LoweredInstr) : Prop where
  zeroingFirst : loop.zeroing < loop.access
  accessNext : loop.access < loop.increment
  compareLast : loop.increment < loop.compare
  zeroes : ∃ instr, lowered[loop.zeroing]? = some instr ∧ zeroVerdict loop.cell instr = some true
  silentBefore : ∀ position instr, loop.zeroing < position → position < loop.access →
    lowered[position]? = some instr → zeroVerdict loop.cell instr = none
  increments : ∃ instr, lowered[loop.increment]? = some instr ∧ Increments instr loop.cell
  silentAfter : ∀ position instr, loop.access < position → position < loop.compare →
    position ≠ loop.increment → lowered[position]? = some instr → Passes loop.cell instr
  compares : ComparesAt lowered loop.cell loop.limit loop.compare

/-- The loop is confirmed and bounds the index of the access at a position. -/
structure PostTestPlaces.Bounds (loop : PostTestPlaces) (lowered : List LoweredInstr) (position : Nat)
    (cell : Gp) (limit : UInt64) : Prop where
  sameCell : loop.cell = cell
  sameLimit : loop.limit = limit
  sameAccess : loop.access = position
  confirmed : loop.Confirmed lowered

/-- A bound found by the text alone comes from a confirmed loop. -/
theorem postTestInduction_some (lowered : List LoweredInstr) (position : Nat) (cell : Gp)
    (limit : UInt64) (attached : postTestInduction lowered position = some (cell, limit)) :
    ∃ loop : PostTestPlaces, loop.Bounds lowered position cell limit := by
  unfold postTestInduction at attached
  split at attached
  next access here =>
    obtain ⟨operand, _, known⟩ := lastFound_some _ _ _ attached
    unfold postTestOperand at known
    split at known
    next mem =>
      split at known
      next gp indexed =>
        split_ifs at known with zeroed
        obtain ⟨bound, found, same⟩ := Option.map_eq_some_iff.mp known
        cases same
        have inside : position < lowered.length := (List.getElem?_eq_some_iff.mp here).1
        obtain ⟨zeroing, zero, first, atZero, zeroes, silent⟩ :=
          zeroing_position lowered position cell (by omega) zeroed
        obtain ⟨increment, place, inc, before, there, adds, compares, passes⟩ :=
          postTestBound_increment cell _ limit found
        rw [List.getElem?_drop] at there
        refine ⟨⟨cell, limit, zeroing, position, position + 1 + increment, position + 1 + place⟩,
          rfl, rfl, rfl,
          { zeroingFirst := first
            accessNext := by simp only; omega
            compareLast := by simp only; omega
            zeroes := ⟨zero, atZero, zeroes⟩
            silentBefore := silent
            increments := ⟨inc, there, adds⟩
            silentAfter := ?_
            compares := ⟨?_, ?_⟩ }⟩
        · intro other another past below different there
          simp only at past below different
          obtain ⟨offset, rfl⟩ : ∃ offset, other = position + 1 + offset :=
            ⟨other - (position + 1), by omega⟩
          refine passes offset another (by omega) (by omega) ?_
          rw [List.getElem?_drop]
          exact there
        · obtain ⟨cmp, bound, atCmp, rest⟩ := compares.compares
          rw [List.getElem?_drop] at atCmp
          exact ⟨cmp, bound, atCmp, rest⟩
        · obtain ⟨branch, atBranch, rest⟩ := compares.branches
          rw [List.getElem?_drop] at atBranch
          exact ⟨branch, atBranch, rest⟩
      next => cases known
    next => cases known
  next => cases attached

/-- A bound found with the branch target comes from a confirmed loop. -/
theorem cfgPostTestInduction_some (lowered : List LoweredInstr) (physical : List PhysicalInstruction)
    (position : Nat) (cell : Gp) (limit : UInt64)
    (attached : cfgPostTestInduction lowered physical position = some (cell, limit)) :
    ∃ loop : PostTestPlaces, loop.Bounds lowered position cell limit := by
  unfold cfgPostTestInduction at attached
  split_ifs at attached with unequal
  obtain ⟨access, here, attached⟩ := Option.bind_eq_some_iff.mp attached
  obtain ⟨gp, indexed, attached⟩ := Option.bind_eq_some_iff.mp attached
  split_ifs at attached with zeroed
  obtain ⟨inc, atInc, attached⟩ := Option.bind_eq_some_iff.mp attached
  simp only at attached
  split_ifs at attached with increments
  obtain ⟨branch, atBranch, attached⟩ := Option.bind_eq_some_iff.mp attached
  obtain ⟨cmp, atCmp, attached⟩ := Option.bind_eq_some_iff.mp attached
  split_ifs at attached with isCmp
  obtain ⟨⟨compared, bound⟩, parsed, attached⟩ := Option.bind_eq_some_iff.mp attached
  simp only at attached
  split_ifs at attached with agrees
  obtain ⟨branchPhysical, atPhysical, attached⟩ := Option.bind_eq_some_iff.mp attached
  split_ifs at attached
  cases attached
  obtain ⟨past, silent⟩ := stretchEnd_silent lowered position cell lowered.length (position + 1)
  generalize stretchEnd lowered position cell lowered.length (position + 1) = increment at *
  have inside : position < lowered.length := (List.getElem?_eq_some_iff.mp here).1
  obtain ⟨zeroing, zero, first, atZero, zeroes, quiet⟩ :=
    zeroing_position lowered position cell (by omega) (by simpa using zeroed)
  rw [not_or, not_not] at agrees
  obtain ⟨rfl, branches⟩ := agrees
  refine ⟨⟨compared, bound.toUInt64, zeroing, position, increment, increment + 1⟩, rfl, rfl, rfl,
    { zeroingFirst := first
      accessNext := past
      compareLast := Nat.lt_succ_self _
      zeroes := ⟨zero, atZero, zeroes⟩
      silentBefore := quiet
      increments := ⟨inc, atInc, ?_⟩
      silentAfter := ?_
      compares := ⟨⟨cmp, bound, atCmp, not_not.mp isCmp, parsed, rfl⟩,
        ⟨branch, atBranch, by simpa using branches⟩⟩ }⟩
  · simp only [Bool.and_eq_true, Bool.not_eq_true', not_and_or, Bool.not_eq_false, beq_iff_eq] at increments
    rcases increments with ⟨named, target⟩ | ⟨named, adds⟩
    · exact Or.inl ⟨named, target⟩
    · exact Or.inr ⟨named, adds⟩
  · intro other another after before different there
    simp only at after before different
    exact passes_of_writesGp _ another (silent other another (by omega) (by omega) there)

end Semasm.Cli
