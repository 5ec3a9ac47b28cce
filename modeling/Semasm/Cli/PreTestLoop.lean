import Semasm.Cli.Inductions

/-!
# Confirmed pre-test loops

What the recogniser has checked when it attaches a bound: the comparison at the
header, the guard behind it with the exit as its target, the jump back to the
header right before the exit, and a body with one increment of the index.
-/

namespace Semasm.Cli

open Decode X86

/-- The pieces of a confirmed pre-test loop. -/
structure PreTestShape (lowered : List LoweredInstr) (physical : List PhysicalInstruction)
    (header : Nat) (cell : Gp) (limit : UInt64) (accesses : List Nat) where
  cmp : LoweredInstr
  guard : LoweredInstr
  back : LoweredInstr
  guardPhysical : PhysicalInstruction
  backPhysical : PhysicalInstruction
  bound : Int64
  exit : Nat
  scan : BodyScan
  atHeader : lowered[header]? = some cmp
  isCmp : lowerMnemonic cmp = "cmp"
  compared : comparedBound cmp = some (cell, bound)
  zeroed : indexWasZeroInitialized lowered header cell = true
  atGuard : lowered[header + 1]? = some guard
  isGuard : lowerMnemonic guard ∈ ["jae", "jnb", "jge"]
  atGuardPhysical : physical[header + 1]? = some guardPhysical
  guardTarget : branchTargetIndex guardPhysical (Cfg.addrToInstr physical) = some exit
  behind : header + 2 < exit
  within : exit ≤ lowered.length
  atBack : lowered[exit - 1]? = some back
  atBackPhysical : physical[exit - 1]? = some backPhysical
  isJump : lowerMnemonic back = "jmp"
  backTarget : branchTargetIndex backPhysical (Cfg.addrToInstr physical) = some header
  scanned : ((lowered.zipIdx.take (exit - 1)).drop (header + 2)).foldlM (BodyScan.step cell)
    ⟨false, []⟩ = some scan
  sawInc : scan.sawInc = true
  number : limit = bound.toUInt64
  listed : accesses = scan.accesses

/-- A confirmed pre-test loop has all its pieces. -/
theorem preTestLoop_some (lowered : List LoweredInstr) (physical : List PhysicalInstruction)
    (header : Nat) (found : Induction) (accesses : List Nat)
    (loop : preTestLoop lowered physical header = some (found, accesses)) :
    Nonempty (PreTestShape lowered physical header found.1 found.2 accesses) := by
  unfold preTestLoop at loop
  obtain ⟨cmp, atHeader, loop⟩ := Option.bind_eq_some_iff.mp loop
  split_ifs at loop with isCmp
  obtain ⟨⟨cell, bound⟩, compared, loop⟩ := Option.bind_eq_some_iff.mp loop
  simp only at loop
  split_ifs at loop with zeroed
  obtain ⟨guard, atGuard, loop⟩ := Option.bind_eq_some_iff.mp loop
  split_ifs at loop with isGuard
  obtain ⟨guardPhysical, atGuardPhysical, loop⟩ := Option.bind_eq_some_iff.mp loop
  obtain ⟨exit, guardTarget, loop⟩ := Option.bind_eq_some_iff.mp loop
  split_ifs at loop with outside
  obtain ⟨back, atBack, loop⟩ := Option.bind_eq_some_iff.mp loop
  obtain ⟨backPhysical, atBackPhysical, loop⟩ := Option.bind_eq_some_iff.mp loop
  split_ifs at loop with isBack
  obtain ⟨scan, scanned, loop⟩ := Option.bind_eq_some_iff.mp loop
  split_ifs at loop with sawInc
  cases loop
  rw [not_or, not_not, not_not] at isBack
  exact ⟨⟨cmp, guard, back, guardPhysical, backPhysical, bound, exit, scan, atHeader,
    not_not.mp isCmp, compared, by simpa using zeroed, atGuard, by simpa [or_iff_not_imp_left] using isGuard,
    atGuardPhysical, guardTarget, by omega, by omega, atBack, atBackPhysical, isBack.1, isBack.2,
    scanned, sawInc, rfl, rfl⟩⟩

/-- A search that finds the index zeroed has met one instruction that zeroes it,
and none with a verdict since. -/
theorem zeroInitialized_some (cell : Gp) (reversed : List LoweredInstr)
    (zeroed : zeroInitialized cell reversed = true) :
    ∃ depth instr, reversed[depth]? = some instr ∧ zeroVerdict cell instr = some true ∧
      ∀ (nearer : Nat) other, nearer < depth → reversed[nearer]? = some other →
        zeroVerdict cell other = none := by
  induction reversed with
  | nil => cases zeroed
  | cons instr earlier inductionHypothesis =>
    rw [zeroInitialized] at zeroed
    cases verdict : zeroVerdict cell instr with
    | some zero =>
      rw [verdict] at zeroed
      have zeroes : zero = true := zeroed
      rw [zeroes] at verdict
      exact ⟨0, instr, rfl, verdict, fun nearer _ below => absurd below (by omega)⟩
    | none =>
      rw [verdict] at zeroed
      obtain ⟨depth, found, here, zeroes, silent⟩ := inductionHypothesis zeroed
      refine ⟨depth + 1, found, here, zeroes, ?_⟩
      intro nearer other below there
      cases nearer with
      | zero =>
        cases there
        exact verdict
      | succ nearer => exact silent nearer other (by omega) there

/-- The instructions before a position, nearest first. -/
theorem earlier_position (lowered : List LoweredInstr) (before depth : Nat)
    (inside : before ≤ lowered.length) (below : depth < before) :
    (lowered.take before).reverse[depth]? = lowered[before - 1 - depth]? := by
  have length : (lowered.take before).length = before := by simp [inside]
  rw [List.getElem?_reverse (by rw [length]; exact below), length, List.getElem?_take_of_lt]
  omega

/-- The instructions before a position end at the start of the text. -/
theorem earlier_bound (lowered : List LoweredInstr) (before depth : Nat) (instr : LoweredInstr)
    (found : (lowered.take before).reverse[depth]? = some instr) : depth < before := by
  have bound := (List.getElem?_eq_some_iff.mp found).1
  rw [List.length_reverse, List.length_take] at bound
  omega

/-- The zeroing of an index, by position. -/
theorem zeroing_position (lowered : List LoweredInstr) (before : Nat) (cell : Gp)
    (inside : before ≤ lowered.length)
    (zeroed : indexWasZeroInitialized lowered before cell = true) :
    ∃ zeroing instr, zeroing < before ∧ lowered[zeroing]? = some instr ∧
      zeroVerdict cell instr = some true ∧
      ∀ position other, zeroing < position → position < before →
        lowered[position]? = some other → zeroVerdict cell other = none := by
  obtain ⟨depth, instr, here, zeroes, silent⟩ := zeroInitialized_some cell _ zeroed
  have bound := earlier_bound lowered before depth instr here
  refine ⟨before - 1 - depth, instr, by omega, ?_, zeroes, ?_⟩
  · rw [← earlier_position lowered before depth inside bound]
    exact here
  · intro position other after below there
    apply silent (before - 1 - position) other (by omega)
    rw [earlier_position lowered before _ inside (by omega)]
    rwa [show before - 1 - (before - 1 - position) = position by omega]

/-- One instruction of a body either does not write the index or is its first
increment. -/
theorem BodyScan.step_some (cell : Gp) (scan after : BodyScan) (entry : LoweredInstr × Nat)
    (stepped : BodyScan.step cell scan entry = some after) :
    (after.accesses = if indexedBy entry.1 cell then scan.accesses ++ [entry.2] else scan.accesses) ∧
      ((writesGp entry.1 cell = false ∧ after.sawInc = scan.sawInc) ∨
        (lowerMnemonic entry.1 = "inc" ∧ firstCell entry.1 = some cell ∧ scan.sawInc = false ∧
          after.sawInc = true)) := by
  simp only [BodyScan.step] at stepped
  cases writes : writesGp entry.1 cell with
  | false =>
    simp only [writes, Bool.false_eq_true, if_false] at stepped
    cases stepped
    exact ⟨rfl, Or.inl ⟨rfl, rfl⟩⟩
  | true =>
    simp only [writes, if_true] at stepped
    split at stepped
    next => cases stepped
    next allowed =>
      cases stepped
      simp only [Bool.or_eq_true, Bool.not_eq_true', not_or, Bool.not_eq_false,
        Bool.and_eq_true, beq_iff_eq, Bool.not_eq_true] at allowed
      exact ⟨rfl, Or.inr ⟨allowed.1.1, allowed.1.2, allowed.2, rfl⟩⟩

/-- A body scanned after its increment has no further write. -/
theorem bodyScan_after (cell : Gp) (entries : List (LoweredInstr × Nat)) (start scan : BodyScan)
    (scanned : entries.foldlM (BodyScan.step cell) start = some scan)
    (incremented : start.sawInc = true) : ∀ entry ∈ entries, writesGp entry.1 cell = false := by
  induction entries generalizing start with
  | nil => simp
  | cons entry rest inductionHypothesis =>
    rw [List.foldlM_cons] at scanned
    obtain ⟨middle, first, later⟩ := Option.bind_eq_some_iff.mp scanned
    obtain ⟨_, ⟨silent, same⟩ | ⟨_, _, notYet, _⟩⟩ := BodyScan.step_some cell start middle entry first
    · intro other member
      rcases List.mem_cons.mp member with rfl | remaining
      · exact silent
      · exact inductionHypothesis middle later (same.trans incremented) other remaining
    · rw [incremented] at notYet
      cases notYet

/-- A scanned body has one increment of the index and no other write. -/
theorem bodyScan_increment (cell : Gp) (entries : List (LoweredInstr × Nat)) (start scan : BodyScan)
    (scanned : entries.foldlM (BodyScan.step cell) start = some scan)
    (fresh : start.sawInc = false) (sawInc : scan.sawInc = true) :
    ∃ (place : Nat) (inc : LoweredInstr × Nat), entries[place]? = some inc ∧
      lowerMnemonic inc.1 = "inc" ∧ firstCell inc.1 = some cell ∧
      ∀ (other : Nat) entry, other ≠ place → entries[other]? = some entry →
        writesGp entry.1 cell = false := by
  induction entries generalizing start with
  | nil =>
    cases scanned
    rw [fresh] at sawInc
    cases sawInc
  | cons entry rest inductionHypothesis =>
    rw [List.foldlM_cons] at scanned
    obtain ⟨middle, first, later⟩ := Option.bind_eq_some_iff.mp scanned
    obtain ⟨_, ⟨silent, same⟩ | ⟨named, target, _, incremented⟩⟩ :=
      BodyScan.step_some cell start middle entry first
    · obtain ⟨place, inc, here, named, target, others⟩ :=
        inductionHypothesis middle later (same.trans fresh)
      refine ⟨place + 1, inc, here, named, target, ?_⟩
      intro other found different there
      cases other with
      | zero =>
        cases there
        exact silent
      | succ other => exact others other found (by omega) there
    · refine ⟨0, entry, rfl, named, target, ?_⟩
      intro other found different there
      obtain ⟨before, rfl⟩ : ∃ before, other = before + 1 := ⟨other - 1, by omega⟩
      rw [List.getElem?_cons_succ] at there
      exact bodyScan_after cell rest middle scan later incremented found
        (List.mem_of_getElem? there)

/-- The scanned accesses are positions of the body. -/
theorem bodyScan_accesses (cell : Gp) (entries : List (LoweredInstr × Nat)) (start scan : BodyScan)
    (scanned : entries.foldlM (BodyScan.step cell) start = some scan) (position : Nat)
    (member : position ∈ scan.accesses) :
    position ∈ start.accesses ∨ ∃ entry ∈ entries, entry.2 = position := by
  induction entries generalizing start with
  | nil =>
    cases scanned
    exact Or.inl member
  | cons entry rest inductionHypothesis =>
    rw [List.foldlM_cons] at scanned
    obtain ⟨middle, first, later⟩ := Option.bind_eq_some_iff.mp scanned
    rcases inductionHypothesis middle later with early | ⟨found, remaining, same⟩
    · rw [(BodyScan.step_some cell start middle entry first).1] at early
      split_ifs at early
      · rcases List.mem_append.mp early with old | new
        · exact Or.inl old
        · exact Or.inr ⟨entry, by simp, (List.mem_singleton.mp new).symm⟩
      · exact Or.inl early
    · exact Or.inr ⟨found, by simp [remaining], same⟩

/-- The entries of a body, by position. -/
theorem bodyEntry (lowered : List LoweredInstr) (first stop place : Nat) :
    ((lowered.zipIdx.take stop).drop first)[place]? =
      if first + place < stop then (lowered[first + place]?).map (fun instr => (instr, first + place))
      else none := by
  rw [List.getElem?_drop]
  split_ifs with within
  · rw [List.getElem?_take_of_lt within, List.getElem?_zipIdx]
    simp
  · rw [List.getElem?_eq_none]
    simp
    omega

/-- The places of a loop in the text. -/
structure LoopPlaces where
  cell : Gp
  limit : UInt64
  zeroing : Nat
  header : Nat
  increment : Nat
  exit : Nat

/-- What the text says at the places of a confirmed loop. Nothing between the
zeroing and the header speaks about the index, and nothing in the body but the
increment is seen to write it. -/
structure LoopPlaces.Confirmed (loop : LoopPlaces) (lowered : List LoweredInstr)
    (physical : List PhysicalInstruction) : Prop where
  zeroingFirst : loop.zeroing < loop.header
  bodyStarts : loop.header + 2 ≤ loop.increment
  bodyEnds : loop.increment < loop.exit - 1
  zeroes : ∃ instr, lowered[loop.zeroing]? = some instr ∧ zeroVerdict loop.cell instr = some true
  silentBefore : ∀ position instr, loop.zeroing < position → position < loop.header →
    lowered[position]? = some instr → zeroVerdict loop.cell instr = none
  compares : ∃ instr bound, lowered[loop.header]? = some instr ∧ lowerMnemonic instr = "cmp" ∧
    comparedBound instr = some (loop.cell, bound) ∧ loop.limit = bound.toUInt64
  guards : ∃ instr branch, lowered[loop.header + 1]? = some instr ∧
    lowerMnemonic instr ∈ ["jae", "jnb", "jge"] ∧ physical[loop.header + 1]? = some branch ∧
    branchTargetIndex branch (Cfg.addrToInstr physical) = some loop.exit
  increments : ∃ instr, lowered[loop.increment]? = some instr ∧ lowerMnemonic instr = "inc" ∧
    firstCell instr = some loop.cell
  silentBody : ∀ position instr, loop.header + 2 ≤ position → position < loop.exit - 1 →
    position ≠ loop.increment → lowered[position]? = some instr → writesGp instr loop.cell = false
  jumpsBack : ∃ instr branch, lowered[loop.exit - 1]? = some instr ∧ lowerMnemonic instr = "jmp" ∧
    physical[loop.exit - 1]? = some branch ∧
    branchTargetIndex branch (Cfg.addrToInstr physical) = some loop.header

/-- The pieces of a confirmed loop have their places. -/
theorem PreTestShape.confirmed (lowered : List LoweredInstr) (physical : List PhysicalInstruction)
    (header : Nat) (cell : Gp) (limit : UInt64) (accesses : List Nat)
    (shape : PreTestShape lowered physical header cell limit accesses) :
    ∃ loop : LoopPlaces, loop.cell = cell ∧ loop.limit = limit ∧ loop.Confirmed lowered physical ∧
      ∀ position ∈ accesses, loop.header + 2 ≤ position ∧ position < loop.exit - 1 := by
  have within := shape.within
  have behind := shape.behind
  obtain ⟨zeroing, zero, first, here, zeroes, silent⟩ :=
    zeroing_position lowered header cell (by omega) shape.zeroed
  obtain ⟨place, inc, atInc, named, target, others⟩ :=
    bodyScan_increment cell _ _ shape.scan shape.scanned rfl shape.sawInc
  rw [bodyEntry] at atInc
  split_ifs at atInc with inside
  obtain ⟨instr, found, rfl⟩ := Option.map_eq_some_iff.mp atInc
  refine ⟨⟨cell, limit, zeroing, header, header + 2 + place, shape.exit⟩, rfl, rfl,
    { zeroingFirst := first
      bodyStarts := by simp
      bodyEnds := inside
      zeroes := ⟨zero, here, zeroes⟩
      silentBefore := silent
      compares := ⟨shape.cmp, shape.bound, shape.atHeader, shape.isCmp, shape.compared, shape.number⟩
      guards := ⟨shape.guard, shape.guardPhysical, shape.atGuard, shape.isGuard,
        shape.atGuardPhysical, shape.guardTarget⟩
      increments := ⟨instr, found, named, target⟩
      silentBody := ?_
      jumpsBack := ⟨shape.back, shape.backPhysical, shape.atBack, shape.isJump,
        shape.atBackPhysical, shape.backTarget⟩ }, ?_⟩
  · intro position other above below different there
    obtain ⟨offset, rfl⟩ : ∃ offset, position = header + 2 + offset :=
      ⟨position - (header + 2), by simp only at above; omega⟩
    refine others offset (other, header + 2 + offset) ?_ ?_
    · rintro rfl
      exact different rfl
    · rw [bodyEntry, if_pos below, there, Option.map_some]
  · intro position member
    rw [shape.listed] at member
    rcases bodyScan_accesses cell _ _ shape.scan shape.scanned position member with none | some_
    · cases none
    · obtain ⟨entry, listed, rfl⟩ := some_
      obtain ⟨offset, there⟩ := List.mem_iff_getElem?.mp listed
      rw [bodyEntry] at there
      split_ifs at there with below
      obtain ⟨_, _, rfl⟩ := Option.map_eq_some_iff.mp there
      exact ⟨by simp, below⟩

/-- An attached bound comes from a confirmed loop around the access. -/
theorem cfgPreTestInductions_some (lowered : List LoweredInstr) (physical : List PhysicalInstruction)
    (position : Nat) (cell : Gp) (limit : UInt64)
    (attached : cfgPreTestInductions lowered physical position = some (cell, limit)) :
    ∃ loop : LoopPlaces, loop.cell = cell ∧ loop.limit = limit ∧ loop.Confirmed lowered physical ∧
      loop.header + 2 ≤ position ∧ position < loop.exit - 1 := by
  unfold cfgPreTestInductions at attached
  split_ifs at attached
  have general : ∀ (step : (Nat → Option Induction) → Nat → Nat → Option Induction),
      (∀ found header, preTestLoop lowered physical header = none → step found header = found) →
      (∀ found header value accesses,
        preTestLoop lowered physical header = some (value, accesses) →
          step found header = insertAll found value accesses) →
      ∀ (headers : List Nat) (before : Nat → Option Induction),
      headers.foldl step before position = some (cell, limit) →
      before position = some (cell, limit) ∨ ∃ header accesses,
        preTestLoop lowered physical header = some ((cell, limit), accesses) ∧
          position ∈ accesses := by
    intro step missed taken headers
    induction headers with
    | nil =>
      intro before same
      exact Or.inl same
    | cons header rest inductionHypothesis =>
      intro before same
      rcases inductionHypothesis _ same with here | found
      · cases loop : preTestLoop lowered physical header with
        | none =>
          rw [missed _ _ loop] at here
          exact Or.inl here
        | some found =>
          obtain ⟨value, accesses⟩ := found
          simp only [taken _ _ _ _ loop, insertAll] at here
          split_ifs at here with member
          · cases here
            exact Or.inr ⟨header, accesses, loop, member⟩
          · exact Or.inl here
      · exact Or.inr found
  rcases general _ (fun found header none_ => by simp only [none_])
    (fun found header value accesses some_ => by simp only [some_]) _ _ attached with impossible | ⟨header, accesses, loop, member⟩
  · cases impossible
  · obtain ⟨shape⟩ := preTestLoop_some lowered physical header (cell, limit) accesses loop
    obtain ⟨places, sameCell, sameLimit, confirmed, inside⟩ := shape.confirmed
    exact ⟨places, sameCell, sameLimit, confirmed, inside position member⟩

end Semasm.Cli
