import Semasm.Cli.LoopSteps

/-!
# Recognised countdown loops

What the recogniser of countdown loops has checked when it attaches a bound: a
positive count assigned to the index, a decrement close before the access, and a
branch on not zero or not negative behind the access, with no instruction in
between that is seen to write the index.
-/

namespace Semasm.Cli

open Decode X86

/-- The branches that are taken for the back edge of a countdown. -/
def backEdgeMnemonics : List String := ["jnz", "jne", "jns"]

/-- The search for the decrement passes over instructions that leave the index
alone. -/
theorem decrementBefore_some (cell : Gp) (distance : Nat) (reversed earlier : List LoweredInstr)
    (found : decrementBefore cell distance reversed = some earlier) :
    ∃ depth instr, reversed[depth]? = some instr ∧ lowerMnemonic instr = "dec" ∧
      firstCell instr = some cell ∧ earlier = reversed.drop (depth + 1) ∧
      ∀ (nearer : Nat) other, nearer < depth → reversed[nearer]? = some other →
        writesGp other cell = false := by
  induction reversed generalizing distance with
  | nil => cases found
  | cons instr rest inductionHypothesis =>
    rw [decrementBefore] at found
    split_ifs at found with decrements writes far
    · cases found
      exact ⟨0, instr, rfl, decrements.1, decrements.2, rfl,
        fun nearer _ below => absurd below (by omega)⟩
    · obtain ⟨depth, dec, here, named, target, tail, silent⟩ := inductionHypothesis _ found
      refine ⟨depth + 1, dec, here, named, target, tail, ?_⟩
      intro nearer other below there
      cases nearer with
      | zero =>
        cases there
        simpa using writes
      | succ nearer => exact silent nearer other (by omega) there

/-- The search for the count passes over instructions that leave the index alone. -/
theorem initialCount_some (cell : Gp) (reversed : List LoweredInstr) (limit : UInt64)
    (found : initialCount cell reversed = some limit) :
    ∃ depth instr count, reversed[depth]? = some instr ∧
      (lowerMnemonic instr = "mov" ∨ lowerMnemonic instr = "movabs") ∧
      assignedImmediate instr cell = some count ∧ 0 < count ∧ limit = count.toUInt64 ∧
      ∀ (nearer : Nat) other, nearer < depth → reversed[nearer]? = some other →
        writesGp other cell = false := by
  induction reversed with
  | nil => cases found
  | cons instr rest inductionHypothesis =>
    have further : writesGp instr cell = false → initialCount cell rest = some limit →
        ∃ depth other count, (instr :: rest)[depth]? = some other ∧
          (lowerMnemonic other = "mov" ∨ lowerMnemonic other = "movabs") ∧
          assignedImmediate other cell = some count ∧ 0 < count ∧ limit = count.toUInt64 ∧
          ∀ (nearer : Nat) another, nearer < depth → (instr :: rest)[nearer]? = some another →
            writesGp another cell = false := by
      intro silent later
      obtain ⟨depth, other, count, here, named, assigned, positive, number, quiet⟩ :=
        inductionHypothesis later
      refine ⟨depth + 1, other, count, here, named, assigned, positive, number, ?_⟩
      intro nearer another below there
      cases nearer with
      | zero =>
        cases there
        exact silent
      | succ nearer => exact quiet nearer another (by omega) there
    rw [initialCount] at found
    by_cases isMove : lowerMnemonic instr = "mov" ∨ lowerMnemonic instr = "movabs"
    · rw [if_pos isMove] at found
      split at found
      next count assigned =>
        split_ifs at found with positive
        cases found
        exact ⟨0, instr, count, rfl, isMove, assigned, positive, rfl,
          fun nearer _ below => absurd below (by omega)⟩
      next =>
        split_ifs at found with writes
        exact further (by simpa using writes) found
    · rw [if_neg isMove] at found
      split_ifs at found with writes
      exact further (by simpa using writes) found

/-- The search for the back edge passes over instructions that leave the index
alone. -/
theorem backEdgeAfter_some (cell : Gp) (rest : List LoweredInstr)
    (found : backEdgeAfter cell rest = true) :
    ∃ place instr, rest[place]? = some instr ∧ lowerMnemonic instr ∈ backEdgeMnemonics ∧
      ∀ (other : Nat) another, other < place → rest[other]? = some another →
        writesGp another cell = false := by
  induction rest with
  | nil => cases found
  | cons instr rest inductionHypothesis =>
    rw [backEdgeAfter] at found
    split_ifs at found with back stops control
    · exact ⟨0, instr, rfl, by simpa [backEdgeMnemonics] using back,
        fun other _ below => absurd below (by omega)⟩
    · obtain ⟨place, branch, here, named, silent⟩ := inductionHypothesis found
      refine ⟨place + 1, branch, here, named, ?_⟩
      intro other another below there
      cases other with
      | zero =>
        cases there
        simp only [Bool.or_eq_true, not_or, Bool.not_eq_true] at stops
        exact stops.1
      | succ other => exact silent other another (by omega) there

/-- The places of a countdown loop in the text. -/
structure CountdownPlaces where
  cell : Gp
  limit : UInt64
  initial : Nat
  decrement : Nat
  access : Nat
  branch : Nat

/-- What the text says at the places of a recognised countdown. Nothing else from
the assignment to the branch is seen to write the index. -/
structure CountdownPlaces.Confirmed (loop : CountdownPlaces) (lowered : List LoweredInstr) : Prop where
  initialFirst : loop.initial < loop.decrement
  decrementNext : loop.decrement < loop.access
  branchLast : loop.access < loop.branch
  assigns : ∃ instr count, lowered[loop.initial]? = some instr ∧
    (lowerMnemonic instr = "mov" ∨ lowerMnemonic instr = "movabs") ∧
    assignedImmediate instr loop.cell = some count ∧ 0 < count ∧ loop.limit = count.toUInt64
  decrements : ∃ instr, lowered[loop.decrement]? = some instr ∧ lowerMnemonic instr = "dec" ∧
    firstCell instr = some loop.cell
  branches : ∃ instr, lowered[loop.branch]? = some instr ∧ lowerMnemonic instr ∈ backEdgeMnemonics
  silent : ∀ position instr, loop.initial < position → position < loop.branch →
    position ≠ loop.decrement → position ≠ loop.access → lowered[position]? = some instr →
    writesGp instr loop.cell = false

/-- The loop is confirmed and bounds the index of the access at a position. -/
structure CountdownPlaces.Bounds (loop : CountdownPlaces) (lowered : List LoweredInstr)
    (position : Nat) (cell : Gp) (limit : UInt64) : Prop where
  sameCell : loop.cell = cell
  sameLimit : loop.limit = limit
  sameAccess : loop.access = position
  confirmed : loop.Confirmed lowered

/-- A bound found at an access comes from a confirmed countdown. -/
theorem countdownBound_some (lowered : List LoweredInstr) (position : Nat) (cell : Gp)
    (limit : UInt64) (inside : position ≤ lowered.length)
    (found : countdownBound lowered position cell = some limit) :
    ∃ loop : CountdownPlaces, loop.Bounds lowered position cell limit := by
  unfold countdownBound at found
  split at found
  next earlier decremented =>
    split_ifs at found with back
    obtain ⟨depth, dec, here, named, target, rfl, between⟩ :=
      decrementBefore_some cell 1 _ earlier decremented
    have near := earlier_bound lowered position depth dec here
    rw [earlier_position lowered position depth inside near] at here
    have tail : (lowered.take position).reverse.drop (depth + 1) =
        (lowered.take (position - 1 - depth)).reverse := by
      rw [List.drop_reverse, List.length_take, List.take_take]
      congr 2
      omega
    rw [tail] at found
    obtain ⟨past, assign, count, first, isMove, assigned, positive, number, before⟩ :=
      initialCount_some cell _ limit found
    have far := earlier_bound lowered (position - 1 - depth) past assign first
    rw [earlier_position lowered _ past (by omega) far] at first
    obtain ⟨offset, branch, atBranch, isBack, after⟩ := backEdgeAfter_some cell _ back
    rw [List.getElem?_drop] at atBranch
    refine ⟨⟨cell, limit, position - 1 - depth - 1 - past, position - 1 - depth, position,
      position + 1 + offset⟩, rfl, rfl, rfl,
      { initialFirst := by simp only; omega
        decrementNext := by simp only; omega
        branchLast := by simp only; omega
        assigns := ⟨assign, count, first, isMove, assigned, positive, number⟩
        decrements := ⟨dec, here, named, target⟩
        branches := ⟨branch, atBranch, isBack⟩
        silent := ?_ }⟩
    intro place instr later early notDecrement notAccess there
    simp only at later early notDecrement notAccess
    rcases Nat.lt_trichotomy place (position - 1 - depth) with low | same | high
    · apply before (position - 1 - depth - 1 - place) instr (by omega)
      rw [earlier_position lowered _ _ (by omega) (by omega)]
      rwa [show position - 1 - depth - 1 - (position - 1 - depth - 1 - place) = place by omega]
    · exact absurd same notDecrement
    · rcases Nat.lt_trichotomy place position with low | same | high
      · apply between (position - 1 - place) instr (by omega)
        rw [earlier_position lowered _ _ inside (by omega)]
        rwa [show position - 1 - (position - 1 - place) = place by omega]
      · exact absurd same notAccess
      · apply after (place - (position + 1)) instr (by omega)
        rw [List.getElem?_drop]
        rwa [show position + 1 + (place - (position + 1)) = place by omega]
  next => cases found

/-- An attached countdown bound comes from a confirmed loop. -/
theorem countdownInduction_some (lowered : List LoweredInstr) (position : Nat) (cell : Gp)
    (limit : UInt64) (attached : countdownInduction lowered position = some (cell, limit)) :
    ∃ loop : CountdownPlaces, loop.Bounds lowered position cell limit := by
  unfold countdownInduction at attached
  split at attached
  next access here =>
    obtain ⟨operand, _, known⟩ := lastFound_some _ _ _ attached
    unfold countdownOperand at known
    split at known
    next mem =>
      obtain ⟨gp, indexed, counted⟩ := Option.bind_eq_some_iff.mp known
      obtain ⟨bound, found, same⟩ := Option.map_eq_some_iff.mp counted
      cases same
      have inside : position < lowered.length := (List.getElem?_eq_some_iff.mp here).1
      exact countdownBound_some lowered position cell limit (by omega) found
    next => cases known
  next => cases attached

end Semasm.Cli
