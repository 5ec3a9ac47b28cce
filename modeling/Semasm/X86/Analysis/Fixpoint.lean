import Semasm.Library.Transitions
import Semasm.Library.Worklist
import Semasm.X86.Analysis.Driver

/-!
# Where the driver stops

The loop of the driver is a run of visits, and the bound on their number makes it
stop. As long as no successor of a changed block is left out of the queue, the
states of every block that is not queued satisfy the data-flow equations; so they
all hold when the queue is empty. The driver takes the entry state only where the
entry block has no predecessor.
-/

namespace Semasm.X86.Analysis

open Library Transitions

/-- One visit within the bound. -/
inductive DriverStep (lowered : List LoweredInstr) (blocks : List BlockRange) (driver : Driver) :
    Driver → Prop
  | visit (index : Nat) (rest : List Nat) (queued : driver.worklist = index :: rest)
      (within : driver.iterations + 1 ≤ visitBound blocks) :
      DriverStep lowered blocks driver (driver.visit lowered blocks index rest)

/-- The block visited next changes and has a successor that is neither queued nor put
into the queue: it was put there before and the run is late. -/
def LeavesOut (lowered : List LoweredInstr) (blocks : List BlockRange) (driver : Driver) : Prop :=
  ∃ index rest block, driver.worklist = index :: rest ∧ blocks[index]? = some block ∧
    processBlock lowered blocks driver.out index ≠ (driver.entry index, driver.out index) ∧
    ∃ next ∈ block.successors, next ∉ rest ∧ next ∈ driver.seen ∧
      blocks.length * 2 ≤ driver.iterations + 1

/-- No visit of the run leaves out a successor of a changed block. -/
def KeepsChanges (lowered : List LoweredInstr) (blocks : List BlockRange) : Prop :=
  ∀ driver, Reaches (DriverStep lowered blocks) (Driver.initial lowered blocks) driver →
    ¬ LeavesOut lowered blocks driver

/-- The states that flow into a block: those of its predecessors, and the entry state
into the entry block. -/
def incoming (blocks : List BlockRange) (out : Nat → BlockState) (index : Nat) : List BlockState :=
  (if index = 0 then [BlockState.bottom] else []) ++ predecessorOuts blocks out index

/-- The data-flow equations of one block. -/
def EquationsAt (lowered : List LoweredInstr) (blocks : List BlockRange)
    (blockIn blockOut : List BlockState) (index : Nat) (block : BlockRange) : Prop :=
  ∃ inState outState, blockIn[index]? = some inState ∧ blockOut[index]? = some outState ∧
    inState = joinAll (incoming blocks (fun other => (blockOut[other]?).getD .bottom) index) ∧
    outState = transferAll (block.body lowered) inState

/-- The data-flow equations of all blocks. -/
def Equations (lowered : List LoweredInstr) (blocks : List BlockRange)
    (blockIn blockOut : List BlockState) : Prop :=
  ∀ (index : Nat) block, blocks[index]? = some block →
    EquationsAt lowered blocks blockIn blockOut index block

/-- An edge of the block graph. -/
def Flows (blocks : List BlockRange) (source target : Nat) : Prop :=
  ∃ block, blocks[source]? = some block ∧ target ∈ block.successors

/-- No block leads to the entry block. -/
def FreshEntry (blocks : List BlockRange) : Prop := ∀ block ∈ blocks, 0 ∉ block.successors

/-! ## One visit -/

/-- Both states of each block. -/
def Driver.values (driver : Driver) (index : Nat) : BlockState × BlockState :=
  (driver.entry index, driver.out index)

/-- The states of a block computed from those of all blocks. -/
def equation (lowered : List LoweredInstr) (blocks : List BlockRange)
    (values : Nat → BlockState × BlockState) (index : Nat) : BlockState × BlockState :=
  processBlock lowered blocks (fun other => (values other).2) index

/-- A block ignores the states of blocks that do not lead to it. -/
theorem equation_ignores (lowered : List LoweredInstr) (blocks : List BlockRange) (source node : Nat)
    (apart : ∀ block, blocks[source]? = some block → node ∉ block.successors) :
    Worklist.Ignores (equation lowered blocks) source node := by
  intro values value
  have outs : predecessorOuts blocks (fun other => (Function.update values source value other).2)
      node = predecessorOuts blocks (fun other => (values other).2) node := by
    unfold predecessorOuts
    apply List.map_congr_left
    intro entry member
    obtain ⟨inside, leads⟩ := List.mem_filter.mp member
    have different : entry.2 ≠ source := by
      intro same
      have found := List.mem_zipIdx_iff_getElem?.mp inside
      rw [same] at found
      exact apart entry.1 found (List.contains_iff_mem.mp leads)
    simp only [Function.update_of_ne different]
  unfold equation processBlock
  simp only [outs]

/-- Putting successors into the queue. -/
theorem foldl_push (count : Nat) (nexts : List Nat) (driver : Driver) :
    let result := nexts.foldl (Driver.push count) driver
    result.blockIn = driver.blockIn ∧ result.blockOut = driver.blockOut ∧
      result.iterations = driver.iterations ∧
      (∀ node ∈ driver.worklist, node ∈ result.worklist) ∧
      ∀ node ∈ nexts, node ∉ driver.seen ∨ driver.iterations < count * 2 →
        node ∈ result.worklist := by
  induction nexts generalizing driver with
  | nil => simp
  | cons next nexts inductionHypothesis =>
    rw [List.foldl_cons]
    obtain ⟨sameIn, sameOut, sameCount, kept, pushed⟩ := inductionHypothesis (driver.push count next)
    by_cases fits : next ∉ driver.seen ∨ driver.iterations < count * 2
    · have step : driver.push count next =
          { driver with worklist := driver.worklist ++ [next], seen := next :: driver.seen } := by
        rw [Driver.push, if_pos fits]
      rw [step] at sameIn sameOut sameCount kept pushed ⊢
      refine ⟨sameIn, sameOut, sameCount, fun node queued => kept node (by simp [queued]), ?_⟩
      intro node member allowed
      by_cases same : node = next
      · exact kept node (by simp [same])
      · have later : node ∈ nexts := (List.mem_cons.mp member).resolve_left same
        apply pushed node later
        simpa [same] using allowed
    · have step : driver.push count next = driver := by rw [Driver.push, if_neg fits]
      rw [step] at sameIn sameOut sameCount kept pushed ⊢
      refine ⟨sameIn, sameOut, sameCount, kept, ?_⟩
      intro node member allowed
      rcases List.mem_cons.mp member with rfl | later
      · exact absurd allowed fits
      · exact pushed node later allowed

/-- What a visit does: a block whose states are the computed ones is taken out of the
queue, another one gets them and its successors are put into the queue. -/
theorem Driver.visit_cases (lowered : List LoweredInstr) (blocks : List BlockRange)
    (driver : Driver) (index : Nat) (rest : List Nat) :
    ∃ taken : Driver, taken.blockIn = driver.blockIn ∧ taken.blockOut = driver.blockOut ∧
      taken.worklist = rest ∧ taken.seen = driver.seen ∧ taken.iterations = driver.iterations + 1 ∧
      ((processBlock lowered blocks driver.out index = driver.values index ∧
          driver.visit lowered blocks index rest = taken) ∨
        (processBlock lowered blocks driver.out index ≠ driver.values index ∧
          driver.visit lowered blocks index rest =
            ((blocks[index]?).getD ⟨0, 0, []⟩).successors.foldl (Driver.push blocks.length)
              (taken.updated index (processBlock lowered blocks driver.out index)))) := by
  refine ⟨driver.taken lowered ((blocks[index]?).getD ⟨0, 0, []⟩)
    (processBlock lowered blocks driver.out index).1 rest, rfl, rfl, rfl, rfl, rfl, ?_⟩
  have same : processBlock lowered blocks driver.out index = driver.values index ↔
      ¬ ((processBlock lowered blocks driver.out index).2 ≠ driver.out index ∨
        driver.entry index ≠ (processBlock lowered blocks driver.out index).1) := by
    rw [not_or, not_not, not_not, Prod.ext_iff]
    exact ⟨fun ⟨first, second⟩ => ⟨second, first.symm⟩, fun ⟨second, first⟩ => ⟨first.symm, second⟩⟩
  by_cases settled : processBlock lowered blocks driver.out index = driver.values index
  · exact Or.inl ⟨settled, if_neg (same.mp settled)⟩
  · exact Or.inr ⟨settled, if_pos (not_not.mp (fun none => settled (same.mpr none)))⟩

/-- A visit counts. -/
theorem Driver.visit_iterations (lowered : List LoweredInstr) (blocks : List BlockRange)
    (driver : Driver) (index : Nat) (rest : List Nat) :
    (driver.visit lowered blocks index rest).iterations = driver.iterations + 1 := by
  obtain ⟨taken, _, _, _, _, counted, ⟨_, result⟩ | ⟨_, result⟩⟩ :=
    driver.visit_cases lowered blocks index rest
  · rw [result, counted]
  · rw [result, (foldl_push _ _ _).2.2.1]
    exact counted

/-- The lists of the driver have one state for each block. -/
def Driver.Sized (blocks : List BlockRange) (driver : Driver) : Prop :=
  driver.blockIn.length = blocks.length ∧ driver.blockOut.length = blocks.length

theorem Driver.visit_sized (lowered : List LoweredInstr) (blocks : List BlockRange)
    (driver : Driver) (index : Nat) (rest : List Nat) (sized : driver.Sized blocks) :
    (driver.visit lowered blocks index rest).Sized blocks := by
  obtain ⟨taken, sameIn, sameOut, _, _, _, ⟨_, result⟩ | ⟨_, result⟩⟩ :=
    driver.visit_cases lowered blocks index rest
  · rw [result, Driver.Sized, sameIn, sameOut]
    exact sized
  · obtain ⟨pushedIn, pushedOut, _⟩ := foldl_push blocks.length
      ((blocks[index]?).getD ⟨0, 0, []⟩).successors
      (taken.updated index (processBlock lowered blocks driver.out index))
    rw [result, Driver.Sized, pushedIn, pushedOut, Driver.updated, List.length_set, List.length_set,
      sameIn, sameOut]
    exact sized

/-- A visit gives a block the states its equations compute. -/
theorem Driver.visit_values (lowered : List LoweredInstr) (blocks : List BlockRange)
    (driver : Driver) (index : Nat) (rest : List Nat) (sized : driver.Sized blocks)
    (inside : index < blocks.length) :
    (driver.visit lowered blocks index rest).values =
      Worklist.visit (equation lowered blocks) driver.values index := by
  have computed : equation lowered blocks driver.values index =
      processBlock lowered blocks driver.out index := rfl
  obtain ⟨taken, sameIn, sameOut, _, _, _, ⟨settled, result⟩ | ⟨_, result⟩⟩ :=
    driver.visit_cases lowered blocks index rest
  · rw [result, Worklist.visit, computed, settled, Function.update_eq_self]
    unfold Driver.values Driver.entry Driver.out
    rw [sameIn, sameOut]
  · obtain ⟨pushedIn, pushedOut, _⟩ := foldl_push blocks.length
      ((blocks[index]?).getD ⟨0, 0, []⟩).successors
      (taken.updated index (processBlock lowered blocks driver.out index))
    rw [result, Worklist.visit, computed]
    generalize processBlock lowered blocks driver.out index = states at pushedIn pushedOut ⊢
    funext other
    unfold Driver.values Driver.entry Driver.out
    rw [pushedIn, pushedOut, Driver.updated, sameIn, sameOut]
    by_cases same : other = index
    · subst same
      rw [Function.update_self]
      simp [sized.1, sized.2, inside]
    · rw [Function.update_of_ne same]
      simp [List.getElem?_set_ne (Ne.symm same)]

/-- A visit of an index without a block changes no state. -/
theorem Driver.visit_outside (lowered : List LoweredInstr) (blocks : List BlockRange)
    (driver : Driver) (index : Nat) (rest : List Nat) (sized : driver.Sized blocks)
    (outside : blocks.length ≤ index) :
    (driver.visit lowered blocks index rest).values = driver.values := by
  have absent : blocks[index]? = none := List.getElem?_eq_none outside
  obtain ⟨taken, sameIn, sameOut, _, _, _, ⟨_, result⟩ | ⟨_, result⟩⟩ :=
    driver.visit_cases lowered blocks index rest
  · rw [result]
    unfold Driver.values Driver.entry Driver.out
    rw [sameIn, sameOut]
  · rw [result, absent]
    unfold Driver.values Driver.entry Driver.out
    simp only [Option.getD_none, List.foldl_nil, Driver.updated, sameIn, sameOut]
    rw [List.set_eq_of_length_le (by rw [sized.1]; omega),
      List.set_eq_of_length_le (by rw [sized.2]; omega)]

/-- The rest of the queue stays queued, and so do the successors of a changed block that
are not left out. -/
theorem Driver.visit_worklist (lowered : List LoweredInstr) (blocks : List BlockRange)
    (driver : Driver) (index : Nat) (rest : List Nat) :
    (∀ node ∈ rest, node ∈ (driver.visit lowered blocks index rest).worklist) ∧
      ∀ block, blocks[index]? = some block →
        processBlock lowered blocks driver.out index ≠ driver.values index →
        ∀ next ∈ block.successors,
          next ∉ driver.seen ∨ driver.iterations + 1 < blocks.length * 2 →
          next ∈ (driver.visit lowered blocks index rest).worklist := by
  obtain ⟨taken, _, _, queue, known, counted, ⟨settled, result⟩ | ⟨_, result⟩⟩ :=
    driver.visit_cases lowered blocks index rest
  · rw [result]
    refine ⟨fun node queued => queue ▸ queued, ?_⟩
    intro block _ changed
    exact absurd settled changed
  · obtain ⟨_, _, _, kept, pushed⟩ := foldl_push blocks.length
      ((blocks[index]?).getD ⟨0, 0, []⟩).successors
      (taken.updated index (processBlock lowered blocks driver.out index))
    rw [result]
    refine ⟨fun node queued => kept node (queue ▸ queued), ?_⟩
    intro block found _ next member allowed
    apply pushed next (by rw [found]; exact member)
    rw [Driver.updated, known, counted]
    exact allowed

/-! ## The whole run -/

/-- The states of the blocks that are not queued satisfy their equations. -/
def Driver.Settles (lowered : List LoweredInstr) (blocks : List BlockRange) (driver : Driver) : Prop :=
  driver.Sized blocks ∧ ∀ index, ¬ (index ∈ driver.worklist ∨ blocks.length ≤ index) →
    Worklist.Settled (equation lowered blocks) driver.values index

/-- A visit that leaves out nothing keeps the blocks that are not queued settled. -/
theorem Driver.Settles.step {lowered : List LoweredInstr} {blocks : List BlockRange}
    {driver after : Driver} (settles : driver.Settles lowered blocks)
    (kept : ¬ LeavesOut lowered blocks driver) (step : DriverStep lowered blocks driver after) :
    after.Settles lowered blocks := by
  obtain ⟨sized, settled⟩ := settles
  obtain ⟨index, rest, queued, _⟩ := step
  obtain ⟨remains, pushed⟩ := driver.visit_worklist lowered blocks index rest
  refine ⟨driver.visit_sized lowered blocks index rest sized, ?_⟩
  by_cases inside : index < blocks.length
  · have found : blocks[index]? = some blocks[index] := List.getElem?_eq_getElem inside
    rw [driver.visit_values lowered blocks index rest sized inside]
    apply Worklist.settled_visit (equation lowered blocks) driver.values index
      (fun other => other ∈ driver.worklist ∨ blocks.length ≤ other) _ settled
    · rintro other (waits | outside)
      · rw [queued] at waits
        rcases List.mem_cons.mp waits with same | later
        · exact Or.inl same
        · exact Or.inr (Or.inl (remains other later))
      · exact Or.inr (Or.inr outside)
    · intro other unsettled done
      apply equation_ignores
      intro block atIndex member
      rw [found] at atIndex
      cases atIndex
      have changed : processBlock lowered blocks driver.out index ≠ driver.values index :=
        fun same => unsettled same.symm
      by_cases waits : other ∈ rest
      · exact done (Or.inl (remains other waits))
      · by_cases allowed : other ∉ driver.seen ∨ driver.iterations + 1 < blocks.length * 2
        · exact done (Or.inl (pushed _ found changed other member allowed))
        · obtain ⟨known, late⟩ := not_or.mp allowed
          exact kept ⟨index, rest, _, queued, found, changed, other, member, waits,
            not_not.mp known, Nat.le_of_not_lt late⟩
  · have same := driver.visit_outside lowered blocks index rest sized (Nat.le_of_not_lt inside)
    rw [same]
    intro other done
    apply settled other
    rintro (waits | far)
    · rw [queued] at waits
      rcases List.mem_cons.mp waits with rfl | later
      · exact done (Or.inr (Nat.le_of_not_lt inside))
      · exact done (Or.inl (remains other later))
    · exact done (Or.inr far)

/-- Before the first visit every block is queued. -/
theorem Driver.initial_settles (lowered : List LoweredInstr) (blocks : List BlockRange) :
    (Driver.initial lowered blocks).Settles lowered blocks := by
  refine ⟨⟨List.length_replicate, List.length_replicate⟩, ?_⟩
  intro index done
  obtain ⟨queued, inside⟩ := not_or.mp done
  exact absurd (List.mem_range.mpr (Nat.lt_of_not_le inside)) queued

/-- The run of the driver makes no further visit. -/
def DriverStops (lowered : List LoweredInstr) (blocks : List BlockRange) (driver : Driver) : Prop :=
  Reaches (DriverStep lowered blocks) (Driver.initial lowered blocks) driver ∧
    ∀ after, ¬ DriverStep lowered blocks driver after

/-- The loop ends where the run of visits ends, with fuel to spare. -/
theorem Driver.loop_stops (lowered : List LoweredInstr) (blocks : List BlockRange) (fuel : Nat)
    (driver : Driver)
    (reached : Reaches (DriverStep lowered blocks) (Driver.initial lowered blocks) driver)
    (enough : visitBound blocks + 2 ≤ fuel + driver.iterations) :
    ∃ last, DriverStops lowered blocks last ∧
      (Driver.loop lowered blocks fuel driver).1.blockIn = last.blockIn ∧
      (Driver.loop lowered blocks fuel driver).1.blockOut = last.blockOut ∧
      ((Driver.loop lowered blocks fuel driver).2 = true ↔ last.worklist = []) := by
  induction fuel generalizing driver with
  | zero =>
    have bounded : driver.iterations ≤ visitBound blocks := by
      apply reached.invariant (fun driver => driver.iterations ≤ visitBound blocks) (Nat.zero_le _)
      rintro before after _ _ ⟨index, rest, _, within⟩
      rw [Driver.visit_iterations]
      exact within
    omega
  | succ fuel inductionHypothesis =>
    cases queue : driver.worklist with
    | nil =>
      refine ⟨driver, ⟨reached, ?_⟩, ?_⟩
      · rintro after ⟨index, rest, queued, _⟩
        rw [queue] at queued
        cases queued
      · simp [Driver.loop, queue]
    | cons index rest =>
      by_cases late : visitBound blocks < driver.iterations + 1
      · refine ⟨driver, ⟨reached, ?_⟩, ?_⟩
        · rintro after ⟨_, _, _, within⟩
          omega
        · simp [Driver.loop, queue, late]
      · have step : DriverStep lowered blocks driver (driver.visit lowered blocks index rest) :=
          .visit index rest queue (Nat.le_of_not_lt late)
        have further := inductionHypothesis (driver.visit lowered blocks index rest)
          (.next reached step) (by rw [Driver.visit_iterations]; omega)
        simpa only [Driver.loop, queue, if_neg late] using further

/-- When nothing is queued every block has the states computed from its predecessors. -/
theorem Driver.Settles.solved {lowered : List LoweredInstr} {blocks : List BlockRange}
    {driver : Driver} (settles : driver.Settles lowered blocks) (empty : driver.worklist = [])
    (index : Nat) (block : BlockRange) (found : blocks[index]? = some block) :
    driver.entry index = joinAll (predecessorOuts blocks driver.out index) ∧
      driver.out index = transferAll (block.body lowered) (driver.entry index) := by
  have inside := (List.getElem?_eq_some_iff.mp found).1
  have solved := settles.2 index (by rw [empty]; simp; omega)
  have entries : driver.entry index = joinAll (predecessorOuts blocks driver.out index) :=
    congrArg Prod.fst solved
  have outs := congrArg Prod.snd solved
  unfold equation processBlock at outs
  rw [found] at outs
  refine ⟨entries, ?_⟩
  rw [entries]
  exact outs

/-- The states of settled blocks solve the equations, where no block leads to the entry
block. -/
theorem Driver.Settles.equations {lowered : List LoweredInstr} {blocks : List BlockRange}
    {driver : Driver} (settles : driver.Settles lowered blocks) (empty : driver.worklist = [])
    (fresh : FreshEntry blocks) : Equations lowered blocks driver.blockIn driver.blockOut := by
  have sized := settles.1
  intro index block found
  have inside := (List.getElem?_eq_some_iff.mp found).1
  obtain ⟨entries, outs⟩ := settles.solved empty index block found
  have atIn : driver.blockIn[index]? = some (driver.entry index) := by
    rw [Driver.entry, List.getElem?_eq_getElem (by rw [sized.1]; omega)]
    rfl
  have atOut : driver.blockOut[index]? = some (driver.out index) := by
    rw [Driver.out, List.getElem?_eq_getElem (by rw [sized.2]; omega)]
    rfl
  refine ⟨driver.entry index, driver.out index, atIn, atOut, ?_, outs⟩
  rw [entries]
  unfold incoming
  by_cases first : index = 0
  · subst first
    have alone : ∀ out, predecessorOuts blocks out 0 = [] := by
      intro out
      unfold predecessorOuts
      rw [List.map_eq_nil_iff, List.filter_eq_nil_iff]
      intro entry member leads
      exact fresh entry.1 (List.fst_mem_of_mem_zipIdx member) (List.contains_iff_mem.mp leads)
    rw [alone, alone]
    rfl
  · rw [if_neg first, List.nil_append]
    rfl

/-- The loop stops for every graph; and when it converged and no visit left out a
successor of a changed block, the states it returns solve the data-flow equations of
every block, if no block leads to the entry block.

Proof: the number of visits bounds the run. Each visit keeps the blocks that are not
queued settled, and at the end no block is queued. -/
theorem analyze_stops_at_fixpoint (lowered : List LoweredInstr) (blocks : List BlockRange) :
    (∃ last, DriverStops lowered blocks last ∧ (analyze lowered blocks).blockIn = last.blockIn ∧
        (analyze lowered blocks).blockOut = last.blockOut ∧
        ((analyze lowered blocks).converged = true ↔ last.worklist = [])) ∧
      (KeepsChanges lowered blocks → FreshEntry blocks →
        (analyze lowered blocks).converged = true →
        Equations lowered blocks (analyze lowered blocks).blockIn
          (analyze lowered blocks).blockOut) := by
  obtain ⟨last, stops, sameIn, sameOut, empty⟩ :=
    Driver.loop_stops lowered blocks (visitBound blocks + 2) (Driver.initial lowered blocks) .start
      (Nat.le_add_right _ _)
  refine ⟨⟨last, stops, sameIn, sameOut, empty⟩, ?_⟩
  intro kept fresh converged
  have settles : last.Settles lowered blocks := by
    apply stops.1.invariant (fun driver => driver.Settles lowered blocks)
      (Driver.initial_settles lowered blocks)
    intro before after reached holds step
    exact holds.step (kept before reached) step
  have solved := settles.equations (empty.mp converged) fresh
  rw [← sameIn, ← sameOut] at solved
  exact solved

/-- A single move. -/
def oneMove : List LoweredInstr := [⟨"mov", .store, .b64, none, [.reg Gp.rax.full, .imm 5]⟩]

/-- The states returned for a single block solve its equations. -/
theorem oneMove_equations :
    Equations oneMove [⟨0, 1, []⟩] (analyze oneMove [⟨0, 1, []⟩]).blockIn
      (analyze oneMove [⟨0, 1, []⟩]).blockOut := by
  apply (analyze_stops_at_fixpoint oneMove [⟨0, 1, []⟩]).2
  · rintro driver _ ⟨index, rest, block, _, found, _, next, member, _⟩
    obtain rfl := List.mem_singleton.mp (List.mem_of_getElem? found)
    cases member
  · intro block member
    obtain rfl := List.mem_singleton.mp member
    simp
  · decide +kernel

/-- A loop between two blocks, entered at the one that stands later: the first copies the
register that the second sets. -/
def copyLoop : List LoweredInstr :=
  [⟨"jmp", .branch, .b64, none, [.imm 0x20]⟩,
    ⟨"mov", .store, .b64, none, [.reg Gp.rax.full, .reg Gp.rbx.full]⟩,
    ⟨"jmp", .branch, .b64, none, [.imm 0x20]⟩,
    ⟨"mov", .store, .b64, none, [.reg Gp.rbx.full, .imm 2]⟩,
    ⟨"jmp", .branch, .b64, none, [.imm 0x10]⟩]

/-- The blocks of the loop. -/
def copyLoopBlocks : List BlockRange := [⟨0, 1, [2]⟩, ⟨1, 3, [2]⟩, ⟨3, 5, [1]⟩]

/-- The driver converges with a block whose entry state is not the join of what flows into
it, although control reaches it and the entry block has no predecessor. -/
theorem copy_loop_left_stale :
    FreshEntry copyLoopBlocks ∧ (analyze copyLoop copyLoopBlocks).converged = true ∧
      Reaches (Flows copyLoopBlocks) 0 1 ∧
      ¬ EquationsAt copyLoop copyLoopBlocks (analyze copyLoop copyLoopBlocks).blockIn
        (analyze copyLoop copyLoopBlocks).blockOut 1 ⟨1, 3, [2]⟩ := by
  refine ⟨by unfold FreshEntry; decide, by decide +kernel, ?_, ?_⟩
  · have entered : Reaches (Flows copyLoopBlocks) 0 2 := .next .start ⟨⟨0, 1, [2]⟩, rfl, by simp⟩
    exact .next entered ⟨⟨3, 5, [1]⟩, rfl, by simp⟩
  · rintro ⟨inState, outState, atIn, _, same, _⟩
    have held : ((analyze copyLoop copyLoopBlocks).blockIn[1]?).map (fun state => state.regs .rax) =
        some (some ⟨.conflict, .b64⟩) := by decide +kernel
    have joined : (joinAll (incoming copyLoopBlocks
        (fun other => ((analyze copyLoop copyLoopBlocks).blockOut[other]?).getD .bottom) 1)).regs .rax =
        some ⟨.const 2, .b64⟩ := by decide +kernel
    rw [atIn, Option.map_some, same, joined] at held
    cases held

end Semasm.X86.Analysis
