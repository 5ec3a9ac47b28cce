import Semasm.Cli.EffectTruth
import Semasm.X86.ProgramRuns

/-!
# Index facts in programs with branches

The collector walks the text once, whatever the branches are. Its constants and
upper bounds are followed here along every run of the program. Falling through
keeps them true as in straight-line code; a transfer keeps them only where the
facts at the target were already known at its source.
-/

namespace Semasm.Cli

open Contract Decode Library X86

namespace Facts

/-- The facts about index values alone, without those about pointers. -/
def indexOnly (facts : Facts) : Facts :=
  { facts with affinity := fun _ => none, stackSlots := fun _ => none }

theorem indexOnly_settle (facts : Facts) : facts.settle.indexOnly = facts.indexOnly.settle := rfl

/-- Replacing the facts of a cell. -/
theorem indexOnly_withCell (facts : Facts) (cell : Gp) (affinity : Option String)
    (const upper : Option UInt64) :
    (facts.withCell cell affinity const upper).indexOnly =
      facts.indexOnly.withCell cell none const upper := by
  simp [indexOnly, withCell]

theorem indexOnly_forget (facts : Facts) (cell : Gp) :
    (facts.forget cell).indexOnly = facts.indexOnly.forget cell :=
  facts.indexOnly_withCell cell none none none

theorem indexOnly_assigned (facts : Facts) (cell : Gp) (src : Option Operand) :
    (facts.assigned cell src).indexOnly = facts.indexOnly.assigned cell src := by
  unfold assigned
  split
  · split
    · rw [indexOnly_withCell]
      rfl
    · exact facts.indexOnly_forget cell
  · exact facts.indexOnly_withCell cell _ _ _
  · rw [indexOnly_withCell]
    simp [indexOnly]
  · exact facts.indexOnly_forget cell

theorem indexOnly_moved (facts : Facts) (operands : List Operand) :
    (facts.moved operands).indexOnly = facts.indexOnly.moved operands := by
  unfold moved
  split
  · split
    · simp [indexOnly]
    · rfl
  · split
    · exact facts.indexOnly_assigned _ _
    · rfl
  · rfl

/-- Without affinities `lea` gives no pointer. -/
theorem indexOnly_leaArm (facts : Facts) (operands : List Operand) :
    (facts.leaArm operands).indexOnly = facts.indexOnly.leaArm operands := by
  have unknown : ∀ mem, classifyAddr mem facts.indexOnly none = .unknown ∨
      classifyAddr mem facts.indexOnly none = .stackFrame := by
    intro mem
    unfold classifyAddr
    split
    · exact Or.inr rfl
    · split
      · exact Or.inl rfl
      · split <;> exact Or.inl rfl
  unfold leaArm
  split
  · split
    · rw [indexOnly_withCell]
      congr 1
      split
      next mem same =>
        rcases unknown mem with none | frame
        · rw [none]
        · rw [frame]
      next => rfl
    · rfl
  · rfl

theorem indexOnly_xorArm (facts : Facts) (operands : List Operand) :
    (facts.xorArm operands).indexOnly = facts.indexOnly.xorArm operands := by
  unfold xorArm
  split
  · split
    · split_ifs
      · exact facts.indexOnly_withCell _ _ _ _
      · exact facts.indexOnly_forget _
    · rfl
  · split
    · exact facts.indexOnly_forget _
    · rfl
  · rfl

end Facts

/-- The index facts are updated without those about pointers. -/
theorem updateAffinity_indexOnly (facts : Facts) (instr : LoweredInstr) :
    (updateAffinity facts instr).indexOnly = updateAffinity facts.indexOnly instr := by
  unfold updateAffinity
  split
  · rfl
  · unfold Facts.guarded
    cases pending : facts.pendingCmp with
    | none => simp [Facts.indexOnly, pending]
    | some found => simp [Facts.indexOnly, pending]
  · rfl
  · rw [Facts.indexOnly_moved, Facts.indexOnly_settle]
  · rw [Facts.indexOnly_leaArm, Facts.indexOnly_settle]
  · rw [Facts.indexOnly_xorArm, Facts.indexOnly_settle]
  · split
    · rw [Facts.indexOnly_forget, Facts.indexOnly_settle]
    · rfl
  · split
    · rw [Facts.indexOnly_withCell, Facts.indexOnly_settle]
      rfl
    · rfl
  · rfl

/-- Every fact about an index at the target is one at the source, and no
comparison is pending there. -/
structure Facts.Carried (source target : Facts) : Prop where
  consts : ∀ cell value, target.consts cell = some value → source.consts cell = some value
  uppers : ∀ cell bound, target.uppers cell = some bound → source.uppers cell = some bound
  pending : target.pendingCmp = none

/-- The step from a moment keeps the index facts: falling through takes none of
the branches that leave a wrong fact, and a transfer goes where no new fact
waits. A call into the program and a return move the stack pointer besides. -/
def Steady (lowered : List LoweredInstr) (physical : List PhysicalInstruction)
    (contract : CheckedContract) (abi : AbiConvention) (envs : Nat → Environment) (point : RunPoint) :
    Prop :=
  (∀ after, Falls lowered envs point after → ∀ instr op, lowered[point.position]? = some instr →
    instr.op = some op → ¬ Misjudges (factsAt lowered contract abi point.position).indexOnly
      (instrBefore lowered point.position) (envs point.clock) point.state instr op) ∧
  ∀ after, Transfer lowered physical envs point after →
    (factsAt lowered contract abi point.position).Carried
        (factsAt lowered contract abi after.position) ∧
      (Jumps lowered point.position ∨
        ¬ (factsAt lowered contract abi after.position).indexOnly.Knows .rsp)

/-- The index facts of a recorded address hold of the index register, apart from
a bound that a recogniser of loops has attached. -/
def IndexTrue (regs : Gp → Word) (instr : LoweredInstr) (bounded : Option Induction) :
    AccessAddr → Prop
  | .indexed _ _ _ const upper =>
    ∃ mem index, .mem mem ∈ instr.operands ∧ mem.index = some index ∧
      (∀ value, const = some value →
        ∃ cell, index.storage = .gp cell ∧ (regs cell).toNat = value.toNat) ∧
      ∀ bound, upper = some bound → ∃ cell, index.storage = .gp cell ∧
        (bounded ≠ some (cell, bound) → (regs cell).toNat < bound.toNat)
  | _ => True

/-- The index facts stay true when control falls through. -/
theorem indexFacts_falls (lowered : List LoweredInstr) (contract : CheckedContract)
    (abi : AbiConvention) (envs : Nat → Environment) (entry : String → Word) (point after : RunPoint)
    (holds : (factsAt lowered contract abi point.position).indexOnly.Hold entry
      (instrBefore lowered point.position) point.state)
    (falls : Falls lowered envs point after)
    (judged : ∀ instr op, lowered[point.position]? = some instr → instr.op = some op →
      ¬ Misjudges (factsAt lowered contract abi point.position).indexOnly
        (instrBefore lowered point.position) (envs point.clock) point.state instr op) :
    (factsAt lowered contract abi after.position).indexOnly.Hold entry
      (instrBefore lowered after.position) after.state := by
  obtain ⟨instr, outcome, found, executed, through⟩ := falls
  obtain ⟨op, known, ran⟩ := op_of_exec _ _ _ _ executed
  have kept := facts_preserved _ _ _ _ instr op outcome holds (judged instr op found known) ran known
    through
  rw [factsAt_succ lowered contract abi point.position instr found, updateAffinity_indexOnly]
  simpa only [instrBefore, found] using kept

/-- The index facts stay true where a transfer carries them. -/
theorem indexFacts_transfer (lowered : List LoweredInstr) (physical : List PhysicalInstruction)
    (contract : CheckedContract) (abi : AbiConvention) (envs : Nat → Environment)
    (entry : String → Word) (point after : RunPoint)
    (holds : (factsAt lowered contract abi point.position).indexOnly.Hold entry
      (instrBefore lowered point.position) point.state)
    (transfer : Transfer lowered physical envs point after)
    (carried : (factsAt lowered contract abi point.position).Carried
      (factsAt lowered contract abi after.position))
    (stack : Jumps lowered point.position ∨
      ¬ (factsAt lowered contract abi after.position).indexOnly.Knows .rsp) :
    (factsAt lowered contract abi after.position).indexOnly.Hold entry
      (instrBefore lowered after.position) after.state := by
  constructor
  · intro cell
    by_cases kept : after.state.regs cell = point.state.regs cell
    · rw [kept]
      constructor
      · intro param known
        cases known
      · intro value known
        exact (holds.cells cell).const value (carried.consts cell value known)
      · intro bound known
        exact (holds.cells cell).upper bound (carried.uppers cell bound known)
    · apply cellTrue_of_unknown
      rcases stack with jumps | unknown
      · rw [(transfer.jump_state jumps).1] at kept
        exact absurd rfl kept
      · have moved : cell = .rsp := by
          by_contra other
          exact kept (transfer.regs_kept cell other)
        rw [moved]
        exact unknown
  · intro slot param known
    cases known
  · intro cell bound pending
    have none : (factsAt lowered contract abi after.position).pendingCmp = some (cell, bound) :=
      pending
    rw [carried.pending] at none
    cases none

/-- The index facts stay true along a run. -/
theorem indexFacts_hold (lowered : List LoweredInstr) (physical : List PhysicalInstruction)
    (contract : CheckedContract) (abi : AbiConvention) (envs : Nat → Environment)
    (entry : String → Word) (start : State) (point : RunPoint)
    (reached : Transitions.Reaches
      (Transitions.Under (Steady lowered physical contract abi envs)
        (ProgramStep lowered physical envs)) ⟨0, 0, start⟩ point) :
    (factsAt lowered contract abi point.position).indexOnly.Hold entry
      (instrBefore lowered point.position) point.state := by
  induction reached with
  | start =>
    constructor
    · intro cell
      apply cellTrue_of_unknown
      simp [Facts.Knows, Facts.indexOnly, factsAt, entryFacts]
    · intro slot param known
      cases known
    · intro cell bound pending
      cases pending
  | next reached taken inductionHypothesis =>
    obtain ⟨steady, falls | transfer⟩ := taken
    · exact indexFacts_falls lowered contract abi envs entry _ _ inductionHypothesis falls
        (steady.1 _ falls)
    · obtain ⟨carried, stack⟩ := steady.2 _ transfer
      exact indexFacts_transfer lowered physical contract abi envs entry _ _ inductionHypothesis
        transfer carried stack

/-- Where the index facts of a recorded address come from. -/
theorem indexFacts_source (facts : Facts) (bounded : Option Induction) (index : Register)
    (const upper : Option UInt64) (recorded : indexFacts facts bounded index = (const, upper)) :
    (∀ value, const = some value →
        ∃ cell, index.storage = .gp cell ∧ facts.consts cell = some value) ∧
      ∀ bound, upper = some bound → ∃ cell, index.storage = .gp cell ∧
        (bounded = some (cell, bound) ∨ facts.uppers cell = some bound) := by
  unfold indexFacts at recorded
  split at recorded
  next cell storage =>
    split at recorded
    next other limit filtered =>
      obtain ⟨attached, agrees⟩ := Option.filter_eq_some_iff.mp filtered
      have target : other = cell := by simpa using agrees
      subst target
      cases recorded
      refine ⟨nofun, ?_⟩
      intro bound same
      cases same
      exact ⟨other, storage, Or.inl attached⟩
    next =>
      split at recorded
      next known held =>
        cases recorded
        refine ⟨?_, nofun⟩
        intro value same
        cases same
        exact ⟨cell, storage, held⟩
      next =>
        cases recorded
        refine ⟨nofun, ?_⟩
        intro bound known
        exact ⟨cell, storage, Or.inr known⟩
  next =>
    cases recorded
    exact ⟨nofun, nofun⟩

/-- Every recorded constant and every recorded bound that no recogniser of loops
has attached holds of the full index register, in every run whose steps are all
steady.

Proof: the facts about indexes do not depend on those about pointers, so they are
kept by falling through as in straight-line code. At a transfer every fact of the
target was one of the source. -/
theorem index_facts_along_runs (lowered : List LoweredInstr) (physical : List PhysicalInstruction)
    (contract : CheckedContract) (abi : AbiConvention) (envs : Nat → Environment) (start : State)
    (point : RunPoint)
    (reached : Transitions.Reaches
      (Transitions.Under (Steady lowered physical contract abi envs)
        (ProgramStep lowered physical envs)) ⟨0, 0, start⟩ point)
    (instr : LoweredInstr) (found : lowered[point.position]? = some instr)
    (effect : ObservedMemoryAccess)
    (recorded : effect ∈ effectsAt lowered physical contract abi point.position) :
    IndexTrue point.state.regs instr (inductionAt lowered physical point.position) effect.addr := by
  have holds := indexFacts_hold lowered physical contract abi envs (fun _ => 0) start point reached
  simp only [effectsAt, found] at recorded
  obtain ⟨mem, position, member, _, _, same⟩ := mem_recordAccesses _ _ _ _ recorded
  have operand : .mem mem ∈ instr.operands :=
    List.mem_of_getElem? (List.mem_zipIdx_iff_getElem?.mp member)
  rw [same]
  cases classified : classifyAddr mem (factsAt lowered contract abi point.position)
      (inductionAt lowered physical point.position) with
  | affine param offset => trivial
  | stackFrame => trivial
  | unknown => trivial
  | indexed param scale disp const upper =>
    obtain ⟨base, cell, index, _, _, indexed, _, _, _, facts⟩ :=
      classifyAddr_indexed mem _ _ param scale disp const upper classified
    obtain ⟨constant, bounded⟩ := indexFacts_source _ _ index const upper facts
    refine ⟨mem, index, operand, indexed, ?_, ?_⟩
    · intro value known
      obtain ⟨view, storage, held⟩ := constant value known
      exact ⟨view, storage, (holds.cells view).const value held⟩
    · intro bound known
      obtain ⟨view, storage, attached | held⟩ := bounded bound known
      · exact ⟨view, storage, fun unattached => absurd attached unattached⟩
      · exact ⟨view, storage, fun _ => (holds.cells view).upper bound held⟩

/-- A loop without an end that counts up from zero. -/
def countsForever : List LoweredInstr :=
  [⟨"xor", .binary, .b32, none, [.reg Gp.rcx.low32, .reg Gp.rcx.low32]⟩,
   ⟨"mov", .store, .b8, none, [.reg Gp.rax.low8, .mem ⟨some Gp.rdi.full, some Gp.rcx.full, 1, 0, .b8⟩]⟩,
   ⟨"inc", .binary, .b64, none, [.reg Gp.rcx.full]⟩,
   ⟨"jmp", .branch, .b64, none, [.imm 2]⟩]

def countsForeverPhysical : List PhysicalInstruction :=
  [⟨0, [0x31, 0xC9], "xor", ["ecx", "ecx"], [], [], [], false⟩,
   ⟨2, [0x8A, 0x04, 0x0F], "mov", ["al", "byte ptr [rdi + rcx]"], [], [], [], false⟩,
   ⟨5, [0x48, 0xFF, 0xC1], "inc", ["rcx"], [], [], [], false⟩,
   ⟨8, [0xEB, 0xF8], "jmp", ["2"], [], [], [], false⟩]

example : countsForeverPhysical.map lower = countsForever.map .lowered := by decide

/-- The read is recorded with the index zero, and its second execution has the
index one. -/
theorem constant_index_is_stale_in_loop :
    effectsAt countsForever countsForeverPhysical readOneByte .sysV 1 =
        [⟨.load, 1, .indexed "p" 1 0 (some 0) none, "mov", 0⟩] ∧
      ∃ point, Transitions.Reaches
          (ProgramStep countsForever countsForeverPhysical (fun _ => Environment.clear))
          ⟨0, 0, State.clear⟩ point ∧
        point.position = 1 ∧ (point.state.regs .rcx).toNat = 1 ∧
        ∃ instr outcome, countsForever[1]? = some instr ∧
          exec Environment.clear instr point.state = some outcome := by
  have counted := RunPoint.reaches_of_fallMany countsForever countsForeverPhysical
    (fun _ => Environment.clear) 3 ⟨0, 0, State.clear⟩ _ rfl
  have back := counted.next (Or.inr (.jump _ _ _ _ _ 1 rfl rfl (Or.inl rfl) rfl (by decide) rfl rfl
    ⟨_, rfl, by decide⟩))
  exact ⟨by decide, _, back, rfl, by decide, _, _, rfl, rfl⟩

/-- Clearing the index keeps the facts. -/
theorem countsForever_steady :
    Steady countsForever countsForeverPhysical readOneByte .sysV (fun _ => Environment.clear)
      ⟨0, 0, State.clear⟩ := by
  constructor
  · intro after _ instr op found known wrong
    cases found
    have xor : op = .alu .xor := by
      have named : LoweredInstr.op
          ⟨"xor", .binary, .b32, none, [.reg Gp.rcx.low32, .reg Gp.rcx.low32]⟩ =
          some (.alu .xor) := by decide
      rw [named] at known
      exact (Option.some.inj known).symm
    subst xor
    cases wrong with
    | narrowZero dst src rest cell _ shape target origin narrow =>
      cases shape
      exact narrow (Or.inr rfl)
    | _ => simp_all [factsAt, entryFacts, Facts.indexOnly, armOf, Facts.Keeps]
  · intro after transfer
    obtain ⟨instr, op, found, known, transfers⟩ := transfer.source
    cases found
    cases known
    cases transfers

/-- The first read has the index that is recorded for it. -/
theorem countsForever_index_true : ∃ point : RunPoint, point.position = 1 ∧
    IndexTrue point.state.regs
      ⟨"mov", .store, .b8, none,
        [.reg Gp.rax.low8, .mem ⟨some Gp.rdi.full, some Gp.rcx.full, 1, 0, .b8⟩]⟩ none
      (.indexed "p" 1 0 (some 0) none) := by
  obtain ⟨point, fell⟩ : ∃ point, (RunPoint.mk 0 0 State.clear).fall countsForever
      (fun _ => Environment.clear) = some point := ⟨_, rfl⟩
  have here : point.position = 1 := by
    cases fell
    rfl
  have index := index_facts_along_runs countsForever countsForeverPhysical readOneByte .sysV
    (fun _ => Environment.clear) State.clear point
    (.next .start ⟨countsForever_steady, Or.inl (RunPoint.falls_of_fall _ _ _ _ fell)⟩) _
    (by rw [here]; rfl) ⟨.load, 1, .indexed "p" 1 0 (some 0) none, "mov", 0⟩ (by rw [here]; decide)
  have unbounded : inductionAt countsForever countsForeverPhysical 1 = none := by decide
  rw [here, unbounded] at index
  exact ⟨point, here, index⟩

end Semasm.Cli
