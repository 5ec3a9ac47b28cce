import Semasm.X86.Abi.StackWalk

/-!
# Saved values

A nonvolatile register that a clean body writes as data is popped in its epilogue,
behind which only returns, other pops and arithmetic follow. A value that was pushed
and is popped from the same tracked delta is the pushed one when nothing wrote the
slot in between.
-/

namespace Semasm.X86.Abi

open Library Transitions

theorem mem_foldl_addOnce (cells out : List Gp) (cell : Gp) :
    cell ∈ cells.foldl addOnce out ↔ cell ∈ out ∨ cell ∈ cells := by
  induction cells generalizing out with
  | nil => simp
  | cons first rest inductionHypothesis =>
    rw [List.foldl_cons, inductionHypothesis, List.mem_cons]
    unfold addOnce
    split_ifs with listed
    · constructor
      · tauto
      · rintro (old | rfl | new)
        · exact Or.inl old
        · exact Or.inl listed
        · exact Or.inr new
    · rw [List.mem_append, List.mem_singleton]
      tauto

/-- An element of the last stretch that meets a condition has only such elements behind
it. -/
theorem behind_of_mem_takeWhile {α : Type} (accepts : α → Bool) (items : List α) (item : α)
    (member : item ∈ items.reverse.takeWhile accepts) :
    ∃ position : Nat, items[position]? = some item ∧
      ∀ (later : Nat) (other : α), position ≤ later → items[later]? = some other →
        accepts other = true := by
  induction items using List.reverseRecOn with
  | nil => simp at member
  | append_singleton init last inductionHypothesis =>
    rw [List.reverse_append, List.reverse_singleton, List.singleton_append] at member
    by_cases accepted : accepts last = true
    · rw [List.takeWhile_cons_of_pos accepted, List.mem_cons] at member
      rcases member with rfl | earlier
      · refine ⟨init.length, by simp, ?_⟩
        intro later other behind found
        obtain ⟨inside, _⟩ := List.getElem?_eq_some_iff.mp found
        rw [List.length_append, List.length_singleton] at inside
        obtain rfl : later = init.length := by omega
        rw [List.getElem?_concat_length] at found
        cases found
        exact accepted
      · obtain ⟨position, found, behind⟩ := inductionHypothesis earlier
        obtain ⟨inside, _⟩ := List.getElem?_eq_some_iff.mp found
        refine ⟨position, by rw [List.getElem?_append_left inside, found], ?_⟩
        intro later other after there
        by_cases short : later < init.length
        · rw [List.getElem?_append_left short] at there
          exact behind later other after there
        · obtain ⟨bounded, _⟩ := List.getElem?_eq_some_iff.mp there
          rw [List.length_append, List.length_singleton] at bounded
          obtain rfl : later = init.length := by omega
          rw [List.getElem?_concat_length] at there
          cases there
          exact accepted
    · rw [List.takeWhile_cons_of_neg accepted] at member
      cases member

/-- A register that the scan lists as restored is popped, and only instructions of an
epilogue follow. -/
theorem popped_of_restored (body : List LoweredInstr) (cell : Gp)
    (restored : cell ∈ epilogueRestored body) :
    ∃ (position : Nat) (instr : LoweredInstr), body[position]? = some instr ∧
      namedBy "pop" instr = some cell ∧
      ∀ (later : Nat) (other : LoweredInstr), position ≤ later → body[later]? = some other →
        inEpilogue other = true := by
  obtain ⟨instr, member, named⟩ := List.mem_filterMap.mp restored
  obtain ⟨position, found, behind⟩ := behind_of_mem_takeWhile inEpilogue body instr member
  exact ⟨position, instr, found, named, behind⟩

/-- A nonvolatile register that a clean body names outside `push` and `pop` is restored. -/
theorem Convention.Clean.restored {convention : Convention} {body : List LoweredInstr}
    (clean : convention.Clean body) (position : Nat) (instr : LoweredInstr)
    (found : body[position]? = some instr) (notPush : instr.mnemonic ≠ "push")
    (notPop : instr.mnemonic ≠ "pop") (operand : Operand) (listed : operand ∈ instr.operands)
    (cell : Gp) (named : operandGp operand = some cell)
    (nonvolatile : cell ∈ convention.rules.nonvolatile) (notStack : cell ≠ .rsp) :
    cell ∈ epilogueRestored body := by
  have written : cell ∈ writtenNonvolatile convention.rules.nonvolatile body := by
    unfold writtenNonvolatile
    rw [mem_foldl_addOnce]
    refine Or.inr (List.mem_filter.mpr ⟨List.mem_flatMap.mpr ⟨instr, ?_, ?_⟩, ?_⟩)
    · exact List.mem_filter.mpr ⟨List.mem_of_getElem? found, by simp [notPush, notPop]⟩
    · exact List.mem_filterMap.mpr ⟨operand, listed, named⟩
    · simp [nonvolatile, notStack]
  by_contra missing
  have free := fun finding member => clean.no_error finding
    (calleeSaved_findings convention body (List.mem_flatMap.mpr ⟨cell, written, member⟩))
  simp only [if_neg missing] at free
  exact free _ (List.mem_append_right _ (List.mem_singleton_self _)) rfl

/-- Where the entry value of a register is kept. -/
inductive Place where
  | register
  | slot (delta : Int64)

/-- An instruction writes no byte of a stack slot: it stores nothing there, the kernel
leaves it as it is, and a callee may not change it. -/
structure Spares (convention : Convention) (env : Environment) (state : State) (op : Op)
    (outcome : Outcome) (slot : Word) : Prop where
  stores : op ≠ .call → op ≠ .syscall → ∀ address, ByteMemory.Within slot 8 address →
    ¬ op.storesTo state outcome address
  calls : op = .call → ∀ address, ByteMemory.Within slot 8 address →
    ¬ convention.CalleeMayWrite (state.regs .rsp) address
  kernel : op = .syscall → ∀ address, ByteMemory.Within slot 8 address →
    env.returned.mem address = state.mem address

/-- A followed step of a body. -/
abbrev FollowedStep (convention : Convention) (body : List LoweredInstr)
    (envs : Nat → Environment) (entry : State) : Point → Point → Prop :=
  Under (FollowedAt body (entry.regs .rsp)) (BodyStep convention body envs)

/-- On the way from entry the entry value of a register has stayed in the register, or was
pushed to a stack slot that nothing wrote since, or was popped from there. -/
inductive Entrusted (convention : Convention) (body : List LoweredInstr)
    (envs : Nat → Environment) (entry : State) (cell : Gp) : Place → Point → Prop
  | start : Entrusted convention body envs entry cell .register ⟨0, entry⟩
  | kept (point after : Point) (instr : LoweredInstr) (op : Op)
      (earlier : Entrusted convention body envs entry cell .register point)
      (step : FollowedStep convention body envs entry point after)
      (found : body[point.position]? = some instr) (known : instr.op = some op)
      (untouched : op = .call ∨ ¬ op.changes instr.operands cell) :
      Entrusted convention body envs entry cell .register after
  | pushed (point after : Point) (instr : LoweredInstr)
      (earlier : Entrusted convention body envs entry cell .register point)
      (step : FollowedStep convention body envs entry point after)
      (found : body[point.position]? = some instr) (saves : namedBy "push" instr = some cell) :
      Entrusted convention body envs entry cell
        (.slot (convention.trackedDelta body after.position)) after
  | spared (delta : Int64) (point after : Point) (instr : LoweredInstr) (op : Op)
      (outcome : Outcome) (earlier : Entrusted convention body envs entry cell (.slot delta) point)
      (step : FollowedStep convention body envs entry point after)
      (found : body[point.position]? = some instr) (known : instr.op = some op)
      (executed : exec (envs point.position) instr point.state = some outcome)
      (spares : Spares convention (envs point.position) point.state op outcome
        (entry.regs .rsp - delta.toBitVec)) :
      Entrusted convention body envs entry cell (.slot delta) after
  | popped (point after : Point) (instr : LoweredInstr)
      (earlier : Entrusted convention body envs entry cell
        (.slot (convention.trackedDelta body point.position)) point)
      (step : FollowedStep convention body envs entry point after)
      (found : body[point.position]? = some instr) (restores : namedBy "pop" instr = some cell) :
      Entrusted convention body envs entry cell .register after

/-- The place holds the entry value of the register. -/
def Place.Holds (entry : State) (cell : Gp) (point : Point) : Place → Prop
  | .register => point.state.regs cell = entry.regs cell
  | .slot delta => load point.state.mem (entry.regs .rsp - delta.toBitVec) .b64 = entry.regs cell

/-- The operand by which an instruction of a stack mnemonic names a register. -/
theorem namedBy_shape (mnemonic : String) (instr : LoweredInstr) (cell : Gp)
    (named : namedBy mnemonic instr = some cell) :
    instr.mnemonic = mnemonic ∧ ∃ register rest, instr.operands = .reg register :: rest ∧
      register.storage = .gp cell := by
  unfold namedBy at named
  split_ifs at named with name
  refine ⟨by simpa using name, ?_⟩
  obtain ⟨operand, first, seen⟩ := Option.bind_eq_some_iff.mp named
  obtain ⟨rest, shape⟩ := List.head?_eq_some_iff.mp first
  cases operand with
  | reg register =>
    refine ⟨register, rest, shape, ?_⟩
    cases storage : register.storage <;> simp [operandGp, gpFromReg, storage] at seen
    rw [seen]
  | mem operand => cases seen
  | imm value => cases seen

/-- A register that names a cell is seen by the scans. -/
theorem operandGp_of_views (operand : Operand) (cell : Gp) (views : operand.views cell = true) :
    operandGp operand = some cell := by
  cases operand with
  | reg register =>
    have storage : register.storage = .gp cell := by simpa [Operand.views] using views
    simp [operandGp, gpFromReg, storage]
  | mem operand => cases views
  | imm value => cases views

/-- A register is entrusted on a followed run. -/
theorem reaches_of_entrusted (convention : Convention) (body : List LoweredInstr)
    (envs : Nat → Environment) (entry : State) (cell : Gp) (place : Place) (point : Point)
    (entrusted : Entrusted convention body envs entry cell place point) :
    Reaches (FollowedStep convention body envs entry) ⟨0, entry⟩ point := by
  induction entrusted with
  | start => exact .start
  | kept _ _ _ _ _ step _ _ _ inductionHypothesis => exact .next inductionHypothesis step
  | pushed _ _ _ _ step _ _ inductionHypothesis => exact .next inductionHypothesis step
  | spared _ _ _ _ _ _ _ step _ _ _ _ inductionHypothesis => exact .next inductionHypothesis step
  | popped _ _ _ _ step _ _ inductionHypothesis => exact .next inductionHypothesis step

/-- An instruction that is a call or leaves a preserved register alone keeps its value. -/
theorem kept_step (convention : Convention) (body : List LoweredInstr) (envs : Nat → Environment)
    (point after : Point) (step : BodyStep convention body envs point after)
    (instr : LoweredInstr) (op : Op) (found : body[point.position]? = some instr)
    (known : instr.op = some op) (cell : Gp) (preserved : cell ∈ convention.preserved)
    (untouched : op = .call ∨ ¬ op.changes instr.operands cell) :
    after.state.regs cell = point.state.regs cell := by
  obtain ⟨⟨other, outcome, there, executed, _, rfl⟩, honoured⟩ := step
  rw [found] at there
  cases there
  obtain ⟨same, alike, ran⟩ := op_of_exec _ _ _ _ executed
  rw [known] at alike
  cases alike
  rcases untouched with rfl | untouched
  · simp only
    rw [(call_result _ _ _ _ ran).1]
    exact (honoured instr found known).regs cell preserved
  · exact op.exec_regs _ _ _ outcome ran cell untouched

/-- A step that spares a slot keeps its bytes. -/
theorem spared_step (convention : Convention) (body : List LoweredInstr)
    (envs : Nat → Environment) (point after : Point)
    (step : BodyStep convention body envs point after) (instr : LoweredInstr) (op : Op)
    (outcome : Outcome) (found : body[point.position]? = some instr) (known : instr.op = some op)
    (executed : exec (envs point.position) instr point.state = some outcome) (slot : Word)
    (spares : Spares convention (envs point.position) point.state op outcome slot) :
    load after.state.mem slot .b64 = load point.state.mem slot .b64 := by
  obtain ⟨⟨other, result, there, alsoExecuted, _, rfl⟩, honoured⟩ := step
  rw [found] at there
  cases there
  rw [executed] at alsoExecuted
  cases alsoExecuted
  obtain ⟨same, alike, ran⟩ := op_of_exec _ _ _ _ executed
  rw [known] at alike
  cases alike
  apply load_congr
  intro address inside
  by_cases call : op = .call
  · subst call
    simp only
    rw [(call_result _ _ _ _ ran).2]
    exact (honoured instr found known).mem address (spares.calls rfl address inside)
  · by_cases kernel : op = .syscall
    · subst kernel
      have untouched := spares.kernel rfl address inside
      simp only
      rw [← untouched]
      exact congrFun (syscall_mem _ _ _ _ ran) address
    · exact op.exec_mem _ _ _ outcome ran address ⟨call, kernel⟩
        (spares.stores call kernel address inside)

/-- The slot behind a tracked delta is the top of the stack. -/
theorem slot_of_tracks (convention : Convention) (body : List LoweredInstr) (entry : Word)
    (point : Point) (tracks : Tracks convention body entry point) :
    entry - (convention.trackedDelta body point.position).toBitVec = point.state.regs .rsp := by
  rw [← tracks]
  bv_omega

/-- A followed push of a register pushes all of it. -/
theorem push_shape (entry : Word) (state : State) (register : Register) (rest : List Operand)
    (followed : Followed entry state .push (.reg register :: rest)) :
    rest = [] ∧ register.width = .b64 := by
  cases followed with
  | pushed src _ single width =>
    cases single
    exact ⟨rfl, width⟩
  | popped _ pop => cases pop
  | adjusted _ arithmetic => rcases arithmetic with add | sub <;> contradiction
  | framed move => cases move
  | called call => cases call
  | apart notPush => exact absurd rfl notPush

/-- A followed pop of a register fills it. -/
theorem pop_shape (entry : Word) (state : State) (register : Register) (rest : List Operand)
    (followed : Followed entry state .pop (.reg register :: rest)) :
    rest = [] ∧ register.width = .b64 := by
  cases followed with
  | pushed _ push => cases push
  | popped dst _ single width =>
    cases single
    exact ⟨rfl, Option.some.inj width⟩
  | adjusted _ arithmetic => rcases arithmetic with add | sub <;> contradiction
  | framed move => cases move
  | called call => cases call
  | apart _ notPop => exact absurd rfl notPop

/-- An entrusted value is where it is said to be.

Proof: by induction on the way from entry. A push leaves the value on top of the stack,
where the tracked delta points; a pop from the same delta takes it back. -/
theorem entrusted_holds (convention : Convention) (body : List LoweredInstr)
    (lower : LowerCase body) (envs : Nat → Environment) (entry : State) (cell : Gp)
    (preserved : cell ∈ convention.preserved) (place : Place)
    (point : Point) (entrusted : Entrusted convention body envs entry cell place point) :
    place.Holds entry cell point := by
  induction entrusted with
  | start => rfl
  | kept point after instr op _ step found known untouched inductionHypothesis =>
    exact (kept_step convention body envs point after step.2 instr op found known cell preserved
      untouched).trans inductionHypothesis
  | pushed point after instr earlier step found saves inductionHypothesis =>
    have reached := reaches_of_entrusted _ _ _ _ _ _ _ earlier
    have tracks := tracks_of_reaches convention body lower envs entry after (.next reached step)
    obtain ⟨name, register, rest, shape, storage⟩ := namedBy_shape "push" instr cell saves
    obtain ⟨followed, ⟨other, outcome, there, executed, _, rfl⟩, _⟩ := step
    rw [found] at there
    cases there
    obtain ⟨op, known, ran⟩ := op_of_exec _ _ _ _ executed
    have named := named_of_op body lower point.position instr found op known
    obtain rfl := named.push.mpr name
    have moves := followed instr .push found known
    rw [shape] at moves ran
    obtain ⟨rfl, wide⟩ := push_shape _ _ register rest moves
    have top := push_rsp _ _ (.reg register) outcome ran wide
    simp only [Place.Holds]
    rw [slot_of_tracks _ _ _ _ tracks, top,
      push_word _ _ register cell outcome ran storage wide]
    exact inductionHypothesis
  | spared delta point after instr op outcome _ step found known executed spares
      inductionHypothesis =>
    exact (spared_step convention body envs point after step.2 instr op outcome found known
      executed _ spares).trans inductionHypothesis
  | popped point after instr earlier step found restores inductionHypothesis =>
    have reached := reaches_of_entrusted _ _ _ _ _ _ _ earlier
    have tracks := tracks_of_reaches convention body lower envs entry point reached
    obtain ⟨name, register, rest, shape, storage⟩ := namedBy_shape "pop" instr cell restores
    obtain ⟨followed, ⟨other, outcome, there, executed, _, rfl⟩, _⟩ := step
    rw [found] at there
    cases there
    obtain ⟨op, known, ran⟩ := op_of_exec _ _ _ _ executed
    have named := named_of_op body lower point.position instr found op known
    obtain rfl := named.pop.mpr name
    have moves := followed instr .pop found known
    rw [shape] at moves ran
    obtain ⟨rfl, wide⟩ := pop_shape _ _ register rest moves
    simp only [Place.Holds] at inductionHypothesis ⊢
    rw [slot_of_tracks _ _ _ _ tracks] at inductionHypothesis
    exact (pop_word _ _ register cell outcome ran storage wide).trans inductionHypothesis

end Semasm.X86.Abi
