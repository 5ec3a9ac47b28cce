import Semasm.X86.Abi.SavedValues

/-!
# Callee-saved registers

The callee-saved scan asks that a register is pushed early and popped late, but not
from which slot the pop takes its value, not what happened to the slot, and not what
arithmetic at the ends of the body does to the register. Where the last pop of every
nonvolatile register takes the entry value back, a clean body preserves them all.
-/

namespace Semasm.X86.Abi

open Library Transitions

/-- A later instruction pops the register. -/
def PoppedLater (body : List LoweredInstr) (position : Nat) (cell : Gp) : Prop :=
  ∃ (later : Nat) (instr : LoweredInstr), position < later ∧ body[later]? = some instr ∧
    namedBy "pop" instr = some cell

/-- A step is one the walk follows; a nonvolatile register popped for the last time takes
its value from the slot to which the entry value was entrusted; and no nonvolatile
register is added to or subtracted from after its last pop. -/
structure Careful (convention : Convention) (body : List LoweredInstr)
    (envs : Nat → Environment) (entry : State) (point : Point) : Prop where
  followed : FollowedAt body (entry.regs .rsp) point
  restored : ∀ instr cell, body[point.position]? = some instr → namedBy "pop" instr = some cell →
    cell ∈ convention.rules.nonvolatile → PoppedLater body point.position cell ∨
      Entrusted convention body envs entry cell
        (.slot (convention.trackedDelta body point.position)) point
  arithmetic : ∀ instr cell, body[point.position]? = some instr →
    instr.mnemonic = "add" ∨ instr.mnemonic = "sub" →
    instr.operands.head?.bind operandGp = some cell → cell ∈ convention.rules.nonvolatile →
    cell ≠ .rsp → PoppedLater body point.position cell

/-- Every nonvolatile register that is not popped from here on has its entry value. -/
def Settled (convention : Convention) (body : List LoweredInstr) (entry : State) (point : Point) :
    Prop :=
  ∀ cell ∈ convention.rules.nonvolatile, cell ≠ .rsp →
    (∀ (later : Nat) (instr : LoweredInstr), point.position ≤ later → body[later]? = some instr →
      namedBy "pop" instr ≠ some cell) → point.state.regs cell = entry.regs cell

/-- No system call answers in a nonvolatile register. -/
theorem nonvolatile_kernel (convention : Convention) (cell : Gp)
    (nonvolatile : cell ∈ convention.rules.nonvolatile) :
    cell ≠ .rax ∧ cell ≠ .rcx ∧ cell ≠ .r11 := by
  have table : ∀ convention : Convention, ∀ other ∈ convention.rules.nonvolatile,
      other ≠ .rax ∧ other ≠ .rcx ∧ other ≠ .r11 := by
    rintro (_ | _) <;> decide
  exact table convention cell nonvolatile

/-- The destination of an operation is its first operand. -/
theorem destination_head (op : Op) (operands : List Operand) (dst : Operand)
    (named : op.destination operands = some dst) : operands.head? = some dst := by
  unfold Op.destination at named
  split at named <;> cases named <;> rfl

/-- An instruction of the epilogue whose destination is a register pops it or adds to it or
subtracts from it. -/
theorem epilogue_destination (instr : LoweredInstr) (op : Op) (named : Named instr.mnemonic op)
    (epilogue : inEpilogue instr = true) (cell : Gp)
    (views : (op.destination instr.operands).any (Operand.views cell) = true) :
    namedBy "pop" instr = some cell ∨
      ((instr.mnemonic = "add" ∨ instr.mnemonic = "sub") ∧
        instr.operands.head?.bind operandGp = some cell) := by
  obtain ⟨dst, destination, seen⟩ := (Option.any_eq_true _ _).mp views
  have first : instr.operands.head?.bind operandGp = some cell := by
    rw [destination_head op _ dst destination]
    exact operandGp_of_views dst cell seen
  unfold inEpilogue at epilogue
  simp only [Bool.or_eq_true, beq_iff_eq, Bool.and_eq_true] at epilogue
  rcases epilogue with ((((ret | retn) | retf) | add) | sub) | ⟨pop, _⟩
  · rw [named.ret.mpr (Or.inl ret)] at destination
    cases destination
  · rw [named.ret.mpr (Or.inr (Or.inl retn))] at destination
    cases destination
  · rw [named.ret.mpr (Or.inr (Or.inr retf))] at destination
    cases destination
  · exact Or.inr ⟨Or.inl add, first⟩
  · exact Or.inr ⟨Or.inr sub, first⟩
  · left
    rw [namedBy, pop, if_pos (beq_self_eq_true _)]
    exact first

/-- In a clean body an instruction that changes a nonvolatile register is a call or pops
the register, or the register is popped later.

Proof: a register written as data is popped in the epilogue. An instruction behind that
pop is arithmetic on the register, and then a later pop follows. -/
theorem changes_before_pop (convention : Convention) (body : List LoweredInstr)
    (lower : LowerCase body) (clean : convention.Clean body) (envs : Nat → Environment)
    (entry : State) (point : Point) (careful : Careful convention body envs entry point)
    (instr : LoweredInstr) (op : Op) (found : body[point.position]? = some instr)
    (known : instr.op = some op) (cell : Gp) (nonvolatile : cell ∈ convention.rules.nonvolatile)
    (notStack : cell ≠ .rsp) (changes : op.changes instr.operands cell) :
    op = .call ∨ namedBy "pop" instr = some cell ∨ PoppedLater body point.position cell := by
  have named := named_of_op body lower point.position instr found op known
  rcases changes with views | ⟨stack, _⟩ | call | ⟨_, answered⟩
  · obtain ⟨dst, destination, seen⟩ := (Option.any_eq_true _ _).mp views
    have head := destination_head op _ dst destination
    have listed : dst ∈ instr.operands := List.mem_of_mem_head? head
    have gp := operandGp_of_views dst cell seen
    by_cases pop : instr.mnemonic = "pop"
    · refine Or.inr (Or.inl ?_)
      rw [namedBy, pop, if_pos (beq_self_eq_true _), head]
      exact gp
    · have notPush : instr.mnemonic ≠ "push" := by
        intro push
        rw [named.push.mpr push] at destination
        cases destination
      obtain ⟨position, popping, there, pops, behind⟩ := popped_of_restored body cell
        (clean.restored _ instr found notPush pop dst listed cell gp nonvolatile notStack)
      by_cases before : point.position < position
      · exact Or.inr (Or.inr ⟨position, popping, before, there, pops⟩)
      · have epilogue := behind point.position instr (by omega) found
        rcases epilogue_destination instr op named epilogue cell views with again | ⟨adds, first⟩
        · exact Or.inr (Or.inl again)
        · exact Or.inr (Or.inr (careful.arithmetic instr cell found adds first nonvolatile notStack))
  · exact absurd stack notStack
  · exact Or.inl call
  · obtain ⟨rax, rcx, r11⟩ := nonvolatile_kernel convention cell nonvolatile
    rcases answered with same | same | same <;> contradiction

/-- A careful step keeps settled registers settled. -/
theorem settled_step (convention : Convention) (body : List LoweredInstr) (lower : LowerCase body)
    (clean : convention.Clean body) (envs : Nat → Environment) (entry : State)
    (point after : Point) (careful : Careful convention body envs entry point)
    (step : BodyStep convention body envs point after)
    (settled : Settled convention body entry point) : Settled convention body entry after := by
  intro cell nonvolatile notStack unpopped
  obtain ⟨⟨instr, outcome, found, executed, goesOn, rfl⟩, honoured⟩ := step
  have step : BodyStep convention body envs point
      ⟨point.position + 1, outcome.result point.state⟩ :=
    ⟨⟨instr, outcome, found, executed, goesOn, rfl⟩, honoured⟩
  have preserved : cell ∈ convention.preserved := List.mem_cons_of_mem _ nonvolatile
  have notLater : ¬ PoppedLater body point.position cell := by
    rintro ⟨later, other, after, there, pops⟩
    exact unpopped later other after there pops
  obtain ⟨op, known, ran⟩ := op_of_exec _ _ _ _ executed
  by_cases pops : namedBy "pop" instr = some cell
  · rcases careful.restored instr cell found pops nonvolatile with later | entrusted
    · exact absurd later notLater
    · exact entrusted_holds convention body lower envs entry cell preserved .register _
        (.popped point _ instr entrusted ⟨careful.followed, step⟩ found pops)
  · have before : point.state.regs cell = entry.regs cell := by
      apply settled cell nonvolatile notStack
      intro later other here there popping
      rcases Nat.eq_or_lt_of_le here with rfl | behind
      · rw [found] at there
        cases there
        exact pops popping
      · exact unpopped later other behind there popping
    rw [← before]
    apply kept_step convention body envs point _ step instr op found known cell preserved
    by_cases changes : op.changes instr.operands cell
    · rcases changes_before_pop convention body lower clean envs entry point careful instr op found
        known cell nonvolatile notStack changes with call | again | later
      · exact Or.inl call
      · exact absurd again pops
      · exact absurd later notLater
    · exact Or.inr changes

/-- While every step is careful, a clean body reaches its final return with every
nonvolatile register as at entry.

Proof: settled registers stay settled along the run, and at the last instruction nothing
is popped any more. The stack pointer is the walk's. -/
theorem callee_saved_along_runs (convention : Convention) (body : List LoweredInstr)
    (lower : LowerCase body) (clean : convention.Clean body) (envs : Nat → Environment)
    (entry : State) (point : Point)
    (reached : Reaches (Under (Careful convention body envs entry) (BodyStep convention body envs))
      ⟨0, entry⟩ point)
    (last : point.position + 1 = body.length) (instr : LoweredInstr)
    (found : body[point.position]? = some instr) (returns : instr.op = some .ret) :
    ∀ cell ∈ convention.preserved, point.state.regs cell = entry.regs cell := by
  have followed : Reaches (FollowedStep convention body envs entry) ⟨0, entry⟩ point :=
    reached.mono (fun _ _ ⟨careful, step⟩ => ⟨careful.followed, step⟩)
  have stack := tracks_returned convention body lower clean envs entry point followed instr found
    returns
  have settled : Settled convention body entry point := by
    refine reached.invariant (Settled convention body entry) (fun _ _ _ _ => rfl) ?_
    rintro state after _ holds ⟨careful, step⟩
    exact settled_step convention body lower clean envs entry state after careful step holds
  intro cell preserved
  by_cases notStack : cell = .rsp
  · rw [notStack]
    exact stack
  · rcases List.mem_cons.mp preserved with same | nonvolatile
    · exact absurd same notStack
    · apply settled cell nonvolatile notStack
      intro later other here there pops
      obtain ⟨inside, _⟩ := List.getElem?_eq_some_iff.mp there
      obtain rfl : later = point.position := by omega
      rw [found] at there
      cases there
      have named := named_of_op body lower _ instr found _ returns
      have pop := (namedBy_shape "pop" instr cell pops).1
      cases named.pop.mpr pop

/-- A followed instruction that is no pop, addition or subtraction is careful. -/
theorem careful_plain (convention : Convention) (body : List LoweredInstr)
    (envs : Nat → Environment) (entry : State) (point : Point) (instr : LoweredInstr)
    (found : body[point.position]? = some instr)
    (followed : FollowedAt body (entry.regs .rsp) point)
    (plain : instr.mnemonic ∉ ["pop", "add", "sub"]) :
    Careful convention body envs entry point := by
  simp only [List.mem_cons, List.not_mem_nil, or_false, not_or] at plain
  refine ⟨followed, ?_, ?_⟩
  · intro other cell there pops
    rw [found] at there
    cases there
    exact absurd (namedBy_shape "pop" instr cell pops).1 plain.1
  · intro other cell there adds
    rw [found] at there
    cases there
    rcases adds with add | sub
    · exact absurd add plain.2.1
    · exact absurd sub plain.2.2

/-- A body that saves `rbx`, writes it and restores it. -/
def savedBody : List LoweredInstr :=
  [⟨"push", .store, .b64, none, [.reg Gp.rbx.full]⟩,
    ⟨"mov", .store, .b64, none, [.reg Gp.rbx.full, .reg Gp.rdi.full]⟩,
    ⟨"pop", .store, .b64, none, [.reg Gp.rbx.full]⟩, ⟨"ret", .ret, .b64, none, []⟩]

/-- The registers are preserved. -/
theorem savedBody_preserves :
    Convention.sysV.Clean savedBody ∧ ∃ state : State, ∀ cell ∈ Convention.sysV.preserved,
      state.regs cell = calledEntry.regs cell := by
  let envs : Nat → Environment := fun _ => Environment.clear
  obtain ⟨pushed, ranPush, goesOnPush⟩ : ∃ outcome, exec Environment.clear
      ⟨"push", .store, .b64, none, [.reg Gp.rbx.full]⟩ calledEntry = some outcome ∧
      outcome.next = .goOn := ⟨_, rfl, rfl⟩
  obtain ⟨moved, ranMove, goesOnMove, stores⟩ : ∃ outcome, exec Environment.clear
      ⟨"mov", .store, .b64, none, [.reg Gp.rbx.full, .reg Gp.rdi.full]⟩
      (pushed.result calledEntry) = some outcome ∧ outcome.next = .goOn ∧
      outcome.accesses = [] := ⟨_, rfl, rfl, rfl⟩
  obtain ⟨popped, ranPop, goesOnPop⟩ : ∃ outcome, exec Environment.clear
      ⟨"pop", .store, .b64, none, [.reg Gp.rbx.full]⟩
      (moved.result (pushed.result calledEntry)) = some outcome ∧ outcome.next = .goOn :=
    ⟨_, rfl, rfl⟩
  have first := bodyStep_of_exec .sysV savedBody envs 0 calledEntry _ pushed rfl ranPush
    goesOnPush (by decide)
  have second := bodyStep_of_exec .sysV savedBody envs 1 _ _ moved rfl ranMove goesOnMove
    (by decide)
  have third := bodyStep_of_exec .sysV savedBody envs 2 _ _ popped rfl ranPop goesOnPop
    (by decide)
  have followedPush : FollowedAt savedBody (calledEntry.regs .rsp) ⟨0, calledEntry⟩ := by
    intro instr op found known
    cases found
    exact .pushed _ (Option.some.inj known).symm rfl rfl
  have followedMove : FollowedAt savedBody (calledEntry.regs .rsp) ⟨1, pushed.result calledEntry⟩ := by
    intro instr op found known
    cases found
    obtain rfl := Option.some.inj known
    exact .apart (by decide) (by decide) (by decide) (by decide)
  have followedPop : FollowedAt savedBody (calledEntry.regs .rsp)
      ⟨2, moved.result (pushed.result calledEntry)⟩ := by
    intro instr op found known
    cases found
    exact .popped _ (Option.some.inj known).symm rfl rfl rfl
  have saved : Entrusted .sysV savedBody envs calledEntry .rbx (.slot 8)
      ⟨1, pushed.result calledEntry⟩ :=
    .pushed _ _ _ .start ⟨followedPush, first⟩ rfl rfl
  have spared : Entrusted .sysV savedBody envs calledEntry .rbx (.slot 8)
      ⟨2, moved.result (pushed.result calledEntry)⟩ := by
    refine .spared 8 _ _ _ .move moved saved ⟨followedMove, second⟩ rfl rfl ranMove ⟨?_, ?_, ?_⟩
    · rintro _ _ address _ (⟨access, member, _⟩ | ⟨push, _⟩)
      · rw [stores] at member
        cases member
      · cases push
    · intro call
      cases call
    · intro kernel
      cases kernel
  have carefulPush := careful_plain .sysV savedBody envs calledEntry _ _ rfl followedPush (by decide)
  have carefulMove := careful_plain .sysV savedBody envs calledEntry _ _ rfl followedMove (by decide)
  have carefulPop : Careful .sysV savedBody envs calledEntry
      ⟨2, moved.result (pushed.result calledEntry)⟩ := by
    refine ⟨followedPop, ?_, ?_⟩
    · intro instr cell found pops _
      cases found
      cases pops
      exact Or.inr spared
    · intro instr cell found adds
      cases found
      rcases adds with add | sub <;> contradiction
  exact ⟨by decide, _, callee_saved_along_runs .sysV savedBody (by decide) (by decide) envs
    calledEntry ⟨3, _⟩ (.next (.next (.next .start ⟨carefulPush, first⟩) ⟨carefulMove, second⟩)
      ⟨carefulPop, third⟩) rfl _ rfl rfl⟩

/-- A body that restores two registers in the order in which it saved them. -/
def swapped : List LoweredInstr :=
  [⟨"push", .store, .b64, none, [.reg Gp.rbx.full]⟩,
    ⟨"push", .store, .b64, none, [.reg Gp.rbp.full]⟩,
    ⟨"mov", .store, .b64, none, [.reg Gp.rbx.full, .reg Gp.rbp.full]⟩,
    ⟨"pop", .store, .b64, none, [.reg Gp.rbx.full]⟩,
    ⟨"pop", .store, .b64, none, [.reg Gp.rbp.full]⟩, ⟨"ret", .ret, .b64, none, []⟩]

/-- The order of the restores goes unseen: both checkers judge the body clean, and it
returns with `rbx` and `rbp` exchanged. -/
theorem swapped_returns_exchanged :
    (∀ instr ∈ swapped, instr.Supported) ∧
      ∀ convention : Convention, convention.Clean swapped ∧ ∃ entry point,
        Reaches (BodyStep convention swapped (fun _ => Environment.clear)) ⟨0, entry⟩ point ∧
        point.position + 1 = swapped.length ∧
        (swapped[point.position]?).bind LoweredInstr.op = some .ret ∧
        .rbx ∈ convention.preserved ∧ point.state.regs .rbx ≠ entry.regs .rbx := by
  refine ⟨by decide, fun convention => ⟨by cases convention <;> decide,
    { calledEntry with regs := Function.update calledEntry.regs .rbx 1 }, ?_⟩⟩
  have ran : (runBody swapped (fun _ => Environment.clear)
      { calledEntry with regs := Function.update calledEntry.regs .rbx 1 } 5).map
      (fun state => state.regs .rbx) = some 0 := by decide +kernel
  obtain ⟨after, run, exchanged⟩ := Option.map_eq_some_iff.mp ran
  refine ⟨⟨5, after⟩, reaches_of_runBody convention swapped _ _ after 5 run, rfl, rfl, ?_, ?_⟩
  · cases convention <;> decide
  · simp only [exchanged]
    decide

end Semasm.X86.Abi
