import Semasm.X86.Abi.Calls
import Semasm.X86.Kinds

/-!
# The stack walk and the stack pointer

The walk knows 64-bit pushes and pops, immediate adjustments of the stack pointer
and one frame restore, which it takes to lead back to where the frame began. While
a body moves its stack pointer in these ways only, the tracked delta is the way the
stack pointer has gone since entry.
-/

namespace Semasm.X86.Abi

open Library Transitions

/-- The walk knows what an instruction does to the stack pointer. -/
inductive Followed (entry : Word) (state : State) (op : Op) (operands : List Operand) : Prop
  /-- A 64-bit push. -/
  | pushed (src : Operand) (push : op = .push) (shape : operands = [src])
      (wide : src.width?.getD .b64 = .b64)
  /-- A 64-bit pop that does not go to the stack pointer. -/
  | popped (dst : Operand) (pop : op = .pop) (shape : operands = [dst])
      (wide : dst.width? = some .b64) (other : dst.views .rsp = false)
  /-- An immediate added to the whole stack pointer or taken from it. -/
  | adjusted (count : Int64) (arithmetic : op = .alu .add ∨ op = .alu .sub)
      (shape : operands = [.reg Gp.rsp.full, .imm count])
  /-- A frame that began with `push rbp` at entry is restored. -/
  | framed (move : op = .move) (shape : operands = [.reg Gp.rsp.full, .reg Gp.rbp.full])
      (frame : state.regs .rbp = entry - 8)
  /-- A call. -/
  | called (call : op = .call)
  /-- The stack pointer is not written. -/
  | apart (notPush : op ≠ .push) (notPop : op ≠ .pop) (notCall : op ≠ .call)
      (unnamed : (op.destination operands).any (Operand.views .rsp) = false)

/-- The instruction at a point is one that the walk follows. -/
def FollowedAt (body : List LoweredInstr) (entry : Word) (point : Point) : Prop :=
  ∀ instr op, body[point.position]? = some instr → instr.op = some op →
    Followed entry point.state op instr.operands

/-- The tracked delta is the way of the stack pointer since entry. -/
def Tracks (convention : Convention) (body : List LoweredInstr) (entry : Word) (point : Point) :
    Prop :=
  entry - point.state.regs .rsp = (convention.trackedDelta body point.position).toBitVec

/-- An instruction away from the stack pointer leaves the tracked delta alone. -/
theorem rspChange_apart (instr : LoweredInstr) (op : Op) (named : Named instr.mnemonic op)
    (notPush : op ≠ .push) (notPop : op ≠ .pop)
    (unnamed : (op.destination instr.operands).any (Operand.views .rsp) = false) :
    isMovRspFromRbp instr = false ∧ rspChange instr = 0 := by
  constructor
  · by_contra restores
    obtain ⟨rfl, dst, src, rest, shape, target, _⟩ :=
      move_of_isMovRspFromRbp instr op named (by simpa using restores)
    simp [shape, Op.destination, Operand.views, target] at unnamed
  · unfold rspChange
    rw [if_neg (fun name => notPush (named.push.mpr name)),
      if_neg (fun name => notPop (named.pop.mpr name))]
    by_cases arithmetic : instr.mnemonic = "sub" ∨ instr.mnemonic = "add"
    · rw [if_pos arithmetic]
      split
      next register count rest shape =>
        have other : isRsp register = false := by
          rcases arithmetic with name | name
          · rw [named.sub.mpr name, shape] at unnamed
            simpa [Op.destination, Operand.views, isRsp] using unnamed
          · rw [named.add.mpr name, shape] at unnamed
            simpa [Op.destination, Operand.views, isRsp] using unnamed
        simp [other]
      next => rfl
    · exact if_neg arithmetic

/-- The stack pointer after an instruction that does not write it. -/
theorem rsp_apart (env : Environment) (state : State) (op : Op) (operands : List Operand)
    (outcome : Outcome) (executed : op.exec env state operands = some outcome)
    (notPush : op ≠ .push) (notPop : op ≠ .pop) (notCall : op ≠ .call)
    (unnamed : (op.destination operands).any (Operand.views .rsp) = false) :
    (outcome.result state).regs .rsp = state.regs .rsp := by
  apply op.exec_regs _ _ _ _ executed
  rintro (named | ⟨_, push | pop⟩ | call | ⟨_, rax | rcx | r11⟩)
  · rw [unnamed] at named
    cases named
  · exact notPush push
  · exact notPop pop
  · exact notCall call
  · cases rax
  · cases rcx
  · cases r11

/-- A followed instruction moves the stack pointer as the walk says. -/
theorem tracks_step (convention : Convention) (body : List LoweredInstr) (lower : LowerCase body)
    (envs : Nat → Environment) (entry : Word) (point after : Point)
    (followed : FollowedAt body entry point) (step : BodyStep convention body envs point after)
    (tracks : Tracks convention body entry point) : Tracks convention body entry after := by
  obtain ⟨⟨instr, outcome, found, executed, _, rfl⟩, honoured⟩ := step
  obtain ⟨op, known, ran⟩ := op_of_exec _ _ _ _ executed
  have named := named_of_op body lower point.position instr found op known
  unfold Tracks at *
  rw [trackedDelta_succ convention body point.position instr found]
  generalize convention.trackedDelta body point.position = delta at tracks ⊢
  cases followed instr op found known with
  | pushed src push shape wide =>
    subst push
    rw [shape] at ran
    have moved := push_rsp _ _ src outcome ran wide
    have change : isMovRspFromRbp instr = false ∧ rspChange instr = 8 := by
      simp [isMovRspFromRbp, rspChange, named.push.mp rfl]
    rw [change.1, change.2, if_neg Bool.false_ne_true, Int64.toBitVec_add, ← tracks, moved,
      show (8 : Int64).toBitVec = 8 from rfl]
    bv_omega
  | popped dst pop shape wide other =>
    subst pop
    rw [shape] at ran
    have moved := pop_rsp _ _ dst outcome ran wide other
    have change : isMovRspFromRbp instr = false ∧ rspChange instr = -8 := by
      simp [isMovRspFromRbp, rspChange, named.pop.mp rfl]
    rw [change.1, change.2, if_neg Bool.false_ne_true, Int64.toBitVec_add, ← tracks, moved,
      show (-8 : Int64).toBitVec = -8 from rfl]
    bv_omega
  | adjusted count arithmetic shape =>
    rw [shape] at ran
    have same : BitVec.ofInt 64 count.toInt = count.toBitVec := BitVec.ofInt_toInt
    rcases arithmetic with rfl | rfl
    · have moved := adjust_rsp _ _ .add count outcome ran
      have change : isMovRspFromRbp instr = false ∧ rspChange instr = -count := by
        simp [isMovRspFromRbp, rspChange, named.add.mp rfl, shape, isRsp, Gp.full]
      rw [change.1, change.2, if_neg Bool.false_ne_true, Int64.toBitVec_add, Int64.toBitVec_neg,
        ← tracks, moved, same]
      simp only [Alu.apply]
      bv_omega
    · have moved := adjust_rsp _ _ .sub count outcome ran
      have change : isMovRspFromRbp instr = false ∧ rspChange instr = count := by
        simp [isMovRspFromRbp, rspChange, named.sub.mp rfl, shape, isRsp, Gp.full]
      rw [change.1, change.2, if_neg Bool.false_ne_true, Int64.toBitVec_add, ← tracks, moved, same]
      simp only [Alu.apply]
      bv_omega
  | framed move shape frame =>
    subst move
    rw [shape] at ran
    have moved := copy_word _ _ .rsp .rbp outcome ran
    have restores : isMovRspFromRbp instr = true := by
      rcases named.move.mp rfl with name | name <;>
        simp [isMovRspFromRbp, name, shape, isRsp, Gp.full]
    rw [if_pos restores, moved, frame, show (8 : Int64).toBitVec = 8 from rfl]
    bv_omega
  | called call =>
    subst call
    have change : isMovRspFromRbp instr = false ∧ rspChange instr = 0 := by
      simp [isMovRspFromRbp, rspChange, named.call.mp rfl]
    have kept := (honoured instr found known).regs .rsp List.mem_cons_self
    rw [change.1, change.2, if_neg Bool.false_ne_true, Int64.add_zero, ← tracks,
      (call_result _ _ _ _ ran).1, kept]
  | apart notPush notPop notCall unnamed =>
    obtain ⟨notMove, change⟩ := rspChange_apart instr op named notPush notPop unnamed
    rw [notMove, change, if_neg Bool.false_ne_true, Int64.add_zero, ← tracks,
      rsp_apart _ _ op _ outcome ran notPush notPop notCall unnamed]

/-- What the walk says of a point of a run: the tracked delta is the way of the stack
pointer, and in a clean body a return finds the stack pointer of entry, a call finds it
aligned when the caller called aligned, and a Microsoft x64 call finds the home space
inside the frame. -/
structure WalkRight (convention : Convention) (body : List LoweredInstr) (entry : Word)
    (point : Point) : Prop where
  tracked : Tracks convention body entry point
  returned : convention.Clean body → ∀ instr, body[point.position]? = some instr →
    instr.op = some .ret → point.state.regs .rsp = entry
  aligned : convention.Clean body → ∀ instr, body[point.position]? = some instr →
    instr.op = some .call → entry.toNat % 16 = 8 → (point.state.regs .rsp).toNat % 16 = 0
  reserved : convention.Clean body → convention = .win64 → ∀ instr,
    body[point.position]? = some instr → instr.op = some .call →
      32 ≤ (entry - point.state.regs .rsp).toInt

/-- An aligned delta is 8 modulo 16. -/
theorem toInt_of_aligned (delta : Int64) (aligned : (StackState.of delta).isAligned = true) :
    delta.toInt % 16 = 8 := by
  simp only [StackState.isAligned, StackState.of, entryRspMod, stackAlign, beq_iff_eq] at aligned
  have divides : ∀ value : Int64, value % 16 = 0 → value.toInt % 16 = 0 := by
    intro value zero
    have cut := congrArg Int64.toInt zero
    rw [Int64.toInt_mod] at cut
    exact Int.emod_eq_zero_of_dvd (Int.dvd_of_tmod_eq_zero cut)
  have inner := divides _ aligned
  have small := Int.tmod_lt_of_pos (8 + delta).toInt (show (0 : Int) < 16 by decide)
  have large := Int.lt_tmod_of_pos (8 + delta).toInt (show (0 : Int) < 16 by decide)
  have sum := Int64.toInt_add ((8 + delta) % 16) 16
  rw [Int64.toInt_mod] at sum
  have cut := Int.tmod_add_mul_tdiv (8 + delta).toInt 16
  have outer := Int64.toInt_add 8 delta
  simp only [show (16 : Int64).toInt = 16 from rfl, show (8 : Int64).toInt = 8 from rfl] at *
  have bounded : ((8 + delta).toInt.tmod 16 + 16).bmod (2 ^ 64) =
      (8 + delta).toInt.tmod 16 + 16 := by
    apply Int.bmod_eq_of_le <;> omega
  rw [bounded] at sum
  rw [Int.bmod_def] at outer
  split at outer <;> omega

/-- A stack pointer that is an aligned delta away from entry is aligned. -/
theorem aligned_of_tracks (entry rsp : Word) (delta : Int64) (tracks : entry - rsp = delta.toBitVec)
    (aligned : (StackState.of delta).isAligned = true) (called : entry.toNat % 16 = 8) :
    rsp.toNat % 16 = 0 := by
  have eight := toInt_of_aligned delta aligned
  rw [← Int64.toInt_toBitVec, ← tracks, BitVec.toInt_eq_toNat_cond, BitVec.toNat_sub] at eight
  have bound := rsp.isLt
  split at eight <;> omega

/-- A run of followed instructions is tracked. -/
theorem tracks_of_reaches (convention : Convention) (body : List LoweredInstr)
    (lower : LowerCase body) (envs : Nat → Environment) (entry : State) (point : Point)
    (reached : Reaches (Under (FollowedAt body (entry.regs .rsp)) (BodyStep convention body envs))
      ⟨0, entry⟩ point) : Tracks convention body (entry.regs .rsp) point := by
  refine reached.invariant (Tracks convention body (entry.regs .rsp)) ?_ ?_
  · simp [Tracks, trackedDelta_zero]
  · rintro state after _ tracks ⟨followed, step⟩
    exact tracks_step convention body lower envs _ state after followed step tracks

/-- A return of a clean body finds the stack pointer of entry. -/
theorem tracks_returned (convention : Convention) (body : List LoweredInstr)
    (lower : LowerCase body) (clean : convention.Clean body) (envs : Nat → Environment)
    (entry : State) (point : Point)
    (reached : Reaches (Under (FollowedAt body (entry.regs .rsp)) (BodyStep convention body envs))
      ⟨0, entry⟩ point) (instr : LoweredInstr) (found : body[point.position]? = some instr)
    (returns : instr.op = some .ret) : point.state.regs .rsp = entry.regs .rsp := by
  have tracks := tracks_of_reaches convention body lower envs entry point reached
  have named := named_of_op body lower _ instr found _ returns
  have balanced := clean.ret point.position instr found (named.ret.mp rfl)
  rw [Tracks, balanced, show (0 : Int64).toBitVec = 0 from rfl] at tracks
  bv_omega

/-- While every instruction is one that the walk follows, what the walk says is right.

Proof: the tracked delta is an invariant of the run. A clean verdict gives the delta
at a return and at a call, and with it the stack pointer. -/
theorem stack_walk_along_runs (convention : Convention) (body : List LoweredInstr)
    (lower : LowerCase body) (envs : Nat → Environment) (entry : State) (point : Point)
    (reached : Reaches (Under (FollowedAt body (entry.regs .rsp)) (BodyStep convention body envs))
      ⟨0, entry⟩ point) : WalkRight convention body (entry.regs .rsp) point := by
  have tracks := tracks_of_reaches convention body lower envs entry point reached
  refine ⟨tracks, ?_, ?_, ?_⟩
  · intro clean
    exact tracks_returned convention body lower clean envs entry point reached
  · intro clean instr found calls called
    have named := named_of_op body lower _ instr found _ calls
    have checked := clean.call point.position instr found (named.call.mp rfl)
    exact aligned_of_tracks _ _ _ tracks checked.1 called
  · rintro clean rfl instr found calls
    have named := named_of_op body lower _ instr found _ calls
    have checked := (clean.call point.position instr found (named.call.mp rfl)).2 32 rfl
    rw [tracks, Int64.toInt_toBitVec]
    rw [Int64.lt_iff_toInt_lt, not_lt] at checked
    exact checked

/-- A body that reserves home space for a call. -/
def homeCall : List LoweredInstr :=
  [⟨"sub", .binary, .b64, none, [.reg Gp.rsp.full, .imm 40]⟩,
    ⟨"call", .call, .b64, none, [.imm 4096]⟩,
    ⟨"add", .binary, .b64, none, [.reg Gp.rsp.full, .imm 40]⟩, ⟨"ret", .ret, .b64, none, []⟩]

/-- The entry state of a function called with an aligned stack. -/
def calledEntry : State := { State.clear with regs := fun cell => if cell = .rsp then 8 else 0 }

/-- The walk is right at the call. -/
theorem homeCall_walk_right :
    Convention.win64.Clean homeCall ∧ ∃ state,
      WalkRight .win64 homeCall (calledEntry.regs .rsp) ⟨1, state⟩ := by
  obtain ⟨outcome, executed, goesOn⟩ : ∃ outcome, exec Environment.clear
      ⟨"sub", .binary, .b64, none, [.reg Gp.rsp.full, .imm 40]⟩ calledEntry = some outcome ∧
      outcome.next = .goOn := ⟨_, rfl, rfl⟩
  have step := bodyStep_of_exec .win64 homeCall (fun _ => Environment.clear) 0 calledEntry _
    outcome rfl executed goesOn (by decide)
  have followed : FollowedAt homeCall (calledEntry.regs .rsp) ⟨0, calledEntry⟩ := by
    intro instr op found known
    cases found
    exact .adjusted 40 (Or.inr (Option.some.inj known).symm) rfl
  exact ⟨by decide, _, stack_walk_along_runs .win64 homeCall (by decide)
    (fun _ => Environment.clear) calledEntry _ (.next .start ⟨followed, step⟩)⟩

/-- A body that pushes two bytes and pops eight. -/
def halfPush : List LoweredInstr :=
  [⟨"push", .store, .b16, none, [.reg Gp.rax.low16]⟩,
    ⟨"pop", .store, .b64, none, [.reg Gp.rax.full]⟩, ⟨"ret", .ret, .b64, none, []⟩]

/-- The width of a push goes unseen: both checkers judge the body clean, and it returns
with another stack pointer. -/
theorem halfPush_returns_elsewhere :
    (∀ instr ∈ halfPush, instr.Supported) ∧
      ∀ convention : Convention, convention.Clean halfPush ∧ ∃ point,
        Reaches (BodyStep convention halfPush (fun _ => Environment.clear)) ⟨0, calledEntry⟩ point ∧
        (halfPush[point.position]?).bind LoweredInstr.op = some .ret ∧
        calledEntry.regs .rsp - point.state.regs .rsp ≠
          (convention.trackedDelta halfPush point.position).toBitVec ∧
        point.state.regs .rsp ≠ calledEntry.regs .rsp := by
  refine ⟨by decide, fun convention => ⟨by cases convention <;> decide, ?_⟩⟩
  have ran : (runBody halfPush (fun _ => Environment.clear) calledEntry 2).map
      (fun state => state.regs .rsp) = some 14 := by decide +kernel
  obtain ⟨after, run, moved⟩ := Option.map_eq_some_iff.mp ran
  refine ⟨⟨2, after⟩, reaches_of_runBody convention halfPush _ _ after 2 run, rfl, ?_, ?_⟩
  · simp only [moved]
    cases convention <;> decide
  · simp only [moved]
    decide

end Semasm.X86.Abi
