import Semasm.Machine.AbiVerdict
import Semasm.Riscv.Abi
import Semasm.Riscv.Machine

/-!
# The LP64 stack walk and the stack pointer

The walk takes accesses through the stack pointer to move it by their displacement, and
knows no jump but by the name lowering gives it, which is that of a call for every `jal`
and `jalr`. While the instructions of a run move the stack pointer as their lowered forms
show, the tracked delta is the way it has gone since entry.
-/

namespace Semasm.Riscv

open Library Displacement Machine Machine.Abi StraightLine Transitions

/-- How lowering spells the jumps: a jump with a link register is a call. -/
def Spelled (decoded mnemonic : String) : Prop :=
  (mnemonic = "call" ↔ decoded ∈ ["jal", "jalr", "call"]) ∧ (mnemonic = "ret" ↔ decoded = "ret") ∧
    mnemonic ≠ "jalr"

instance (decoded mnemonic : String) : Decidable (Spelled decoded mnemonic) :=
  inferInstanceAs (Decidable (_ ∧ _))

/-- A lowered instruction with the mnemonic it was decoded with, up to a suffix. -/
structure Instr where
  lowered : LoweredInstr
  decoded : String
  spelled : Spelled decoded lowered.mnemonic

/-- What is classified by its name. -/
theorem kinds_spelled (base : String) (kind : X86.OpKind) (known : classify base = some kind) :
    (kind = .call ↔ base ∈ ["jal", "jalr"]) ∧ (kind = .ret ↔ base = "ret") ∧ base ≠ "call" := by
  have table : ∀ entry ∈ mnemonicKinds, ∀ name ∈ entry.1,
      (entry.2 = .call ↔ name ∈ ["jal", "jalr"]) ∧ (entry.2 = .ret ↔ name = "ret") ∧
        name ≠ "call" := by
    decide +kernel
  obtain ⟨entry, found, rfl⟩ := Option.map_eq_some_iff.mp known
  have member : base ∈ entry.1 := by simpa using List.find?_some found
  exact table entry (List.mem_of_find?_eq_some found) base member

/-- Lowering spells the jumps this way. -/
theorem spelled_of_lower (physical : Decode.PhysicalInstruction) (instr : LoweredInstr)
    (lowered : lower physical = .lowered instr) :
    Spelled (splitMnemonic physical.mnemonic).1 instr.mnemonic := by
  unfold lower at lowered
  generalize splitMnemonic physical.mnemonic = parts at lowered ⊢
  obtain ⟨base, suffix⟩ := parts
  dsimp only at lowered ⊢
  generalize (if Text.endsWith base "w" = true ∨ Text.startsWith base "w" = true then Width.b32
    else .b64) = width at lowered
  cases known : classify base with
  | none =>
    rw [known] at lowered
    cases lowered
  | some kind =>
    obtain ⟨calls, returns, notCall⟩ := kinds_spelled base kind known
    rw [known] at lowered
    dsimp only at lowered
    split_ifs at lowered with access jumps
    · cases lowered
      have notJump : ¬ base ∈ ["jal", "jalr"] ∧ base ≠ "ret" := by
        rw [← calls, Ne, ← returns]
        rcases access.1 with rfl | rfl <;> decide
      simp_all [Spelled]
    · cases lowered
      rcases jumps with rfl | rfl <;> simp_all [Spelled, defaultMnemonic]
    · cases lowered
      simp_all [Spelled]

/-- A mnemonic that is not supported is none of a jump with a link register. -/
theorem spelled_of_unsupported (physical : Decode.PhysicalInstruction) (mnemonic : String)
    (unsupported : lower physical = .unsupported mnemonic) : Spelled mnemonic mnemonic := by
  have apart : mnemonic ≠ "jal" ∧ mnemonic ≠ "jalr" := by
    unfold lower at unsupported
    generalize cut : splitMnemonic physical.mnemonic = parts at unsupported
    obtain ⟨base, suffix⟩ := parts
    dsimp only at unsupported
    cases known : classify base with
    | none =>
      rw [known] at unsupported
      cases unsupported
      constructor
      · intro name
        rw [name, show splitMnemonic "jal" = ("jal", "") by decide +kernel] at cut
        cases cut
        exact absurd known (by decide +kernel)
      · intro name
        rw [name, show splitMnemonic "jalr" = ("jalr", "") by decide +kernel] at cut
        cases cut
        exact absurd known (by decide +kernel)
    | some kind =>
      rw [known] at unsupported
      cases unsupported
  simp [Spelled, apart]

/-- A decoded instruction as `lower_keep_all` lowers it. -/
def Instr.ofPhysical (physical : Decode.PhysicalInstruction) : Instr :=
  match lowered : lower physical with
  | .lowered instr =>
    ⟨instr, (splitMnemonic physical.mnemonic).1, spelled_of_lower physical instr lowered⟩
  | .unsupported mnemonic =>
    ⟨⟨mnemonic, .unknown, .b64, none, []⟩, mnemonic,
      spelled_of_unsupported physical mnemonic lowered⟩

theorem lowered_ofPhysical (body : List Decode.PhysicalInstruction) :
    (body.map Instr.ofPhysical).map Instr.lowered = lowerKeepAll body := by
  rw [List.map_map, lowerKeepAll]
  apply List.map_congr_left
  intro physical _
  simp only [Function.comp_apply, Instr.ofPhysical]
  split <;> simp_all

namespace Instr

/-- The register that a jump links into. `jal` and `jalr` without one link into the return
address. -/
def link (instr : Instr) : Option Gpr :=
  if instr.decoded = "call" ∨ instr.decoded = "c.jalr" then some .ra
  else if instr.decoded = "jal" then
    match instr.lowered.operands with
    | .reg target :: _ => some target.storage
    | _ => some .ra
  else if instr.decoded = "jalr" then
    match instr.lowered.operands with
    | .reg target :: _ :: _ => some target.storage
    | _ => some .ra
  else none

/-- The instruction links into a register. -/
def Calls (instr : Instr) : Prop := ∃ cell, instr.link = some cell ∧ cell ≠ .zero

/-- The instruction is `ret`, or `jalr` with destination zero through the return address. -/
def Returns (instr : Instr) : Prop :=
  instr.decoded = "ret" ∨
    (instr.decoded = "jalr" ∧ instr.link = some .zero ∧
      match instr.lowered.operands with
      | _ :: .mem memory :: _ => memory.base.map Register.storage = some .ra
      | _ :: .reg source :: _ => source.storage = .ra
      | _ => False)

/-- What the walk takes for a call. -/
theorem isCall_iff (instr : Instr) :
    (Abi.step instr.lowered).isCall = true ↔ instr.lowered.mnemonic = "call" := by
  simp [Abi.step, instr.spelled.2.2]

/-- What the walk takes for a return. -/
theorem isRet_iff (instr : Instr) :
    (Abi.step instr.lowered).isRet = true ↔ instr.lowered.mnemonic = "ret" := by
  simp [Abi.step, instr.spelled.2.2]

/-- The walk takes the instruction for what it is. -/
def Taken (instr : Instr) : Prop :=
  ((Abi.step instr.lowered).isCall = true ↔ instr.Calls) ∧
    ((Abi.step instr.lowered).isRet = true ↔ instr.Returns)

/-- A jump is taken for what it is exactly when it is no `jal` or `jalr` with destination
zero and not compressed. -/
theorem taken_iff (instr : Instr) :
    instr.Taken ↔ instr.link ≠ some .zero ∧ instr.decoded ≠ "c.jalr" := by
  obtain ⟨lowered, decoded, spelled⟩ := instr
  obtain ⟨calls, returns, notJalr⟩ := spelled
  have isCall : (Abi.step lowered).isCall = true ↔ decoded ∈ ["jal", "jalr", "call"] := by
    simp [Abi.step, notJalr, calls]
  have isRet : (Abi.step lowered).isRet = true ↔ decoded = "ret" := by
    simp [Abi.step, notJalr, returns]
  unfold Taken
  rw [isCall, isRet]
  constructor
  · rintro ⟨call, ret⟩
    constructor
    · intro zero
      have jump : decoded ∈ ["jal", "jalr", "call"] := by
        by_contra other
        simp only [List.mem_cons, List.not_mem_nil, or_false, not_or] at other
        simp only [link, other] at zero
        split_ifs at zero <;> simp_all
      obtain ⟨cell, linked, nonzero⟩ := call.mp jump
      rw [zero] at linked
      exact nonzero (Option.some.inj linked).symm
    · rintro rfl
      have links : Calls ⟨lowered, "c.jalr", calls, returns, notJalr⟩ := ⟨.ra, rfl, by decide⟩
      have jump := call.mpr links
      simp at jump
  · rintro ⟨linked, plain⟩
    constructor
    · constructor
      · intro jump
        simp only [List.mem_cons, List.not_mem_nil, or_false] at jump
        unfold Calls
        cases target : link ⟨lowered, decoded, calls, returns, notJalr⟩ with
        | none =>
          exfalso
          rcases jump with rfl | rfl | rfl
          all_goals
            simp only [link] at target
            split_ifs at target <;> first | (split at target <;> cases target) | simp_all
        | some cell =>
          refine ⟨cell, rfl, ?_⟩
          rintro rfl
          exact linked target
      · rintro ⟨cell, target, _⟩
        by_contra other
        simp only [List.mem_cons, List.not_mem_nil, or_false, not_or] at other plain
        simp [link, other, plain] at target
    · constructor
      · exact Or.inl
      · rintro (ret | ⟨_, zero, _⟩)
        · exact ret
        · exact absurd zero linked

end Instr

/-- A compressed addition of an immediate, which lowering keeps by its name. -/
def compressed (instr : LoweredInstr) (state : State) : Option State :=
  if instr.mnemonic = "c.addi" ∨ instr.mnemonic = "c.addi16sp" then
    match instr.operands with
    | [.reg target, .imm count] =>
      some (state.set target.storage (state.cell target.storage + count.toBitVec))
    | [.imm count] =>
      if instr.mnemonic = "c.addi16sp" then some (state.set .sp (state.cell .sp + count.toBitVec))
      else none
    | _ => none
  else none

/-- Execute an instruction, also a compressed addition. -/
def Instr.run (env : Environment State) (instr : Instr) (state : State) : Option (Outcome State) :=
  match compressed instr.lowered state with
  | some after => some ⟨[], after, .goOn⟩
  | none => exec env instr.lowered state

/-- An instruction hands over to the next one. A jump that links nowhere does not, and a
callee gives the stack pointer back. -/
def StackRuns (envs : Nat → Environment State) (position : Nat) (instr : Instr)
    (state after : State) : Prop :=
  (∃ outcome, instr.run (envs position) state = some outcome ∧ outcome.next = .goOn ∧
    outcome.after = after) ∧
  instr.link ≠ some .zero ∧ (instr.Calls → after.cell .sp = state.cell .sp)

/-- The displacement of a memory operand that is based on the stack pointer. -/
def stackDisp (instr : LoweredInstr) : Int64 :=
  match Abi.memOperand instr with
  | some memory => if memory.base.any Abi.isSp then memory.disp else 0
  | none => 0

/-- The displacement of a doubleword or word access through the stack pointer, of a load
only where it is positive. -/
def shownDisp (instr : LoweredInstr) : Int64 :=
  if instr.mnemonic ∈ ["sd", "sw", "sdsp", "swsp"] then stackDisp instr
  else if instr.mnemonic ∈ ["ld", "lw"] then
    if stackDisp instr > 0 then stackDisp instr else 0
  else 0

/-- The immediate that an addition of the stack pointer to itself adds. -/
def addedToSp (instr : LoweredInstr) : Option Int64 :=
  if instr.mnemonic ∈ ["addi", "add", "c.addi", "c.addi16sp"] then
    match instr.operands with
    | [.reg target, .imm count] => if Abi.isSp target then some count else none
    | .reg target :: .reg source :: .imm count :: _ =>
      if Abi.isSp target && Abi.isSp source then some count else none
    | _ => none
  else none

/-- A store moves the tracked delta by its displacement, upwards or downwards. -/
theorem storeChange_eq (instr : LoweredInstr) : Abi.storeChange instr = -stackDisp instr := by
  unfold Abi.storeChange stackDisp
  cases Abi.memOperand instr with
  | none => rfl
  | some memory =>
    dsimp only
    by_cases stack : memory.base.any Abi.isSp = true
    · rw [if_pos stack, if_pos stack]
      split_ifs with below above
      · rfl
      · rfl
      · have zero : memory.disp = 0 := by
          rw [gt_iff_lt, Int64.lt_iff_toInt_lt] at above
          rw [Int64.lt_iff_toInt_lt] at below
          rw [← Int64.toInt_inj]
          omega
        rw [zero]
        rfl
    · rw [if_neg stack, if_neg stack]
      rfl

/-- A load moves the tracked delta upwards only. -/
theorem loadChange_eq (instr : LoweredInstr) :
    Abi.loadChange instr = -(if stackDisp instr > 0 then stackDisp instr else 0) := by
  unfold Abi.loadChange stackDisp
  cases Abi.memOperand instr with
  | none => rfl
  | some memory =>
    dsimp only
    by_cases stack : memory.base.any Abi.isSp = true
    · simp only [stack, if_true]
      split_ifs <;> rfl
    · simp [stack]

/-- The tracked change of an instruction. -/
theorem spChange_eq (instr : LoweredInstr) :
    Abi.spChange instr = -((addedToSp instr).getD (shownDisp instr)) := by
  unfold Abi.spChange addedToSp shownDisp
  by_cases stores : instr.mnemonic ∈ ["sd", "sw", "sdsp", "swsp"]
  · have other : ¬ instr.mnemonic ∈ ["addi", "add", "c.addi", "c.addi16sp"] := by
      simp only [List.mem_cons, List.not_mem_nil, or_false] at stores
      rcases stores with name | name | name | name <;> rw [name] <;> decide
    rw [if_pos stores, if_pos stores, if_neg other, Option.getD_none]
    exact storeChange_eq instr
  · rw [if_neg stores, if_neg stores]
    by_cases loads : instr.mnemonic ∈ ["ld", "lw"]
    · have other : ¬ instr.mnemonic ∈ ["addi", "add", "c.addi", "c.addi16sp"] := by
        simp only [List.mem_cons, List.not_mem_nil, or_false] at loads
        rcases loads with name | name <;> rw [name] <;> decide
      rw [if_pos loads, if_pos loads, if_neg other, Option.getD_none]
      exact loadChange_eq instr
    · rw [if_neg loads, if_neg loads]
      by_cases adds : instr.mnemonic ∈ ["addi", "add", "c.addi", "c.addi16sp"]
      · rw [if_pos adds, if_pos adds]
        unfold Abi.adjustmentChange
        generalize instr.operands = operands
        rcases operands with _ | ⟨first, _ | ⟨second, _ | ⟨third, rest⟩⟩⟩
        · rfl
        · cases first <;> simp
        · cases first with
          | reg target =>
            cases second with
            | imm count =>
              dsimp only
              split_ifs <;> rfl
            | _ => simp
          | _ => simp
        · cases first with
          | reg target =>
            cases second with
            | reg source =>
              cases third with
              | imm count =>
                dsimp only
                split_ifs <;> rfl
              | _ => simp
            | _ => simp
          | _ => simp
      · rw [if_neg adds, if_neg adds]
        rfl

/-- An instruction moves the stack pointer as its lowered form shows. -/
def Followed (env : Environment State) (instr : Instr) (state : State) : Prop :=
  match addedToSp instr.lowered with
  -- an addition that lost an operand to lowering has a result from elsewhere
  | some count =>
    instr.lowered.mnemonic ∈ ["addi", "add"] → instr.lowered.operands.length = 2 →
      env.result = state.cell .sp + count.toBitVec
  -- any other instruction leaves the stack pointer where the displacement shows it
  | none => ∀ outcome, instr.run env state = some outcome →
    outcome.after.cell .sp = state.cell .sp + (shownDisp instr.lowered).toBitVec

/-- What an addition of the stack pointer to itself leaves in it. -/
theorem sp_of_added (env : Environment State) (instr : Instr) (state : State)
    (outcome : Outcome State) (ran : instr.run env state = some outcome) (count : Int64)
    (added : addedToSp instr.lowered = some count) :
    outcome.after.cell .sp =
      if instr.lowered.mnemonic ∈ ["addi", "add"] ∧ instr.lowered.operands.length = 2 then env.result
      else state.cell .sp + count.toBitVec := by
  unfold addedToSp at added
  split_ifs at added with adds
  have value : BitVec.ofInt 64 count.toInt = count.toBitVec := BitVec.ofInt_toInt
  have compressed_or : (instr.lowered.mnemonic = "c.addi" ∨ instr.lowered.mnemonic = "c.addi16sp") ∨
      (instr.lowered.mnemonic ∈ ["addi", "add"] ∧ instr.lowered.op = some (.arith .add false)) := by
    simp only [List.mem_cons, List.not_mem_nil, or_false] at adds
    rcases adds with name | name | name | name
    · exact Or.inr ⟨by simp [name], by rw [LoweredInstr.op, name]; decide +kernel⟩
    · exact Or.inr ⟨by simp [name], by rw [LoweredInstr.op, name]; decide +kernel⟩
    · exact Or.inl (Or.inl name)
    · exact Or.inl (Or.inr name)
  unfold Instr.run compressed at ran
  rcases compressed_or with name | ⟨name, op⟩
  · have plain : ¬ instr.lowered.mnemonic ∈ ["addi", "add"] := by
      rcases name with name | name <;> rw [name] <;> decide
    have unknown : instr.lowered.op = none := by
      rcases name with name | name <;> rw [LoweredInstr.op, name] <;> decide +kernel
    rw [if_neg (fun both => plain both.1)]
    rw [if_pos name] at ran
    split at added
    next target number shape =>
      split_ifs at added with stack
      cases added
      simp only [shape] at ran
      cases ran
      rw [show target.storage = .sp from beq_iff_eq.mp stack]
      exact State.cell_set_self _ _ _ (by decide)
    next target source number rest shape =>
      simp [shape, exec, unknown] at ran
    next => cases added
  · have plain : ¬ (instr.lowered.mnemonic = "c.addi" ∨ instr.lowered.mnemonic = "c.addi16sp") := by
      simp only [List.mem_cons, List.not_mem_nil, or_false] at name
      rcases name with name | name <;> rw [name] <;> decide
    rw [if_neg plain] at ran
    simp only [exec, op, Op.exec] at ran
    split at added
    next target number shape =>
      split_ifs at added with stack
      cases added
      rw [shape] at ran
      cases ran
      rw [if_pos ⟨name, by rw [shape]; rfl⟩, show target.storage = .sp from beq_iff_eq.mp stack]
      exact State.cell_set_self _ _ _ (by decide)
    next target source number rest shape =>
      split_ifs at added with stack
      cases added
      rw [Bool.and_eq_true] at stack
      have short : ¬ instr.lowered.operands.length = 2 := by
        rw [shape]
        simp
      rw [if_neg (fun both => short both.2)]
      rw [shape] at ran
      cases rest with
      | cons last more => cases ran
      | nil =>
        cases ran
        rw [show target.storage = .sp from beq_iff_eq.mp stack.1,
          show source.storage = .sp from beq_iff_eq.mp stack.2, value]
        exact State.cell_set_self _ _ _ (by decide)
    next => cases added

/-- An instruction moves the stack pointer by its tracked change exactly when it moves it as
its lowered form shows. -/
theorem gone_iff_followed (env : Environment State) (instr : Instr) (state : State)
    (outcome : Outcome State) (ran : instr.run env state = some outcome) :
    Gone (state.cell .sp) (outcome.after.cell .sp) (Abi.spChange instr.lowered) ↔
      Followed env instr state := by
  rw [spChange_eq]
  unfold Followed Gone
  rw [Int64.toBitVec_neg]
  cases added : addedToSp instr.lowered with
  | some count =>
    have left := sp_of_added env instr state outcome ran count added
    simp only [Option.getD_some]
    by_cases lost : instr.lowered.mnemonic ∈ ["addi", "add"] ∧ instr.lowered.operands.length = 2
    · rw [left, if_pos lost]
      constructor
      · intro same _ _
        bv_omega
      · intro same
        have result := same lost.1 lost.2
        bv_omega
    · rw [left, if_neg lost]
      constructor
      · exact fun _ name short => absurd ⟨name, short⟩ lost
      · intro _
        bv_omega
  | none =>
    simp only [Option.getD_none, ran, Option.some.injEq, forall_eq']
    constructor <;> intro same <;> bv_omega

/-- The instruction at a point moves the stack pointer as its lowered form shows. -/
def FollowedAt (body : List Instr) (envs : Nat → Environment State) (point : Point State) : Prop :=
  ∀ instr, body[point.position]? = some instr → Followed (envs point.position) instr point.state

/-- The tracked change of an instruction. -/
def Instr.change (instr : Instr) : Int64 := Abi.spChange instr.lowered

/-- The stack pointer. -/
def State.sp (state : State) : Word := state.cell .sp

/-- The tracked delta is the way of the stack pointer since entry. -/
def TracksStack (body : List Instr) : Word → Point State → Prop :=
  Tracks Instr.change body State.sp

/-- The delta of the walk is the sum over the lowered instructions. -/
theorem tracked_map (body : List Instr) (position : Nat) :
    tracked Abi.checker.change (body.map Instr.lowered) position =
      tracked Instr.change body position := by
  simp only [tracked, accAt, ← List.map_take, List.foldl_map]
  rfl

/-- What the walk says of a point of a run. -/
structure WalkRight (body : List Instr) (envs : Nat → Environment State) (entry : Word)
    (point : Point State) : Prop where
  /-- The tracked delta is the way of the stack pointer since entry. -/
  tracked : TracksStack body entry point
  /-- The next instruction keeps it so exactly when it moves the stack pointer as it shows. -/
  sharp : ∀ after, Step body (StackRuns envs) point after →
    (TracksStack body entry after ↔ FollowedAt body envs point)
  /-- The next instruction is taken for what it is unless it is a jump with destination zero
  or compressed. -/
  taken : ∀ instr, body[point.position]? = some instr →
    (instr.Taken ↔ instr.link ≠ some .zero ∧ instr.decoded ≠ "c.jalr")
  /-- A return that is taken for one finds the stack pointer of entry if the body is clean. -/
  returned : (Abi.analyze (body.map Instr.lowered)).isClean = true → ∀ instr,
    body[point.position]? = some instr → instr.Returns → instr.Taken → point.state.sp = entry
  /-- A call that is taken for one finds it aligned if the body is clean and the caller
  called aligned. -/
  aligned : (Abi.analyze (body.map Instr.lowered)).isClean = true → ∀ instr,
    body[point.position]? = some instr → instr.Calls → instr.Taken →
      entry.toNat % 16 = 0 → point.state.sp.toNat % 16 = 0

/-- The next instruction keeps the delta right exactly when it is followed. -/
theorem tracksStack_succ_iff (body : List Instr) (envs : Nat → Environment State) (entry : Word)
    (point after : Point State) (tracks : TracksStack body entry point)
    (step : Step body (StackRuns envs) point after) :
    TracksStack body entry after ↔ FollowedAt body envs point := by
  rw [TracksStack,
    tracks_succ_iff Instr.change body State.sp (StackRuns envs) entry point after tracks step]
  obtain ⟨_, instr, found, ⟨outcome, ran, _, same⟩, _⟩ := step
  rw [← same]
  apply forall_congr'
  intro other
  apply imp_congr_right
  intro there
  rw [found] at there
  cases there
  exact gone_iff_followed (envs point.position) instr point.state outcome ran

/-- While every instruction moves the stack pointer as its lowered form shows, the walk is
right. -/
theorem walkRight_of_reaches (body : List Instr) (envs : Nat → Environment State) (entry : State)
    (point : Point State)
    (reached : Reaches (Under (FollowedAt body envs) (Step body (StackRuns envs))) ⟨0, entry⟩ point) :
    WalkRight body envs entry.sp point := by
  have tracks : TracksStack body entry.sp point := by
    refine tracks_along Instr.change body State.sp (StackRuns envs) (FollowedAt body envs) ?_
      entry point reached
    intro point after followed step instr found
    obtain ⟨_, other, there, ⟨outcome, ran, _, same⟩, _⟩ := step
    rw [found] at there
    cases there
    rw [← same]
    exact (gone_iff_followed _ instr _ outcome ran).mpr (followed instr found)
  have gone : Gone entry.sp point.state.sp
      (Displacement.tracked Abi.checker.change (body.map Instr.lowered) point.position) := by
    rw [tracked_map]
    exact tracks
  have verdict := verdictRight_of_gone Abi.checker rfl rfl _ entry.sp _ point.position gone
  have lowered (instr : Instr) (found : body[point.position]? = some instr) :
      (body.map Instr.lowered)[point.position]? = some instr.lowered := by
    rw [List.getElem?_map, found, Option.map_some]
  refine ⟨tracks, fun after => tracksStack_succ_iff body envs entry.sp point after tracks,
    fun instr _ => instr.taken_iff, ?_, ?_⟩
  · intro clean instr found returns taken
    exact verdict.returned clean _ (lowered instr found) (taken.2.mpr returns)
  · intro clean instr found calls taken
    exact verdict.aligned clean _ (lowered instr found) (taken.1.mpr calls)

end Semasm.Riscv
