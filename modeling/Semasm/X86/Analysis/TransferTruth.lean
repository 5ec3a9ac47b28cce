import Semasm.X86.Analysis.Records
import Semasm.X86.Kinds

/-!
# The transfer function and the machine

A recorded constant is true when the whole register holds it. The transfer
function keeps records true except where it takes a narrow write for one of the
whole register, and where a register moves that it takes to be left alone: the
stack pointer, or a register that a callee did not give back.
-/

namespace Semasm.X86.Analysis

/-- Every recorded constant is the value of the whole register. -/
def BlockState.Holds (record : BlockState) (state : State) : Prop :=
  ∀ cell value width, record.regs cell = some ⟨.const value, width⟩ →
    state.regs cell = BitVec.ofInt 64 value.toInt

/-- An instruction that leaves a state is judged rightly, given the registers that may
be recorded as constants before it. -/
structure Judged (maybe : Gp → Prop) (instr : LoweredInstr) (state after : State) : Prop where
  /-- A moved immediate fills the register. -/
  immediate : ∀ register value, instr.op = some .move →
    instr.operands = [.reg register, .imm value] → register.width = .b64 ∨
      (register.width = .b32 ∧ 0 ≤ value.toInt ∧ value.toInt < 2 ^ 32)
  /-- A copied register that may be recorded is copied as a whole. -/
  copy : ∀ register source cell, instr.op = some .move →
    instr.operands = [.reg register, .reg source] → source.storage = .gp cell → maybe cell →
      register.width = .b64 ∨ (register.width = .b32 ∧ (state.regs cell).toNat < 2 ^ 32)
  /-- A stack pointer that may be recorded is not moved by the way. -/
  stack : instr.op = some .push ∨ instr.op = some .pop ∨ instr.op = some .ret → maybe .rsp →
    Assigns instr .rsp
  /-- A call keeps the nonvolatile registers that may be recorded. -/
  kept : instr.op = some .call → ∀ cell, maybe cell → cell ∉ volatileGp →
    after.regs cell = state.regs cell

/-- The first operand of an operation that writes a view of a cell. -/
theorem firstCell_of_views (op : Op) (operands : List Operand) (cell : Gp)
    (views : (op.destination operands).any (Operand.views cell) = true) :
    (firstCell operands).map Prod.fst = some cell := by
  have head : ∃ dst rest, operands = dst :: rest ∧ dst.views cell = true := by
    cases named : op.destination operands with
    | none => simp [named] at views
    | some dst =>
      rw [named] at views
      unfold Op.destination at named
      split at named <;> cases named <;> exact ⟨_, _, rfl, by simpa using views⟩
  obtain ⟨dst, rest, rfl, seen⟩ := head
  cases dst with
  | reg register =>
    have storage : register.storage = .gp cell := by simpa [Operand.views] using seen
    simp [firstCell, gpOf, storage]
  | mem operand => cases seen
  | imm value => cases seen

/-- A register an operation changes is assigned by the transfer function, or it is the
stack pointer moved by the way, or a callee may have changed it. -/
theorem assigns_of_changes (instr : LoweredInstr) (supported : instr.Supported) (op : Op)
    (known : instr.op = some op) (cell : Gp) (changes : op.changes instr.operands cell) :
    Assigns instr cell ∨ (cell = .rsp ∧ (op = .push ∨ op = .pop)) ∨ op = .call := by
  have kind := supported.kind_eq op known
  rcases changes with views | stack | call | ⟨kernel, _⟩
  · have first := firstCell_of_views op instr.operands cell views
    left
    unfold Assigns
    rw [kind]
    cases op <;> simp only [Op.kind] <;> first | exact first | simp [Op.destination] at views
  · exact Or.inr (Or.inl stack)
  · exact Or.inr (Or.inr call)
  · left
    unfold Assigns
    rw [kind, kernel]
    trivial

/-- A register that may be recorded and that the transfer function leaves alone keeps its
value. -/
theorem untouched_kept (lowered : List LoweredInstr) (envs : Nat → Environment) (point : RunPoint)
    (after : State) (instr : LoweredInstr) (found : lowered[point.position]? = some instr)
    (leaves : Leaves lowered envs point after) (supported : instr.Supported) (maybe : Gp → Prop)
    (judged : Judged maybe instr point.state after) (cell : Gp) (recorded : maybe cell)
    (untouched : ¬ Assigns instr cell) : after.regs cell = point.state.regs cell := by
  cases leaves with
  | done other outcome there executed stays =>
    rw [found] at there
    cases there
    obtain ⟨op, known, ran⟩ := op_of_exec _ _ _ _ executed
    by_cases changes : op.changes instr.operands cell
    · rcases assigns_of_changes instr supported op known cell changes with
        assigns | ⟨rfl, stack⟩ | call
      · exact absurd assigns untouched
      · refine absurd (judged.stack ?_ recorded) untouched
        rcases stack with push | pop
        · exact Or.inl (push ▸ known)
        · exact Or.inr (Or.inl (pop ▸ known))
      · apply judged.kept (call ▸ known) cell recorded
        intro volatile
        apply untouched
        unfold Assigns
        rw [supported.kind_eq op known, call]
        exact volatile
    · exact op.exec_regs _ _ _ outcome ran cell changes
  | entered other there calls =>
    rw [found] at there
    cases there
    apply judged.kept calls cell recorded
    intro volatile
    apply untouched
    unfold Assigns
    rw [supported.kind_eq .call calls]
    exact volatile
  | returned other there returns =>
    rw [found] at there
    cases there
    by_cases stack : cell = .rsp
    · subst stack
      exact absurd (judged.stack (Or.inr (Or.inr returns)) recorded) untouched
    · exact Function.update_of_ne stack _ _

/-- A value below 2^32 is its own low half. -/
theorem trunc_b32_of_lt (value : Word) (small : value.toNat < 2 ^ 32) :
    Width.b32.trunc value = value := by
  apply BitVec.eq_of_toNat_eq
  rw [Width.trunc_b32_toNat]
  exact Nat.mod_eq_of_lt small

/-- A nonnegative immediate below 2^32 stays as it is. -/
theorem ofInt_toNat (value : Int64) (nonneg : 0 ≤ value.toInt) (small : value.toInt < 2 ^ 32) :
    (BitVec.ofInt 64 value.toInt).toNat < 2 ^ 32 := by
  rw [BitVec.toNat_ofInt]
  omega

/-- The first operand that names a cell is a view of it. -/
theorem firstCell_shape (operands : List Operand) (cell : Gp) (width : Width)
    (first : firstCell operands = some (cell, width)) :
    ∃ dst rest, operands = .reg dst :: rest ∧ dst.storage = .gp cell := by
  unfold firstCell at first
  split at first
  · rename_i register head
    obtain ⟨found, view, same⟩ := Option.map_eq_some_iff.mp first
    cases same
    obtain ⟨rest, rfl⟩ := List.head?_eq_some_iff.mp head
    refine ⟨register, rest, rfl, ?_⟩
    unfold gpOf at view
    split at view
    · rename_i storage
      cases view
      exact storage
    · cases view
  · cases first

/-- A recorded move leaves the recorded constant. -/
theorem moved_const (env : Environment) (state : State) (instr : LoweredInstr) (op : Op)
    (outcome : Outcome) (known : instr.op = some op)
    (executed : op.exec env state instr.operands = some outcome) (supported : instr.Supported)
    (record : BlockState) (holds : record.Holds state) (maybe : Gp → Prop)
    (recorded : ∀ cell value width, record.regs cell = some ⟨.const value, width⟩ → maybe cell)
    (judged : Judged maybe instr state (outcome.result state)) (cell : Gp)
    (assigns : Assigns instr cell) (value : Int64) (moves : Moves instr record value) :
    (outcome.result state).regs cell = BitVec.ofInt 64 value.toInt := by
  have kind := supported.kind_eq op known
  rw [moves.1] at kind
  have target : (firstCell instr.operands).map Prod.fst = some cell := by
    unfold Assigns at assigns
    rw [moves.1] at assigns
    exact assigns
  obtain ⟨⟨written, width⟩, first, same⟩ := Option.map_eq_some_iff.mp target
  have named : firstCell instr.operands = some (cell, width) := by rw [first, ← same]
  -- Of the stores only a move has a second operand.
  have move : op = .move := by
    have second : ∃ operand, (instr.operands[1]? : Option Operand) = some operand := by
      rcases moves.source with shape | ⟨register, _, _, shape, _⟩
      · exact ⟨_, shape⟩
      · exact ⟨_, shape⟩
    obtain ⟨operand, second⟩ := second
    cases op with
    | move => rfl
    | push =>
      simp only [Op.exec] at executed
      unfold execPush at executed
      split at executed
      · rename_i shape
        rw [shape] at second
        cases second
      · cases executed
    | pop =>
      simp only [Op.exec] at executed
      unfold execPop at executed
      split at executed
      · rename_i shape
        rw [shape] at second
        cases second
      · cases executed
    | _ => simp [Op.kind] at kind
  subst move
  obtain ⟨dst, rest, shape, storage⟩ : ∃ dst rest, instr.operands = .reg dst :: rest ∧
      dst.storage = .gp cell := firstCell_shape _ _ _ named
  have ran : execMove env state (.reg dst :: rest) = some outcome := by
    rw [← shape]
    exact executed
  obtain ⟨src, moved, reads, _, rfl, _, read, rfl⟩ := exec_move_reg env state dst rest outcome ran
  rw [result_reg _ _ _ _ _ _ cell storage]
  rcases moves.source with immediate | ⟨register, origin, held, copied, view, own, same⟩
  · rw [shape] at immediate
    obtain rfl : src = .imm value := Option.some.inj immediate
    have wide := judged.immediate dst value known shape
    rw [Register.merge_wide dst _ _ (wide.imp id (fun half => half.1))]
    simp only [Operand.read] at read
    split at read
    · cases read
      rcases wide with full | ⟨half, nonneg, small⟩
      · rw [full]
        rfl
      · rw [half, trunc_b32_of_lt _ (ofInt_toNat value nonneg small),
          trunc_b32_of_lt _ (ofInt_toNat value nonneg small)]
    · cases read
  · rw [shape] at copied
    obtain rfl : src = .reg register := Option.some.inj copied
    have source : register.storage = .gp origin := by
      unfold gpOf at view
      split at view
      · rename_i found
        cases view
        exact found
      · cases view
    have constant : held = ⟨.const value, held.width⟩ := by rw [← same]
    rw [constant] at own
    have whole := holds origin value held.width own
    have wide := judged.copy dst register origin known shape source
      (recorded origin value held.width own)
    rw [Register.merge_wide dst _ _ (wide.imp id (fun half => half.1)), ← whole]
    simp only [Operand.read] at read
    split at read
    · rename_i width
      obtain ⟨_, seen, result⟩ := Option.map_eq_some_iff.mp read
      cases result
      rcases wide with full | ⟨half, small⟩
      · rw [Register.value_full _ _ origin source (width.trans full)] at seen
        cases seen
        rw [full]
        rfl
      · rw [Register.value_half _ _ origin source (width.trans half)] at seen
        cases seen
        rw [half, trunc_b32_of_lt _ small, trunc_b32_of_lt _ small]
    · cases read

/-- The transfer function keeps records true under an instruction judged rightly. -/
theorem holds_transfer (lowered : List LoweredInstr) (envs : Nat → Environment) (point : RunPoint)
    (after : State) (instr : LoweredInstr) (found : lowered[point.position]? = some instr)
    (leaves : Leaves lowered envs point after) (supported : instr.Supported) (record : BlockState)
    (holds : record.Holds point.state) (maybe : Gp → Prop)
    (recorded : ∀ cell value width, record.regs cell = some ⟨.const value, width⟩ → maybe cell)
    (judged : Judged maybe instr point.state after) : (transfer instr record).Holds after := by
  intro cell value width held
  by_cases assigns : Assigns instr cell
  · obtain ⟨known, set, only⟩ := transfer_assigned instr record cell assigns
    rw [set] at held
    have moves := only value (congrArg RegAbs.value (Option.some.inj held))
    cases leaves with
    | done other outcome there executed stays =>
      rw [found] at there
      cases there
      obtain ⟨op, named, ran⟩ := op_of_exec _ _ _ _ executed
      exact moved_const _ _ instr op outcome named ran supported record holds maybe recorded judged
        cell assigns value moves
    | entered other there calls =>
      rw [found] at there
      cases there
      have kind := supported.kind_eq .call calls
      rw [moves.1] at kind
      cases kind
    | returned other there returns =>
      rw [found] at there
      cases there
      have kind := supported.kind_eq .ret returns
      rw [moves.1] at kind
      cases kind
  · rw [transfer_kept instr record cell assigns] at held
    rw [untouched_kept lowered envs point after instr found leaves supported maybe judged cell
      (recorded cell value width held) assigns]
    exact holds cell value width held

end Semasm.X86.Analysis
