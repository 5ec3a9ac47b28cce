import Semasm.Cli.ReadOnlyLeaf
import Semasm.X86.Accesses
import Semasm.X86.StraightLine

/-!
# What a read-only body writes

The frame of a function is the memory below the entry value of the stack pointer. A body
the gate accepts leaves everything else alone in runs in which the spills it exempts and
the stack writes stay in the frame and no other code is called. The exempt registers need
not hold addresses of the frame, so without that condition a spill writes anywhere.
-/

namespace Semasm.Cli

open Agent Agent.Harness Contract Library

section X86

open X86

/-- The bytes that the gate lets a step write outside the frame. -/
inductive X86Strays (bound : Word) (env : Environment) (state : State) (instr : LoweredInstr) :
    Prop
  /-- A spill is exempt whatever the frame pointer holds. -/
  | spill (mem : MemOperand) (address byte : Word) (first : instr.operands.head? = some (.mem mem))
      (exempt : x86FrameSpill mem = true) (located : mem.address env state.regs = some address)
      (covered : ByteMemory.Within address mem.width.bytes byte) (outside : bound ≤ byte)
  /-- A push writes below the stack pointer, wherever that points. -/
  | push (width : Width) (byte : Word) (op : instr.op = some .push)
      (covered : ByteMemory.Within (state.regs .rsp - BitVec.ofNat 64 width.bytes) width.bytes byte)
      (outside : bound ≤ byte)
  /-- A pop with a memory operand is not among the listed writes. -/
  | pop (mem : MemOperand) (op : instr.op = some .pop)
      (first : instr.operands.head? = some (.mem mem))
  /-- A callee or the kernel writes what it wants. -/
  | outside (op : instr.op = some .call ∨ instr.op = some .syscall)

/-- The operations that store through an operand, apart from `pop`, have listed mnemonics. -/
theorem x86_writes_listed (mnemonic : String) (op : Op) (known : Op.ofMnemonic mnemonic = some op)
    (operands : List Operand) (mem : MemOperand) (stores : (.mem mem, .store) ∈ op.touches operands) :
    operands.head? = some (.mem mem) ∧ (op = .pop ∨ mnemonic ∈ x86WriteMnemonics) := by
  have listed := Op.ofMnemonic_forall (fun mnemonic op => (match op with
      | .move | .alu _ | .inc | .dec | .shl | .shr => decide (mnemonic ∈ x86WriteMnemonics)
      | _ => true) = true) (by decide) mnemonic op known
  unfold Op.touches at stores
  split at stores <;> simp_all

/-- A step of an accepted body that does not stray leaves the bytes outside the frame alone. -/
theorem x86_step_keeps (bound : Word) (env : Environment) (state : State) (instr : LoweredInstr)
    (outcome : Outcome) (executed : exec env instr state = some outcome)
    (quiet : isX86ExplicitMemoryWrite instr = false) (stays : ¬ X86Strays bound env state instr)
    (byte : Word) (outside : bound ≤ byte) :
    (outcome.result state).mem byte = state.mem byte := by
  obtain ⟨op, known, ran⟩ := op_of_exec env instr state outcome executed
  refine op.exec_mem env state instr.operands outcome ran byte ⟨?_, ?_⟩ ?_
  · rintro rfl
    exact stays (.outside (Or.inl known))
  · rintro rfl
    exact stays (.outside (Or.inr known))
  · rintro (⟨access, accessed, store, covered⟩ | ⟨rfl, width, _, covered⟩)
    · obtain ⟨mem, touched, located, width⟩ :=
        (mem_touched_iff env _ _ _ (op.exec_accesses env state instr.operands outcome ran) access).mp
          accessed
      rw [store] at touched
      obtain ⟨first, pop | listed⟩ := x86_writes_listed _ op known instr.operands mem touched
      · subst pop
        exact stays (.pop mem known first)
      · have notPop : op ≠ .pop := by
          rintro rfl
          exact stays (.pop mem known first)
        have exempt : x86FrameSpill mem = true := by
          by_contra spill
          simp [isX86ExplicitMemoryWrite, first, spill, listed] at quiet
        rw [op.addressRegs_of_ne_pop state.regs instr.operands notPop] at located
        rw [← width] at covered
        exact stays (.spill mem access.address byte first exempt located covered outside)
    · exact stays (.push width byte known covered outside)

/-- Along runs of an accepted body whose steps are all allowed, bytes outside the frame keep
their values. -/
def X86KeepsOutside (contract : CheckedContract)
    (allowed : Word → Environment → State → LoweredInstr → Prop) : Prop :=
  ∀ lowered decode lowering,
    checkX86ReadOnlyBufferLeaf lowered contract decode lowering = .ok () →
    ∀ (envs : Nat → Environment) (start : State) (point : Point),
      Transitions.Reaches (Transitions.Under
        (fun point => ∀ instr, lowered[point.position]? = some instr →
          allowed (start.regs .rsp) (envs point.position) point.state instr)
        (StraightStep lowered envs)) ⟨0, start⟩ point →
      ∀ byte, start.regs .rsp ≤ byte → point.state.mem byte = start.mem byte

/-- An accepted x86-64 body keeps what is outside the frame while no step strays. -/
theorem x86_keeps_outside (contract : CheckedContract)
    (readOnly : isReadOnlyBufferScan contract = true) :
    X86KeepsOutside contract (fun bound env state instr => ¬ X86Strays bound env state instr) := by
  intro lowered decode lowering passed envs start point reached byte outside
  have quiet := checkReadOnlyBufferLeaf_ok _ _ _ _ _ _ readOnly passed
  refine reached.invariant (fun point => point.state.mem byte = start.mem byte) rfl ?_
  rintro before _ _ same ⟨stays, instr, outcome, found, executed, _, rfl⟩
  exact (x86_step_keeps _ _ _ instr outcome executed (quiet instr (List.mem_of_getElem? found))
    (stays instr found) byte outside).trans same

end X86

section AArch64

open AArch64 Machine

/-- The bytes that the gate lets a step write outside the frame. -/
inductive AArch64Strays (bound : Word) (state : State) (instr : Instr) : Prop
  /-- A spill is exempt whatever the stack and frame pointers hold. -/
  | spill (mem : MemOperand) (addressing : Addressing) (bytes : Nat) (byte : Word)
      (member : .mem mem ∈ instr.lowered.operands) (exempt : aarch64StackSpill mem = true)
      (text : instr.addressing = some addressing) (small : bytes ≤ 8)
      (covered : ByteMemory.Within (addressing.address state) bytes byte) (outside : bound ≤ byte)
  /-- A callee, a handler or an instruction outside the subset writes what it wants. -/
  | outside (op : instr.op = some .call ∨ instr.op = some .exception ∨ instr.op = none)

/-- What an operation that is no store leaves of memory. -/
theorem aarch64_data_keeps (state : State) (compute : Register → List Operand → Option Word)
    (operands : List Operand) (outcome : Outcome State)
    (executed : execData state compute operands = some outcome) :
    outcome.after.mem = state.mem := by
  unfold execData at executed
  split at executed
  next target sources =>
    obtain ⟨value, _, rfl⟩ := Option.map_eq_some_iff.mp executed
    exact state.set_mem _ _
  next => cases executed

/-- A store with a width of its own is of at most eight bytes. -/
def aarch64Narrow : Op → Bool
  | .store (some count) => decide (count ≤ 8)
  | _ => true

/-- A step of an accepted body that does not stray leaves the bytes outside the frame alone. -/
theorem aarch64_step_keeps (bound : Word) (env : Environment State) (state : State) (instr : Instr)
    (outcome : Outcome State) (executed : exec env instr state = some outcome)
    (produced : ∃ physical, lower physical = .lowered instr.lowered)
    (quiet : isAArch64ExplicitMemoryWrite instr.lowered = false)
    (stays : ¬ AArch64Strays bound state instr) (byte : Word) (outside : bound ≤ byte) :
    outcome.after.mem byte = state.mem byte := by
  rcases exec_cases env instr state outcome executed with ⟨op, known, ran⟩ | ⟨unknown, _, _⟩
  · cases op with
    | mov => exact congrFun (aarch64_data_keeps _ _ _ _ ran) byte
    | movz => exact congrFun (aarch64_data_keeps _ _ _ _ ran) byte
    | movn => exact congrFun (aarch64_data_keeps _ _ _ _ ran) byte
    | movk => exact congrFun (aarch64_data_keeps _ _ _ _ ran) byte
    | arith operation => exact congrFun (aarch64_data_keeps _ _ _ _ ran) byte
    | load bytes signed =>
      simp only [Op.exec, execLoad] at ran
      split at ran
      next addressing target mem rest text shape =>
        cases ran
        simp only [State.write, State.set_mem, Addressing.writeback_mem]
      next => cases ran
    | store bytes =>
      simp only [Op.exec, execStore] at ran
      split at ran
      next addressing source mem rest text shape =>
        cases ran
        obtain ⟨physical, lowered⟩ := produced
        have stores : storesMemory instr.lowered.mnemonic = true := by
          have same : Op.ofMnemonic (Text.asciiLower instr.lowered.mnemonic) = some (.store bytes) :=
            known
          simp only [storesMemory, same]
        have kind := kind_of_lower physical instr.lowered lowered stores
        have member : .mem mem ∈ instr.lowered.operands := by
          rw [shape]
          simp
        have exempt : aarch64StackSpill mem = true := by
          by_contra spill
          have writing : isAArch64ExplicitMemoryWrite instr.lowered = true := by
            simp only [isAArch64ExplicitMemoryWrite, kind, true_and, decide_eq_true_eq]
            exact List.any_eq_true.mpr ⟨_, member, by simp [spill]⟩
          rw [writing] at quiet
          cases quiet
        have size : bytes.getD (source.width.bits / 8) ≤ 8 := by
          have table := Op.ofMnemonic_forall (fun _ op => aarch64Narrow op = true) (by decide) _ _
            known
          cases bytes with
          | none => cases width : source.width <;> simp [AArch64.Width.bits]
          | some count => simpa [aarch64Narrow] using table
        rw [Addressing.writeback_mem]
        refine stored_outside _ _ _ _ _ size (fun covered => ?_)
        exact stays (.spill mem addressing _ byte member exempt text size covered outside)
      next => cases ran
    | compare =>
      simp only [Op.exec] at ran
      split at ran
      · cases ran
      · cases ran
        rfl
    | branch =>
      simp only [Op.exec] at ran
      split at ran
      · cases ran
      · cases ran
        rfl
    | call => exact absurd (.outside (Or.inl known)) stays
    | ret =>
      simp only [Op.exec] at ran
      split at ran
      · cases ran
      · cases ran
        rfl
    | exception => exact absurd (.outside (Or.inr (Or.inl known))) stays
  · exact absurd (.outside (Or.inr (Or.inr unknown))) stays

/-- Along runs of an accepted body whose steps are all allowed, bytes outside the frame keep
their values. -/
def AArch64KeepsOutside (contract : CheckedContract) (allowed : Word → State → Instr → Prop) : Prop :=
  ∀ (program : List Instr) decode lowering,
    (∀ instr ∈ program, ∃ physical, lower physical = .lowered instr.lowered) →
    checkAArch64ReadOnlyBufferLeaf (program.map Instr.lowered) contract decode lowering = .ok () →
    ∀ (envs : Nat → Environment State) (start : State) (point : StraightLine.Point State),
      Transitions.Reaches (Transitions.Under
        (fun point => ∀ instr, program[point.position]? = some instr →
          allowed start.sp point.state instr)
        (StraightLine.Step program (Continues envs))) ⟨0, start⟩ point →
      ∀ byte, start.sp ≤ byte → point.state.mem byte = start.mem byte

/-- An accepted AArch64 body keeps what is outside the frame while no step strays. -/
theorem aarch64_keeps_outside (contract : CheckedContract)
    (readOnly : isReadOnlyBufferScan contract = true) :
    AArch64KeepsOutside contract (fun bound state instr => ¬ AArch64Strays bound state instr) := by
  intro program decode lowering produced passed envs start point reached byte outside
  have quiet := checkReadOnlyBufferLeaf_ok _ _ _ _ _ _ readOnly passed
  refine reached.invariant (fun point => point.state.mem byte = start.mem byte) rfl ?_
  rintro before after _ same ⟨stays, _, instr, found, outcome, executed, _, result⟩
  have member := List.mem_of_getElem? found
  rw [← result]
  exact (aarch64_step_keeps _ _ _ instr outcome executed (produced instr member)
    (quiet _ (List.mem_map_of_mem member)) (stays instr found) byte outside).trans same

end AArch64

section Riscv

open Riscv Machine

/-- The bytes that the gate lets a step write outside the frame. -/
inductive RiscvStrays (bound : Word) (state : State) (instr : LoweredInstr) : Prop
  /-- A spill is exempt whatever the stack and frame pointers hold. -/
  | spill (mem : MemOperand) (address : Word) (bytes : Nat) (byte : Word)
      (member : .mem mem ∈ instr.operands) (exempt : riscvStackSpill mem = true)
      (located : mem.address state = some address) (small : bytes ≤ 8)
      (covered : ByteMemory.Within address bytes byte) (outside : bound ≤ byte)
  /-- A callee, the execution environment or an instruction outside the subset writes what it
  wants. -/
  | outside (op : instr.op = some .call ∨ instr.op = some .system ∨ instr.op = none)

/-- What an operation that is no store leaves of memory. -/
theorem riscv_data_keeps (state : State) (compute : List Operand → Option Word)
    (operands : List Operand) (outcome : Outcome State)
    (executed : execData state compute operands = some outcome) :
    outcome.after.mem = state.mem := by
  unfold execData at executed
  split at executed
  next target sources =>
    obtain ⟨value, _, rfl⟩ := Option.map_eq_some_iff.mp executed
    exact state.set_mem _ _
  next => cases executed

/-- A store is of at most eight bytes. -/
def riscvNarrow : Op → Bool
  | .store count => decide (count ≤ 8)
  | _ => true

/-- A step of an accepted body that does not stray leaves the bytes outside the frame alone. -/
theorem riscv_step_keeps (bound : Word) (env : Environment State) (state : State)
    (instr : LoweredInstr) (outcome : Outcome State) (executed : exec env instr state = some outcome)
    (produced : ∃ physical, lower physical = .lowered instr)
    (quiet : isRiscvExplicitMemoryWrite instr = false) (stays : ¬ RiscvStrays bound state instr)
    (byte : Word) (outside : bound ≤ byte) : outcome.after.mem byte = state.mem byte := by
  rcases exec_cases env instr state outcome executed with ⟨op, known, ran⟩ | ⟨unknown, _, _⟩
  · cases op with
    | mv => exact congrFun (riscv_data_keeps _ _ _ _ ran) byte
    | li => exact congrFun (riscv_data_keeps _ _ _ _ ran) byte
    | arith operation word => exact congrFun (riscv_data_keeps _ _ _ _ ran) byte
    | load bytes signed =>
      simp only [Op.exec] at ran
      unfold execLoad at ran
      split at ran
      next target mem =>
        obtain ⟨address, _, rfl⟩ := Option.map_eq_some_iff.mp ran
        simp only [State.set_mem]
      next => cases ran
    | store bytes =>
      simp only [Op.exec] at ran
      unfold execStore at ran
      split at ran
      next source mem shape =>
        obtain ⟨address, located, rfl⟩ := Option.map_eq_some_iff.mp ran
        obtain ⟨physical, lowered⟩ := produced
        have stores : storesMemory instr.mnemonic = true := by
          have same : Op.ofMnemonic (Text.asciiLower instr.mnemonic) = some (.store bytes) := known
          simp only [storesMemory, same]
        have kind := kind_of_lower physical instr lowered stores
        have member : .mem mem ∈ instr.operands := by
          rw [shape]
          simp
        have exempt : riscvStackSpill mem = true := by
          by_contra spill
          have writing : isRiscvExplicitMemoryWrite instr = true := by
            simp only [isRiscvExplicitMemoryWrite, kind, true_and, decide_eq_true_eq]
            exact List.any_eq_true.mpr ⟨_, member, by simp [spill]⟩
          rw [writing] at quiet
          cases quiet
        have size : bytes ≤ 8 := by
          have table := Op.ofMnemonic_forall (fun _ op => riscvNarrow op = true) (by decide) _ _ known
          simpa [riscvNarrow] using table
        refine stored_outside _ _ _ _ _ size (fun covered => ?_)
        exact stays (.spill mem address bytes byte member exempt located size covered outside)
      next => cases ran
    | branch =>
      simp only [Op.exec] at ran
      split at ran
      · cases ran
      · cases ran
        rfl
    | call => exact absurd (.outside (Or.inl known)) stays
    | ret =>
      simp only [Op.exec] at ran
      split at ran
      · cases ran
      · cases ran
        rfl
    | system => exact absurd (.outside (Or.inr (Or.inl known))) stays
  · exact absurd (.outside (Or.inr (Or.inr unknown))) stays

/-- Along runs of an accepted body whose steps are all allowed, bytes outside the frame keep
their values. -/
def RiscvKeepsOutside (contract : CheckedContract) (allowed : Word → State → LoweredInstr → Prop) :
    Prop :=
  ∀ (lowered : List LoweredInstr) decode lowering,
    (∀ instr ∈ lowered, ∃ physical, lower physical = .lowered instr) →
    checkRiscvReadOnlyBufferLeaf lowered contract decode lowering = .ok () →
    ∀ (envs : Nat → Environment State) (start : State) (point : StraightLine.Point State),
      Transitions.Reaches (Transitions.Under
        (fun point => ∀ instr, lowered[point.position]? = some instr →
          allowed (start.cell .sp) point.state instr)
        (StraightLine.Step lowered (Continues envs))) ⟨0, start⟩ point →
      ∀ byte, start.cell .sp ≤ byte → point.state.mem byte = start.mem byte

/-- An accepted RISC-V body keeps what is outside the frame while no step strays. -/
theorem riscv_keeps_outside (contract : CheckedContract)
    (readOnly : isReadOnlyBufferScan contract = true) :
    RiscvKeepsOutside contract (fun bound state instr => ¬ RiscvStrays bound state instr) := by
  intro lowered decode lowering produced passed envs start point reached byte outside
  have quiet := checkReadOnlyBufferLeaf_ok _ _ _ _ _ _ readOnly passed
  refine reached.invariant (fun point => point.state.mem byte = start.mem byte) rfl ?_
  rintro before after _ same ⟨stays, _, instr, found, outcome, executed, _, result⟩
  have member := List.mem_of_getElem? found
  rw [← result]
  exact (riscv_step_keeps _ _ _ instr outcome executed (produced instr member) (quiet _ member)
    (stays instr found) byte outside).trans same

end Riscv

/-- A function that reads the first byte behind its pointer. -/
def loadByte0 : CheckedContract where
  name := "load_byte0"
  parameters := [⟨"p", .ptr (.uint 8) true, none⟩]
  returns := [⟨"result", .uint 8⟩]
  requires := []
  ensures := []
  effects := [⟨"memory_read", some "p[0..1]", none⟩]
  memory := none

/-- A store at the frame pointer. -/
def x86FrameStore : X86.LoweredInstr :=
  ⟨"mov", .store, .b64, none,
    [.mem ⟨some X86.Gp.rbp.full, none, 1, 0, .b64⟩, .reg X86.Gp.rax.full]⟩

example : X86.lower ⟨0, [], "mov", ["qword ptr [rbp]", "rax"], [], [], [], true⟩ =
    .lowered x86FrameStore := by decide +kernel

/-- The frame pointer holds an address of the caller's. -/
def x86Entered : X86.State :=
  ⟨fun cell => if cell = .rbp then 0x2000 else if cell = .rax then 7 else 0x1000, fun _ => 0,
    ⟨false, false, false, false, false⟩⟩

def aarch64FrameStore : AArch64.Instr where
  lowered := ⟨"str", .store, .b64, none,
    [.reg AArch64.Gp.x0.full, .mem ⟨some AArch64.Gp.fp.full, none, 1, 0, .b64⟩]⟩
  addressing := some ⟨.gp .fp, none, 0, .offset⟩
  modifier := id

def aarch64Entered : AArch64.State := ⟨fun cell => if cell = .fp then 0x2000 else 7, 0x1000, fun _ => 0⟩

def riscvFrameStore : Riscv.LoweredInstr :=
  ⟨"sd", .store, .b64, none,
    [.reg Riscv.Gpr.a0.full, .mem ⟨some Riscv.Gpr.s0.full, none, 1, 0, .b64⟩]⟩

def riscvEntered : Riscv.State :=
  ⟨fun cell => if cell = .s0 then 0x2000 else if cell = .a0 then 7 else 0x1000, fun _ => 0⟩

end Semasm.Cli
