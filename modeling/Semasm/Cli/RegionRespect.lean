import Semasm.Cli.AccessRecords

/-!
# What a passed status says about a run

When every executed access outside the frame is in the record and the record is
true, a passed region-access status keeps the accesses of the whole run inside
regions that permit them.
-/

namespace Semasm.Cli

open Contract Decode Library X86

/-- Every executed access outside the frame is recorded for its instruction. -/
def RunRecorded (lowered : List LoweredInstr) (physical : List PhysicalInstruction)
    (contract : CheckedContract) (abi : AbiConvention) (envs : Nat → Environment) (limit : Word)
    (start : State) : Prop :=
  ∀ point, Transitions.Reaches (StraightStep lowered envs) ⟨0, start⟩ point →
    ∀ instr outcome, lowered[point.position]? = some instr →
      exec (envs point.position) instr point.state = some outcome →
      ∀ access ∈ outcome.accesses, Leaves (OwnFrame limit start) access.address access.width →
        Recorded (effectsAt lowered physical contract abi point.position) access

/-- The instruction at a point, if it executes, is none of the overlooked ones. -/
def Attentive (lowered : List LoweredInstr) (envs : Nat → Environment) (limit : Word)
    (start : State) (point : Point) : Prop :=
  ∀ instr op outcome, lowered[point.position]? = some instr → instr.op = some op →
    exec (envs point.position) instr point.state = some outcome →
    ¬ Overlooks (OwnFrame limit start) (envs point.position) point.state instr op

/-- Some region that permits the access holds all its bytes. -/
def AccessPermitted (entry : String → Word) (memory : CheckedMemory) (access : Access) : Prop :=
  ∀ lengths, ∃ region ∈ memory.regions, accessAllowed region.access access.mode ∧
    ∀ byte < access.width.bytes,
      InRegion (entryAssignment entry lengths) region (access.address + BitVec.ofNat 64 byte)

/-- No byte of the access lies in a region that forbids it, except where a region
that permits it overlaps. -/
def ForbiddenUntouched (entry : String → Word) (memory : CheckedMemory) (access : Access) : Prop :=
  ∀ lengths, ∀ region ∈ memory.regions, accessAllowed region.access access.mode = false →
    (∀ other ∈ memory.regions, accessAllowed other.access access.mode = true → ∀ address,
      ¬ (InRegion (entryAssignment entry lengths) region address ∧
        InRegion (entryAssignment entry lengths) other address)) →
    ∀ byte < access.width.bytes,
      ¬ InRegion (entryAssignment entry lengths) region (access.address + BitVec.ofNat 64 byte)

theorem forbiddenUntouched_of_permitted (entry : String → Word) (memory : CheckedMemory)
    (access : Access) (permitted : AccessPermitted entry memory access) :
    ForbiddenUntouched entry memory access := by
  intro lengths region _ _ apart byte below touched
  obtain ⟨other, declared, allowed, inside⟩ := permitted lengths
  exact apart other declared allowed _ ⟨touched, inside byte below⟩

/-- Every row of a passed report proves its access inside a permitting region. -/
theorem settled_of_passed (memory : CheckedMemory) (accesses : List ObservedMemoryAccess)
    (passed : (evaluateRegionAccess memory accesses).status = .passed)
    (effect : ObservedMemoryAccess) (member : effect ∈ accesses) (notFrame : effect.addr ≠ .stackFrame) :
    ∃ row, judgeAccess memory effect = some row ∧ row.bounds = .provenInside ∧
      row.permission = .allowed := by
  cases judged : judgeAccess memory effect with
  | none =>
    unfold judgeAccess at judged
    split at judged
    next => cases judged
    next frame => exact absurd frame notFrame
    next => cases judged
    next => cases judged
    next => cases judged
    next => cases judged
  | some row =>
    have listed : row ∈ accesses.filterMap (judgeAccess memory) :=
      List.mem_filterMap.mpr ⟨effect, member, judged⟩
    have status : regionAccessStatus (accesses.filterMap (judgeAccess memory)) = .passed := passed
    rw [regionAccessStatus_eq] at status
    split_ifs at status with refuted undecided conditional
    have settled : row.Settled := by
      by_contra open_
      apply undecided
      exact ⟨row, listed, fun bad => refuted ⟨row, listed, bad⟩,
        fun owed => conditional ⟨row, listed, owed⟩, open_⟩
    exact ⟨row, rfl, settled⟩

/-- Bytes of a recorded width. -/
theorem widthBytes_toNat (width : Width) : (widthBytes width).toNat = width.bytes := by
  cases width <;> rfl

/-- A true record of an access that a passed report covers permits the access. -/
theorem permitted_of_recorded (lowered : List LoweredInstr) (physical : List PhysicalInstruction)
    (contract : CheckedContract) (abi : AbiConvention) (entry : String → Word)
    (memory : CheckedMemory) (position : Nat) (env : Environment) (state : State)
    (instr : LoweredInstr) (op : Op) (outcome : Outcome) (known : instr.op = some op)
    (executed : exec env instr state = some outcome)
    (true_ : ∀ effect ∈ effectsAt lowered physical contract abi position,
      EffectTrue entry env state instr op outcome effect)
    (exact : ∀ effect ∈ effectsAt lowered physical contract abi position,
      FitsExactly memory effect)
    (passed : (evaluateRegionAccess memory
      (collectMemoryEffectsWithCfg lowered physical contract abi)).status = .passed)
    (access : Access) (member : access ∈ outcome.accesses)
    (recorded : Recorded (effectsAt lowered physical contract abi position) access) :
    AccessPermitted entry memory access := by
  obtain ⟨_, same, ran⟩ := op_of_exec _ _ _ _ executed
  rw [known] at same
  cases same
  obtain ⟨effect, listed, mode, width, notFrame⟩ := recorded
  obtain ⟨row, judged, inside, allowed⟩ := settled_of_passed memory _ passed effect
    ((mem_collect_iff lowered physical contract abi effect).mpr ⟨position, listed⟩) notFrame
  obtain ⟨mem, other, operand, _, located, _, _, verdict⟩ := true_ effect listed
  have place : other.address = access.address := by
    obtain ⟨found, touched, here, _⟩ :=
      (mem_touched_iff _ _ _ _ (op.exec_accesses env state instr.operands outcome ran) access).mp member
    have one : found = mem := by
      obtain ⟨first, atFirst⟩ := List.mem_iff_getElem?.mp operand
      obtain ⟨second, atSecond⟩ := List.mem_iff_getElem?.mp (op.operand_of_touches _ _ _ touched)
      obtain rfl := mem_unique env instr state outcome executed first second mem found atFirst atSecond
      rw [atFirst] at atSecond
      cases atSecond
      rfl
    rw [one, located] at here
    exact Option.some.inj here
  intro lengths
  obtain ⟨region, declared, permits, bytes⟩ :=
    verdict memory (exact effect listed) row judged inside allowed lengths
  rw [mode] at permits
  rw [width, widthBytes_toNat, place] at bytes
  exact ⟨region, declared, permits, bytes⟩

/-- A run is recorded completely exactly when no executed instruction of it is one
of the overlooked ones. Where besides the facts are kept true and the regions fit
the recorded addresses, a passed status keeps every access outside the frame in a
region that permits it, and no region is accessed against its declaration.

Proof: completeness is decided instruction by instruction. A recorded access has
a settled row, the effect it was drawn from is true, and the one memory operand
of the instruction is both the recorded and the executed one. -/
theorem accesses_recorded_along_runs (lowered : List LoweredInstr)
    (physical : List PhysicalInstruction) (contract : CheckedContract) (abi : AbiConvention)
    (envs : Nat → Environment) (limit : Word) (start : State) :
    (RunRecorded lowered physical contract abi envs limit start ↔
      ∀ point, Transitions.Reaches (StraightStep lowered envs) ⟨0, start⟩ point →
        Attentive lowered envs limit start point) ∧
    ∀ entry memory, StraightLine lowered physical → EntryAgrees contract abi entry start →
      (evaluateRegionAccess memory
        (collectMemoryEffectsWithCfg lowered physical contract abi)).status = .passed →
      ∀ point, Transitions.Reaches
          (Transitions.Under (Judged lowered physical contract abi envs) (StraightStep lowered envs))
          ⟨0, start⟩ point →
        Judged lowered physical contract abi envs point →
        Attentive lowered envs limit start point →
        (∀ effect ∈ effectsAt lowered physical contract abi point.position,
          FitsExactly memory effect) →
        ∀ instr outcome, lowered[point.position]? = some instr →
          exec (envs point.position) instr point.state = some outcome →
          ∀ access ∈ outcome.accesses,
            Leaves (OwnFrame limit start) access.address access.width →
            AccessPermitted entry memory access ∧ ForbiddenUntouched entry memory access := by
  have step : ∀ (point : Point) instr op outcome, lowered[point.position]? = some instr →
      instr.op = some op → exec (envs point.position) instr point.state = some outcome →
      ((∀ access ∈ outcome.accesses, Leaves (OwnFrame limit start) access.address access.width →
        Recorded (effectsAt lowered physical contract abi point.position) access) ↔
        ¬ Overlooks (OwnFrame limit start) (envs point.position) point.state instr op) := by
    intro point instr op outcome found known executed
    simp only [effectsAt, found]
    exact accesses_recorded_iff _ _ _ _ _ instr op outcome known executed
  constructor
  · constructor
    · intro recorded point reached instr op outcome found known executed
      exact (step point instr op outcome found known executed).mp
        (recorded point reached instr outcome found executed)
    · intro attentive point reached instr outcome found executed
      obtain ⟨op, known, _⟩ := op_of_exec _ _ _ _ executed
      exact (step point instr op outcome found known executed).mpr
        (attentive point reached instr op outcome found known executed)
  · intro entry memory straight agrees passed point reached judged attentive exact instr outcome found
      executed access member leaves
    obtain ⟨op, known, _⟩ := op_of_exec _ _ _ _ executed
    have holds := factsHold_of_reaches lowered physical contract abi envs entry start agrees point
      reached
    have recorded := (step point instr op outcome found known executed).mpr
      (attentive instr op outcome found known executed) access member leaves
    have permitted : AccessPermitted entry memory access :=
      permitted_of_recorded lowered physical contract abi entry memory point.position _ _ instr op
        outcome known executed
        (fun effect listed => effectTrue_of_factsHold lowered physical contract abi envs entry straight
          point holds judged instr op outcome found known executed effect listed)
        exact passed access member recorded
    exact ⟨permitted, forbiddenUntouched_of_permitted entry memory access permitted⟩

/-- A stack value is popped into memory. -/
def popInto : List LoweredInstr :=
  [⟨"pop", .store, .b64, none, [.mem ⟨some Gp.rdi.full, none, 1, 0, .b64⟩]⟩]

def popIntoPhysical : List PhysicalInstruction :=
  [⟨0, [0x8F, 0x07], "pop", ["qword ptr [rdi]"], [], [], [], false⟩]

/-- Eight bytes that may be read. -/
def eightReadable : CheckedMemory := ⟨[⟨"input", "p", 0, .literal 8, .read⟩], []⟩

example : popIntoPhysical.map lower = popInto.map .lowered := by decide

/-- A read-only region is overwritten by code with a passed status. -/
theorem pop_overwrites_read_only_region :
    ¬ RunRecorded popInto popIntoPhysical readOneByte .sysV (fun _ => nothingOutside) 0
        sameRegisters ∧
      (evaluateRegionAccess eightReadable
        (collectMemoryEffectsWithCfg popInto popIntoPhysical readOneByte .sysV)).status = .passed ∧
      ∃ instr outcome, popInto[0]? = some instr ∧
        exec nothingOutside instr sameRegisters = some outcome ∧
        ⟨.store, 0x1000, .b64⟩ ∈ outcome.accesses ∧
        ∀ region ∈ eightReadable.regions, region.access = .read ∧
          InRegion (entryAssignment (fun _ => 0x1000) (fun _ => 0)) region 0x1000 := by
  have executed : exec nothingOutside
      ⟨"pop", .store, .b64, none, [.mem ⟨some Gp.rdi.full, none, 1, 0, .b64⟩]⟩ sameRegisters =
      some ⟨[⟨.store, 0x1000, .b64⟩],
        [.reg Gp.rsp.full 0x1008, .mem 0x1000 .b64 0], sameRegisters.flags, .goOn⟩ := rfl
  refine ⟨?_, by decide, _, _, rfl, executed, by simp, ?_⟩
  · intro recorded
    obtain ⟨effect, listed, mode, _⟩ := recorded ⟨0, sameRegisters⟩ .start _ _ rfl executed
      ⟨.store, 0x1000, .b64⟩ (by simp) ⟨0, by decide, by decide⟩
    have only : effectsAt popInto popIntoPhysical readOneByte .sysV 0 =
        [⟨.load, 8, .affine "p" 0, "pop", 0⟩] := by decide
    rw [only] at listed
    obtain rfl := List.mem_singleton.mp listed
    cases mode
  · intro region declared
    obtain rfl := List.mem_singleton.mp declared
    exact ⟨rfl, 0x1000, ⟨by decide, by decide⟩, by decide⟩

/-- The read of the one readable byte stays in its region. -/
theorem readByte_permitted :
    AccessPermitted (fun _ => 0x1000) oneByte ⟨.load, 0x1000, .b8⟩ ∧
      ForbiddenUntouched (fun _ => 0x1000) oneByte ⟨.load, 0x1000, .b8⟩ := by
  refine (accesses_recorded_along_runs [readByte] readBytePhysical readOneByte .sysV
    (fun _ => nothingOutside) 0 sameRegisters).2 (fun _ => 0x1000) oneByte readByte_straight
    readOneByte_agrees (by decide) ⟨0, sameRegisters⟩ .start readByte_judged ?_ ?_ readByte
    ⟨[⟨.load, 0x1000, .b8⟩], [.reg Gp.rax.low8 0], sameRegisters.flags, .goOn⟩ rfl rfl
    ⟨.load, 0x1000, .b8⟩ (by simp) ⟨0, by decide, by decide⟩
  · intro instr op outcome found known _
    cases found
    have move : op = .move := by
      have named : readByte.op = some .move := by decide
      rw [named] at known
      exact (Option.some.inj known).symm
    subst move
    rintro (⟨_, _, _, modifies⟩ | ⟨_, _, push⟩ | ⟨_, _, pop⟩ | ⟨mem, _, _, member, frameBased, _⟩)
    · cases modifies
    · cases push
    · cases pop
    · have only : mem = ⟨some Gp.rdi.full, none, 1, 0, .b8⟩ := by simpa [readByte] using member
      rw [only] at frameBased
      cases frameBased
  · intro effect listed
    have only : effectsAt [readByte] readBytePhysical readOneByte .sysV 0 =
        [⟨.load, 1, .affine "p" 0, "mov", 0⟩] := by decide
    rw [only] at listed
    obtain rfl := List.mem_singleton.mp listed
    apply Or.inr
    intro index baseParam offset _ same
    cases same
    exact ⟨_, List.mem_singleton_self _, rfl, rfl, 1, rfl, by decide, by decide⟩

end Semasm.Cli
