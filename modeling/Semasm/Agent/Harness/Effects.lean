import Semasm.Agent.Harness.Runs

/-!
# What the code of harnesses does

For each target: the loads put the arguments into their registers, the code of a vector makes
one call and stores its result, and the code behind the calls writes out the results and the
guarded buffers. Every size is one that the assembler takes, so the written size is the size.
-/

namespace Semasm.Agent.Harness

open Library Library.ByteMemory Library.Sections Machine Programs

section

variable {Register Instruction : Type} [DecidableEq Register]

omit [DecidableEq Register] in
/-- Loads leave memory, calls and output alone, put arguments into registers and change no other
register but the free ones. -/
structure Loaded (address : Label → Word) (free : Register → Prop)
    (passed : List (Register × Argument)) (state next : State Register) : Prop where
  memory : next.memory = state.memory
  calls : next.calls = state.calls
  output : next.output = state.output
  values : ∀ entry ∈ passed, next.registers entry.1 = entry.2.value address state.memory
  others : ∀ register, ¬ free register → (∀ entry ∈ passed, entry.1 ≠ register) →
    next.registers register = state.registers register

omit [DecidableEq Register] in
/-- Loads into different registers do not disturb each other. -/
theorem Loaded.flatMap {Entry : Type} (exec : Instruction → State Register → State Register)
    {address : Label → Word} {free : Register → Prop} (code : Entry → List Instruction)
    (what : Entry → Register × Argument) (entries : List Entry)
    (distinct : (entries.map (fun entry => (what entry).1)).Nodup)
    (bound : ∀ entry ∈ entries, ¬ free (what entry).1)
    (one : ∀ entry ∈ entries, ∀ state,
      Loaded address free [what entry] state (runInstructions exec (code entry) state))
    (state : State Register) :
    Loaded address free (entries.map what) state
      (runInstructions exec (entries.flatMap code) state) := by
  induction entries generalizing state with
  | nil => exact ⟨rfl, rfl, rfl, by simp, fun _ _ _ => rfl⟩
  | cons entry entries inductionHypothesis =>
    rw [List.map_cons, List.nodup_cons] at distinct
    have first := one entry List.mem_cons_self state
    have rest := inductionHypothesis distinct.2 (fun other member =>
      bound other (List.mem_cons_of_mem _ member)) (fun other member =>
      one other (List.mem_cons_of_mem _ member)) (runInstructions exec (code entry) state)
    rw [List.flatMap_cons, runInstructions_append]
    refine ⟨rest.memory.trans first.memory, rest.calls.trans first.calls,
      rest.output.trans first.output, ?_, ?_⟩
    · intro passed member
      rw [List.map_cons, List.mem_cons] at member
      rcases member with rfl | member
      · rw [rest.others _ (bound entry List.mem_cons_self)]
        · exact first.values _ (by simp)
        · intro other listed same
          obtain ⟨source, inside, rfl⟩ := List.mem_map.mp listed
          exact distinct.1 (same ▸ List.mem_map.mpr ⟨source, inside, rfl⟩)
      · rw [rest.values passed member, first.memory]
    · intro register bounded absent
      rw [rest.others register bounded fun other member =>
        absent other (by rw [List.map_cons]; exact List.mem_cons_of_mem _ member)]
      exact first.others register bounded fun other member =>
        absent other (by simp_all)

end

/-- A number that fits is kept by a lower half. -/
theorem lowHalf_toNat (size : Nat) (fits : size < 2 ^ 32) :
    (Amd64.lowHalf (BitVec.ofNat 64 size)).toNat = size := by
  simp only [Amd64.lowHalf, BitVec.toNat_setWidth, BitVec.toNat_ofNat]
  omega

/-- A word of memory is the one whose bytes are there. -/
theorem word_of_bytes (memory : Memory) (address value : Word)
    (read : readBytes memory address 8 = bytesOf value) : memory.word address = value := by
  have bytes : (bytesOf value).map UInt8.toBitVec = encode 8 value.toNat := by
    simp [bytesOf, wordBytes, Function.comp_def]
  rw [Memory.word, read, bytes, decode_encode 8 _ (by have := value.isLt; omega),
    BitVec.ofNat_toNat, BitVec.setWidth_eq]

/-- A stored word is found again. -/
theorem word_store (memory : Memory) (address value : Word) :
    (memory.store address value).word address = value :=
  word_of_bytes _ _ _ (readBytes_store memory address value)

namespace Amd64

variable {image : Image} {outside : Outside Register}

/-- A load of one argument. -/
theorem load_loaded (address : Label → Word) (passed : Register × Argument)
    (state : State Register) :
    Loaded address (fun _ => False) [passed] state
      (runInstructions (Instruction.exec outside address) (load passed.1 passed.2) state) := by
  obtain ⟨register, argument⟩ := passed
  cases argument <;>
    exact ⟨rfl, rfl, rfl, by simp [load, Instruction.exec, State.set, Argument.value],
      fun other _ different => Function.update_of_ne (by
        have := different _ (List.mem_singleton_self _)
        exact fun same => this same.symm) _ _⟩

/-- The loads of a call. -/
theorem loads_loaded (outside : Outside Register) (address : Label → Word) (arguments : List (Register × Argument))
    (distinct : (arguments.map Prod.fst).Nodup) (state : State Register) :
    Loaded address (fun _ => False) arguments state
      (runInstructions (Instruction.exec outside address)
        (arguments.flatMap (fun passed => load passed.1 passed.2)) state) := by
  have loaded := Loaded.flatMap (Instruction.exec outside address)
    (fun passed => load passed.1 passed.2) id arguments distinct
    (fun _ _ => id) (fun entry _ state => load_loaded address entry state) state
  rwa [List.map_id] at loaded

/-- The code of a vector makes one call. -/
theorem sysvCall_called (conventional : Conventional image Register.rsp outside)
    (arguments : List (Register × Argument)) (distinct : (arguments.map Prod.fst).Nodup)
    (bound : ∀ passed ∈ arguments, passed.1 ≠ .rsp) (index : Nat) (state : State Register) :
    ∃ call, Called image .rsp arguments index state
      (runInstructions (Instruction.exec outside image.address) (sysvCall arguments index) state)
      call := by
  have loaded := loads_loaded outside image.address arguments distinct state
  revert loaded
  unfold sysvCall
  rw [runInstructions_append]
  generalize runInstructions (Instruction.exec outside image.address)
    (arguments.flatMap (fun passed => load passed.1 passed.2)) state = ready
  intro loaded
  refine ⟨⟨ready.registers, ready.memory, (outside.routine ready).1 .rax, (outside.routine ready).2⟩,
    ?_, ?_, ?_, ⟨loaded.memory, loaded.values⟩, ?_, rfl⟩
  · exact congrArg (· ++ _) loaded.calls
  · exact loaded.output
  · exact (conventional.routineStack ready).trans (loaded.others _ id bound)
  · intro byte scratch data
    rw [← loaded.calls] at data
    exact (conventional.routineMemory ready byte scratch data).trans (by rw [loaded.memory])

/-- The code of a vector makes one call, below its shadow space. -/
theorem win64Call_called (conventional : Conventional image Register.rsp outside)
    (arguments : List (Register × Argument)) (distinct : (arguments.map Prod.fst).Nodup)
    (bound : ∀ passed ∈ arguments, passed.1 ≠ .rsp) (index : Nat) (state : State Register) :
    ∃ call, Called image .rsp arguments index state
      (runInstructions (Instruction.exec outside image.address) (win64Call arguments index) state)
      call := by
  obtain ⟨lowered, memory, calls, output, shadow, pointer⟩ : ∃ lowered : State Register,
      lowered.memory = state.memory ∧ lowered.calls = state.calls ∧
        lowered.output = state.output ∧
        lowered = Instruction.exec outside image.address (.sub 40) state ∧
        lowered.registers .rsp = state.registers .rsp - BitVec.ofNat 64 40 :=
    ⟨Instruction.exec outside image.address (.sub 40) state, rfl, rfl, rfl, rfl,
      by simp [Instruction.exec, State.set]⟩
  have loaded := loads_loaded outside image.address arguments distinct lowered
  revert loaded
  unfold win64Call
  rw [runInstructions_append, runInstructions_cons _ (Instruction.sub 40), ← shadow]
  generalize runInstructions (Instruction.exec outside image.address)
    (arguments.flatMap (fun passed => load passed.1 passed.2)) lowered = ready
  intro loaded
  refine ⟨⟨ready.registers, ready.memory, (outside.routine ready).1 .rax, (outside.routine ready).2⟩,
    ?_, ?_, ?_, ⟨loaded.memory.trans memory, ?_⟩, ?_, rfl⟩
  · exact congrArg (· ++ _) (loaded.calls.trans calls)
  · exact loaded.output.trans output
  · have below := (loaded.others .rsp id bound).trans pointer
    simp [Instruction.exec, State.set, State.store, State.call, conventional.routineStack, below]
  · rw [← memory]
    exact loaded.values
  · intro byte scratch data
    rw [← calls, ← loaded.calls] at data
    exact (conventional.routineMemory ready byte scratch data).trans (by rw [loaded.memory, memory])

/-- A region is written to the standard output. -/
theorem sysvWrite_wrote (conventional : Conventional image Register.rsp outside)
    {part : Word → Prop} (spared : ∀ byte, part byte → ¬ image.scratch byte) (label : Label)
    (size : Nat) (fits : size < 2 ^ 32) (state : State Register) :
    Wrote image part [(label, size)] state
      (runInstructions (Instruction.exec outside image.address) (sysvWrite label size) state) := by
  have one : lowHalf 1#64 = 1#64 := by decide
  refine ⟨rfl, fun byte member => conventional.serviceMemory _ byte (spared byte member), ?_⟩
  simp [sysvWrite, Instruction.exec, State.set, State.served, syscallOutput, one,
    lowHalf_toNat size fits, Image.shown]

/-- The end writes nothing. -/
theorem sysvExit_wrote (conventional : Conventional image Register.rsp outside)
    {part : Word → Prop} (spared : ∀ byte, part byte → ¬ image.scratch byte)
    (state : State Register) :
    Wrote image part [] state
      (runInstructions (Instruction.exec outside image.address) sysvExit state) := by
  have sixty : lowHalf 60#64 ≠ 1#64 := by decide
  refine ⟨rfl, fun byte member => conventional.serviceMemory _ byte (spared byte member), ?_⟩
  simp [sysvExit, Instruction.exec, State.set, State.served, syscallOutput, sixty]

/-- The assembler only takes sizes that fit. -/
theorem sysvWrite_fits (regions : List (Label × Nat))
    (accepted : ∀ instruction ∈ regions.flatMap (fun region => sysvWrite region.1 region.2),
      instruction.Accepted) : ∀ region ∈ regions, region.2 < 2 ^ 32 := by
  intro region member
  have fits : Instruction.Accepted (.movImm .rdx region.2) :=
    accepted _ (List.mem_flatMap.mpr ⟨region, member, by simp [sysvWrite]⟩)
  have below : (region.2 : Int) < 2 ^ 32 := fits.2
  omega

/-- Regions are written to the standard output, and the harness ends. -/
theorem sysvAfter_wrote (conventional : Conventional image Register.rsp outside)
    {part : Word → Prop} (spared : ∀ byte, part byte → ¬ image.scratch byte)
    (regions : List (Label × Nat)) (inside : ∀ region ∈ regions, image.RegionIn part region)
    (fits : ∀ region ∈ regions, region.2 < 2 ^ 32) (state : State Register) :
    Wrote image part regions state (runInstructions (Instruction.exec outside image.address)
      (regions.flatMap (fun region => sysvWrite region.1 region.2) ++ sysvExit) state) := by
  have writes := (Wrote.regions (fun _ => True) regions inside (fun region member state _ =>
    ⟨trivial, sysvWrite_wrote conventional spared region.1 region.2 (fits region member) state⟩)
    state trivial).2
  rw [runInstructions_append, ← List.append_nil regions]
  simpa using writes.append (sysvExit_wrote conventional spared _) (by simp)

/-- A lower half of a lower half. -/
theorem lowHalf_lowHalf (value : Word) : lowHalf (lowHalf value) = lowHalf value := by
  apply BitVec.eq_of_toNat_eq
  simp only [lowHalf, BitVec.toNat_setWidth]
  omega

/-- Where the last argument of `WriteFile` is put: in the eight bytes below the stack pointer. -/
theorem below_stack (pointer : Word) : pointer - 40#64 + 32#64 = pointer - 8#64 := by bv_omega

/-- The stack pointer, the bytes below it and, where it is kept, the handle of the standard
output. -/
structure Windows (image : Image) (outside : Outside Register) (pointer : Word)
    (state : State Register) : Prop where
  pointer : state.registers .rsp = pointer
  handle : state.memory.word (image.address .stdoutHandle) = outside.stdout

/-- A state in which all is set up for `WriteFile`. -/
structure Prepared (image : Image) (outside : Outside Register) (region : Label × Nat)
    (pointer : Word) (state ready : State Register) : Prop where
  calls : ready.calls = state.calls
  output : ready.output = state.output
  memory : ∀ byte, ¬ image.scratch byte → ready.memory byte = state.memory byte
  handle : ready.registers .rcx = outside.stdout
  buffer : ready.registers .rdx = image.address region.1
  size : ready.registers .r8 = lowHalf (BitVec.ofNat 64 region.2)
  stack : ready.registers .rsp = pointer - 40#64

/-- `WriteFile` writes the region out. -/
theorem Prepared.wrote {region : Label × Nat} {pointer : Word} {state ready : State Register}
    (prepared : Prepared image outside region pointer state ready)
    (conventional : Conventional image Register.rsp outside) {part : Word → Prop}
    (spared : ∀ byte, part byte → ¬ image.scratch byte) (inside : image.RegionIn part region)
    (fits : region.2 < 2 ^ 32) :
    Wrote image part [region] state (runInstructions (Instruction.exec outside image.address)
        [.callImport .writeFile, .add 40] ready) ∧
      (runInstructions (Instruction.exec outside image.address)
        [.callImport .writeFile, .add 40] ready).registers .rsp = pointer ∧
      ∀ byte, ¬ image.scratch byte → (runInstructions (Instruction.exec outside image.address)
        [.callImport .writeFile, .add 40] ready).memory byte = state.memory byte := by
  have memory : ∀ byte, ¬ image.scratch byte → (runInstructions
      (Instruction.exec outside image.address) [.callImport .writeFile, .add 40] ready).memory byte =
        state.memory byte := fun byte free =>
    (conventional.serviceMemory ready byte free).trans (prepared.memory byte free)
  refine ⟨⟨prepared.calls, fun byte member => memory byte (spared byte member), ?_⟩, ?_, memory⟩
  · have same := inside.shown ready.memory state.memory fun byte member =>
      prepared.memory byte (spared byte member)
    rw [List.flatMap_singleton, ← same]
    simp [Instruction.exec, Import.exec, State.set, State.served, writeFileOutput, prepared.handle,
      prepared.buffer, prepared.size, lowHalf_lowHalf, lowHalf_toNat _ fits, prepared.output,
      Image.shown]
  · simp [Instruction.exec, Import.exec, State.set, State.served, conventional.serviceStack,
      prepared.stack]

/-- A word of memory depends on its bytes. -/
theorem word_congr (memory other : Memory) (address : Word)
    (same : ∀ byte, Within address 8 byte → memory byte = other byte) :
    memory.word address = other.word address := by
  rw [Memory.word, Memory.word, readBytes_congr memory other address 8 (by omega) same]

/-- A region is written to the handle that is kept. -/
theorem win64Write_wrote (conventional : Conventional image Register.rsp outside)
    {part : Word → Prop} (spared : ∀ byte, part byte → ¬ image.scratch byte) (region : Label × Nat)
    (inside : image.RegionIn part region) (fits : region.2 < 2 ^ 32) {pointer : Word}
    (frame : ∀ byte, Within (pointer - 8#64) 8 byte → image.scratch byte)
    (own : ∀ byte, Within (image.address .stdoutHandle) 8 byte → ¬ image.scratch byte)
    (state : State Register) (windows : Windows image outside pointer state) :
    Windows image outside pointer (runInstructions (Instruction.exec outside image.address)
        (win64Write region.1 region.2) state) ∧
      Wrote image part [region] state (runInstructions (Instruction.exec outside image.address)
        (win64Write region.1 region.2) state) := by
  obtain ⟨ready, split, prepared⟩ : ∃ ready,
      runInstructions (Instruction.exec outside image.address) (win64Write region.1 region.2) state =
        runInstructions (Instruction.exec outside image.address)
          [.callImport .writeFile, .add 40] ready ∧
      Prepared image outside region pointer state ready := by
    refine ⟨_, rfl, rfl, rfl, ?_, ?_, ?_, ?_, ?_⟩
    · intro byte free
      refine store_elsewhere _ _ _ _ fun within => free (frame byte ?_)
      simpa [Instruction.exec, State.set, State.store, windows.pointer, below_stack] using within
    · simp [Instruction.exec, State.set, State.store, windows.handle]
    · simp [Instruction.exec, State.set, State.store]
    · simp [Instruction.exec, State.set, State.store]
    · simp [Instruction.exec, State.set, State.store, windows.pointer]
  obtain ⟨wrote, stack, memory⟩ := prepared.wrote conventional spared inside fits
  rw [split]
  exact ⟨⟨stack, (word_congr _ _ _ fun byte within => memory byte (own byte within)).trans
    windows.handle⟩, wrote⟩

/-- The handle of the standard output is found and kept. -/
theorem win64KeepHandle_kept (conventional : Conventional image Register.rsp outside)
    {part : Word → Prop} (spared : ∀ byte, part byte → ¬ image.scratch byte)
    (apart : ∀ byte, part byte → ¬ Within (image.address .stdoutHandle) 8 byte)
    (state : State Register) :
    Windows image outside (state.registers .rsp) (runInstructions
        (Instruction.exec outside image.address) win64KeepHandle state) ∧
      Wrote image part [] state (runInstructions (Instruction.exec outside image.address)
        win64KeepHandle state) := by
  refine ⟨⟨?_, ?_⟩, rfl, ?_, ?_⟩
  · simp [win64KeepHandle, Instruction.exec, Import.exec, State.set, State.served, State.store,
      conventional.serviceStack]
  · simp [win64KeepHandle, Instruction.exec, Import.exec, State.set, State.served, State.store,
      stdHandle, lowHalf_lowHalf, word_store]
  · intro byte member
    exact (store_elsewhere _ _ _ _ (apart byte member)).trans
      (conventional.serviceMemory _ byte (spared byte member))
  · simp [win64KeepHandle, Instruction.exec, Import.exec, State.set, State.served, State.store]

/-- The end writes nothing. -/
theorem win64Exit_wrote (conventional : Conventional image Register.rsp outside)
    {part : Word → Prop} (spared : ∀ byte, part byte → ¬ image.scratch byte)
    (state : State Register) :
    Wrote image part [] state
      (runInstructions (Instruction.exec outside image.address) win64Exit state) := by
  refine ⟨rfl, fun byte member => conventional.serviceMemory _ byte (spared byte member), ?_⟩
  simp [win64Exit, Instruction.exec, Import.exec, State.set, State.served]

/-- The assembler only takes sizes that fit. -/
theorem win64Write_fits (regions : List (Label × Nat))
    (accepted : ∀ instruction ∈ regions.flatMap (fun region => win64Write region.1 region.2),
      instruction.Accepted) : ∀ region ∈ regions, region.2 < 2 ^ 32 := by
  intro region member
  have fits : Instruction.Accepted (.movImm .r8 region.2) :=
    accepted _ (List.mem_flatMap.mpr ⟨region, member, by simp [win64Write]⟩)
  have below : (region.2 : Int) < 2 ^ 32 := fits.2
  omega

/-- Regions are written to the handle that is found first, and the harness ends. -/
theorem win64Streams_wrote (conventional : Conventional image Register.rsp outside)
    {part : Word → Prop} (spared : ∀ byte, part byte → ¬ image.scratch byte)
    (apart : ∀ byte, part byte → ¬ Within (image.address .stdoutHandle) 8 byte)
    (own : ∀ byte, Within (image.address .stdoutHandle) 8 byte → ¬ image.scratch byte)
    (regions : List (Label × Nat)) (inside : ∀ region ∈ regions, image.RegionIn part region)
    (fits : ∀ region ∈ regions, region.2 < 2 ^ 32) (state : State Register)
    (frame : ∀ byte, Within (state.registers .rsp - 8#64) 8 byte → image.scratch byte) :
    Wrote image part regions state (runInstructions (Instruction.exec outside image.address)
      (win64KeepHandle ++ (regions.flatMap (fun region => win64Write region.1 region.2) ++
        win64Exit)) state) := by
  obtain ⟨windows, first⟩ := win64KeepHandle_kept conventional spared apart state
  have writes := (Wrote.regions (Windows image outside (state.registers .rsp)) regions inside
    (fun region member state windows => win64Write_wrote conventional spared region
      (inside region member) (fits region member) frame own state windows) _ windows).2
  rw [runInstructions_append, runInstructions_append]
  simpa using (first.append writes inside).append (win64Exit_wrote conventional spared _) (by simp)

/-- The results are written to the handle that was just found. -/
theorem win64Words_wrote (conventional : Conventional image Register.rsp outside)
    {part : Word → Prop} (spared : ∀ byte, part byte → ¬ image.scratch byte)
    (vectors : List TestVector) (inside : image.RegionIn part (.results, vectors.length * 8))
    (fits : vectors.length * 8 < 2 ^ 32) (state : State Register)
    (frame : ∀ byte, Within (state.registers .rsp - 8#64) 8 byte → image.scratch byte) :
    Wrote image part [(.results, vectors.length * 8)] state
      (runInstructions (Instruction.exec outside image.address)
        (instructionsOf (win64Words vectors)) state) := by
  have split : instructionsOf (win64Words vectors) =
      [.sub 40, .movImm .rcx (-11), .callImport .getStdHandle, .movReg .rcx .rax,
        .lea .rdx .results, .movImm .r8 ((vectors.length * 8 : Nat) : Int), .lea .r9 .written,
        .movStack 32 0] ++ ([.callImport .writeFile, .add 40] ++ win64Exit) := rfl
  rw [split, runInstructions_append, runInstructions_append]
  generalize vectors.length * 8 = size at inside fits ⊢
  have prepared : Prepared image outside (.results, size) (state.registers .rsp) state
      (runInstructions (Instruction.exec outside image.address)
        [.sub 40, .movImm .rcx (-11), .callImport .getStdHandle, .movReg .rcx .rax,
          .lea .rdx .results, .movImm .r8 size, .lea .r9 .written, .movStack 32 0] state) := by
    constructor
    · simp [Instruction.exec, Import.exec, State.set, State.served, State.store]
    · simp [Instruction.exec, Import.exec, State.set, State.served, State.store]
    · intro byte free
      refine (store_elsewhere _ _ _ _ fun within => free (frame byte ?_)).trans
        (conventional.serviceMemory _ byte free)
      simpa [Instruction.exec, Import.exec, State.set, State.served, conventional.serviceStack,
        below_stack] using within
    · simp [Instruction.exec, Import.exec, State.set, State.served, State.store, stdHandle,
        lowHalf_lowHalf]
    · simp [Instruction.exec, Import.exec, State.set, State.served, State.store]
    · simp [Instruction.exec, Import.exec, State.set, State.served, State.store]
    · simp [Instruction.exec, Import.exec, State.set, State.served, State.store,
        conventional.serviceStack]
  obtain ⟨wrote, _⟩ := prepared.wrote conventional spared inside fits
  simpa using wrote.append (win64Exit_wrote conventional spared _) (by simp)

end Amd64

namespace Arm64

variable {image : Image} {outside : Outside Register}

/-- The loads of a call. -/
theorem loads_loaded (outside : Outside Register) (address : Label → Word) (arguments : List (Register × Argument))
    (distinct : (arguments.map Prod.fst).Nodup) (state : State Register) :
    Loaded address (fun _ => False) arguments state
      (runInstructions (Instruction.exec outside address)
        (arguments.flatMap (fun passed => load passed.1 passed.2)) state) := by
  have one : ∀ passed ∈ arguments, ∀ state : State Register,
      Loaded address (fun _ => False) [id passed] state
        (runInstructions (Instruction.exec outside address) (load passed.1 passed.2) state) := by
    rintro ⟨register, argument⟩ _ state
    cases argument <;>
      exact ⟨rfl, rfl, rfl, by simp [load, Instruction.exec, State.set, Argument.value],
        fun other _ different => by
          have apart : other ≠ register := fun same =>
            different _ (List.mem_singleton_self _) same.symm
          simp [load, Instruction.exec, State.set, apart]⟩
  have loaded := Loaded.flatMap (Instruction.exec outside address)
    (fun passed => load passed.1 passed.2) id arguments distinct
    (fun _ _ => id) one state
  rwa [List.map_id] at loaded

/-- The code of a vector makes one call. -/
theorem aapcs64Call_called (conventional : Conventional image Register.sp outside)
    (through : Register) (apart : through ≠ .x0 ∧ through ≠ .sp)
    (arguments : List (Register × Argument)) (distinct : (arguments.map Prod.fst).Nodup)
    (bound : ∀ passed ∈ arguments, passed.1 ≠ .sp) (index : Nat) (state : State Register) :
    ∃ call, Called image .sp arguments index state
      (runInstructions (Instruction.exec outside image.address)
        (aapcs64Call through arguments index) state) call := by
  have loaded := loads_loaded outside image.address arguments distinct state
  revert loaded
  unfold aapcs64Call
  rw [runInstructions_append]
  generalize runInstructions (Instruction.exec outside image.address)
    (arguments.flatMap (fun passed => load passed.1 passed.2)) state = ready
  intro loaded
  refine ⟨⟨ready.registers, ready.memory, (outside.routine ready).1 .x0, (outside.routine ready).2⟩,
    ?_, ?_, ?_, ⟨loaded.memory, loaded.values⟩, ?_, ?_⟩
  · exact congrArg (· ++ _) loaded.calls
  · exact loaded.output
  · simpa [Instruction.exec, State.set, State.store, State.call, apart.2.symm] using
      (conventional.routineStack ready).trans (loaded.others _ id bound)
  · intro byte scratch data
    rw [← loaded.calls] at data
    exact (conventional.routineMemory ready byte scratch data).trans (by rw [loaded.memory])
  · simp [Instruction.exec, State.set, State.store, State.call, apart.1.symm, Image.result]

/-- A region is written to the standard output. -/
theorem aapcs64Write_wrote (conventional : Conventional image Register.sp outside)
    {part : Word → Prop} (spared : ∀ byte, part byte → ¬ image.scratch byte) (label : Label)
    (size : Nat) (fits : size < 2 ^ 64) (state : State Register) :
    Wrote image part [(label, size)] state
      (runInstructions (Instruction.exec outside image.address) (aapcs64Write label size) state) := by
  refine ⟨rfl, fun byte member => conventional.serviceMemory _ byte (spared byte member), ?_⟩
  have whole : size % 18446744073709551616 = size := Nat.mod_eq_of_lt fits
  simp [aapcs64Write, Instruction.exec, State.set, State.served, svcOutput, whole, Image.shown]

/-- The end writes nothing. -/
theorem aapcs64Exit_wrote (conventional : Conventional image Register.sp outside)
    {part : Word → Prop} (spared : ∀ byte, part byte → ¬ image.scratch byte)
    (state : State Register) :
    Wrote image part [] state
      (runInstructions (Instruction.exec outside image.address) aapcs64Exit state) := by
  refine ⟨rfl, fun byte member => conventional.serviceMemory _ byte (spared byte member), ?_⟩
  simp [aapcs64Exit, Instruction.exec, State.set, State.served, svcOutput]

/-- The assembler only takes sizes that fit. -/
theorem aapcs64Write_fits (regions : List (Label × Nat))
    (accepted : ∀ instruction ∈ regions.flatMap (fun region => aapcs64Write region.1 region.2),
      instruction.Accepted) : ∀ region ∈ regions, region.2 < 2 ^ 64 := by
  intro region member
  have fits : Instruction.Accepted (.movImm .x2 region.2) :=
    accepted _ (List.mem_flatMap.mpr ⟨region, member, by simp [aapcs64Write]⟩)
  exact fits

/-- Regions are written to the standard output, and the harness ends. -/
theorem aapcs64After_wrote (conventional : Conventional image Register.sp outside)
    {part : Word → Prop} (spared : ∀ byte, part byte → ¬ image.scratch byte)
    (regions : List (Label × Nat)) (inside : ∀ region ∈ regions, image.RegionIn part region)
    (fits : ∀ region ∈ regions, region.2 < 2 ^ 64) (state : State Register) :
    Wrote image part regions state (runInstructions (Instruction.exec outside image.address)
      (regions.flatMap (fun region => aapcs64Write region.1 region.2) ++ aapcs64Exit) state) := by
  have writes := (Wrote.regions (fun _ => True) regions inside (fun region member state _ =>
    ⟨trivial, aapcs64Write_wrote conventional spared region.1 region.2 (fits region member) state⟩)
    state trivial).2
  rw [runInstructions_append, ← List.append_nil regions]
  simpa using writes.append (aapcs64Exit_wrote conventional spared _) (by simp)

end Arm64

namespace Rv64

variable {image : Image} {outside : Outside Register}

/-- Arguments with the bases they are read through. -/
def withBases (base : Register → Register) (arguments : List (Register × Argument)) :
    List (Register × Register × Argument) :=
  arguments.map (fun passed => (base passed.1, passed))

@[simp] theorem withBases_snd (base : Register → Register)
    (arguments : List (Register × Argument)) :
    (withBases base arguments).map Prod.snd = arguments := by
  simp [withBases, Function.comp_def]

@[simp] theorem withBases_registers (base : Register → Register)
    (arguments : List (Register × Argument)) :
    (withBases base arguments).map (fun passed => passed.2.1) = arguments.map Prod.fst := by
  simp [withBases, Function.comp_def]

/-- A base is the register itself or the one that no argument is passed in. -/
def Based (passed : Register × Register × Argument) : Prop :=
  (passed.1 = passed.2.1 ∨ passed.1 = .t0) ∧ passed.2.1 ≠ .t0

/-- The loads of a call. -/
theorem loads_loaded (outside : Outside Register) (address : Label → Word) (arguments : List (Register × Register × Argument))
    (distinct : (arguments.map (fun passed => passed.2.1)).Nodup)
    (based : ∀ passed ∈ arguments, Based passed) (state : State Register) :
    Loaded address (fun register => register = .t0) (arguments.map Prod.snd) state
      (runInstructions (Instruction.exec outside address)
        (arguments.flatMap (fun passed => load passed.1 passed.2.1 passed.2.2)) state) := by
  have one : ∀ passed ∈ arguments, ∀ state : State Register,
      Loaded address (fun register => register = .t0) [passed.2] state
        (runInstructions (Instruction.exec outside address)
          (load passed.1 passed.2.1 passed.2.2) state) := by
    rintro ⟨base, register, argument⟩ member state
    obtain ⟨through, bounded⟩ : (base = register ∨ base = .t0) ∧ register ≠ .t0 := based _ member
    rcases through with rfl | rfl
    · cases argument <;>
        exact ⟨rfl, rfl, rfl, by simp [load, Instruction.exec, State.set, Argument.value],
          fun other _ different => by
            have away : other ≠ base := fun same =>
              different _ (List.mem_singleton_self _) same.symm
            simp [load, Instruction.exec, State.set, away]⟩
    · cases argument <;>
        exact ⟨rfl, rfl, rfl, by simp [load, Instruction.exec, State.set, Argument.value],
          fun other apart different => by
            have away : other ≠ register := fun same =>
              different _ (List.mem_singleton_self _) same.symm
            simp [load, Instruction.exec, State.set, away, show other ≠ .t0 from apart]⟩
  exact Loaded.flatMap (Instruction.exec outside address)
    (fun passed => load passed.1 passed.2.1 passed.2.2) Prod.snd arguments distinct
    (fun passed member => (based passed member).2) one state

/-- The code of a vector makes one call. -/
theorem riscvCall_called (conventional : Conventional image Register.sp outside)
    (arguments : List (Register × Register × Argument))
    (distinct : (arguments.map (fun passed => passed.2.1)).Nodup)
    (based : ∀ passed ∈ arguments, Based passed) (bound : ∀ passed ∈ arguments, passed.2.1 ≠ .sp)
    (index : Nat) (state : State Register) :
    ∃ call, Called image .sp (arguments.map Prod.snd) index state
      (runInstructions (Instruction.exec outside image.address) (riscvCall arguments index) state)
      call := by
  have loaded := loads_loaded outside image.address arguments distinct based state
  revert loaded
  unfold riscvCall
  rw [runInstructions_append]
  generalize runInstructions (Instruction.exec outside image.address)
    (arguments.flatMap (fun passed => load passed.1 passed.2.1 passed.2.2)) state = ready
  intro loaded
  have pointer : ready.registers .sp = state.registers .sp := by
    refine loaded.others _ (by decide) fun entry member => ?_
    obtain ⟨passed, listed, rfl⟩ := List.mem_map.mp member
    exact bound passed listed
  refine ⟨⟨ready.registers, ready.memory, (outside.routine ready).1 .a0, (outside.routine ready).2⟩,
    ?_, ?_, ?_, ⟨loaded.memory, loaded.values⟩, ?_, ?_⟩
  · exact congrArg (· ++ _) loaded.calls
  · exact loaded.output
  · simpa [Instruction.exec, State.set, State.store, State.call] using
      (conventional.routineStack ready).trans pointer
  · intro byte scratch data
    rw [← loaded.calls] at data
    exact (conventional.routineMemory ready byte scratch data).trans (by rw [loaded.memory])
  · simp [Instruction.exec, State.set, State.store, State.call, Image.result]

/-- The code of a vector makes one call, whatever the arguments are read through. -/
theorem riscvCall_withBases (conventional : Conventional image Register.sp outside)
    (base : Register → Register) (through : ∀ register, base register = register ∨ base register = .t0)
    (arguments : List (Register × Argument)) (distinct : (arguments.map Prod.fst).Nodup)
    (bound : ∀ passed ∈ arguments, passed.1 ≠ .sp) (free : ∀ passed ∈ arguments, passed.1 ≠ .t0)
    (index : Nat) (state : State Register) :
    ∃ call, Called image .sp arguments index state
      (runInstructions (Instruction.exec outside image.address)
        (riscvCall (withBases base arguments) index) state) call := by
  have called := riscvCall_called conventional (withBases base arguments) (by simpa using distinct)
    (fun passed member => by
      obtain ⟨entry, listed, rfl⟩ := List.mem_map.mp member
      exact ⟨through entry.1, free entry listed⟩)
    (fun passed member => by
      obtain ⟨entry, listed, rfl⟩ := List.mem_map.mp member
      exact bound entry listed) index state
  rwa [withBases_snd] at called

/-- A region is written to the standard output. -/
theorem riscvWrite_wrote (conventional : Conventional image Register.sp outside)
    {part : Word → Prop} (spared : ∀ byte, part byte → ¬ image.scratch byte) (label : Label)
    (size : Nat) (fits : size < 2 ^ 64) (state : State Register) :
    Wrote image part [(label, size)] state
      (runInstructions (Instruction.exec outside image.address) (riscvWrite label size) state) := by
  refine ⟨rfl, fun byte member => conventional.serviceMemory _ byte (spared byte member), ?_⟩
  have whole : size % 18446744073709551616 = size := Nat.mod_eq_of_lt fits
  simp [riscvWrite, Instruction.exec, State.set, State.served, ecallOutput, whole, Image.shown]

/-- The end writes nothing. -/
theorem riscvExit_wrote (conventional : Conventional image Register.sp outside)
    {part : Word → Prop} (spared : ∀ byte, part byte → ¬ image.scratch byte)
    (state : State Register) :
    Wrote image part [] state
      (runInstructions (Instruction.exec outside image.address) riscvExit state) := by
  refine ⟨rfl, fun byte member => conventional.serviceMemory _ byte (spared byte member), ?_⟩
  simp [riscvExit, Instruction.exec, State.set, State.served, ecallOutput]

/-- The assembler only takes sizes that fit. -/
theorem riscvWrite_fits (regions : List (Label × Nat))
    (accepted : ∀ instruction ∈ regions.flatMap (fun region => riscvWrite region.1 region.2),
      instruction.Accepted) : ∀ region ∈ regions, region.2 < 2 ^ 64 := by
  intro region member
  have fits : Instruction.Accepted (.li .a2 region.2) :=
    accepted _ (List.mem_flatMap.mpr ⟨region, member, by simp [riscvWrite]⟩)
  exact fits

/-- Regions are written to the standard output, and the harness ends. -/
theorem riscvAfter_wrote (conventional : Conventional image Register.sp outside)
    {part : Word → Prop} (spared : ∀ byte, part byte → ¬ image.scratch byte)
    (regions : List (Label × Nat)) (inside : ∀ region ∈ regions, image.RegionIn part region)
    (fits : ∀ region ∈ regions, region.2 < 2 ^ 64) (state : State Register) :
    Wrote image part regions state (runInstructions (Instruction.exec outside image.address)
      (regions.flatMap (fun region => riscvWrite region.1 region.2) ++ riscvExit) state) := by
  have writes := (Wrote.regions (fun _ => True) regions inside (fun region member state _ =>
    ⟨trivial, riscvWrite_wrote conventional spared region.1 region.2 (fits region member) state⟩)
    state trivial).2
  rw [runInstructions_append, ← List.append_nil regions]
  simpa using writes.append (riscvExit_wrote conventional spared _) (by simp)

end Rv64

end Semasm.Agent.Harness
