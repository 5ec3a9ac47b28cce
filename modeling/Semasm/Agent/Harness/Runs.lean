import Semasm.Agent.Harness.Generators

/-!
# Runs of harnesses

A harness in memory: every vector has its data in a place of its own, the results have theirs,
and calls of the routine and the system may use some scratch memory besides. A routine that
changes nothing but the data of its own vector and the scratch memory is called with what the
data section holds, and its results and what it leaves are kept until they are written.
-/

namespace Semasm.Agent.Harness

open Library Library.ByteMemory Library.Sections Machine

/-- A harness in memory: the address of each name, what memory holds at the start, where the data
of each vector starts, and the memory that calls may use. -/
structure Image where
  address : Label → Word
  memory : Memory
  place : Nat → Nat
  scratch : Word → Prop

namespace Image

variable (image : Image)

/-- The data of a vector. -/
def Data (index : Nat) (byte : Word) : Prop :=
  Between (image.place index) (image.place (index + 1)) byte

/-- The address of a result. -/
def result (index : Nat) : Word := image.address .results + BitVec.ofNat 64 (index * 8)

/-- The bytes of the results. -/
def Results (count : Nat) (byte : Word) : Prop := Within (image.address .results) (count * 8) byte

/-- The data of the vectors, the results and the scratch memory have no byte in common. -/
structure Apart (count : Nat) : Prop where
  ordered : ∀ index < count, image.place index ≤ image.place (index + 1)
  fits : image.place count ≤ 2 ^ 64
  resultsFit : (image.address .results).toNat + count * 8 ≤ 2 ^ 64
  data_results : ∀ index < count, ∀ byte, image.Data index byte → ¬ image.Results count byte
  scratch_data : ∀ index < count, ∀ byte, image.Data index byte → ¬ image.scratch byte
  scratch_results : ∀ byte, image.Results count byte → ¬ image.scratch byte

variable {image}

/-- Later vectors have their data behind. -/
theorem Apart.place_le {count : Nat} (apart : image.Apart count) {first second : Nat}
    (later : first ≤ second) (inside : second ≤ count) :
    image.place first ≤ image.place second := by
  induction second, later using Nat.le_induction with
  | base => exact Nat.le_refl _
  | succ second _ inductionHypothesis =>
    exact Nat.le_trans (inductionHypothesis (by omega)) (apart.ordered second (by omega))

/-- Different vectors have no data in common. -/
theorem Apart.data_data {count : Nat} (apart : image.Apart count) {first second : Nat}
    (different : first ≠ second) (inside : first < count) (other : second < count) {byte : Word}
    (member : image.Data first byte) : ¬ image.Data second byte := by
  intro shared
  rcases Nat.lt_or_gt_of_ne different with before | before
  · have behind := apart.place_le (show first + 1 ≤ second from before) (by omega)
    exact absurd member.2 (Nat.not_lt.mpr (Nat.le_trans behind shared.1))
  · have behind := apart.place_le (show second + 1 ≤ first from before) (by omega)
    exact absurd shared.2 (Nat.not_lt.mpr (Nat.le_trans behind member.1))

/-- The distance of a byte of a result from the first result. -/
theorem Apart.result_within {count : Nat} (apart : image.Apart count) {index : Nat}
    (inside : index < count) (byte : Word) :
    Within (image.result index) 8 byte ↔
      Between ((image.address .results).toNat + index * 8)
        ((image.address .results).toNat + index * 8 + 8) byte := by
  have placed : image.result index =
      BitVec.ofNat 64 ((image.address .results).toNat + index * 8) := by
    rw [result, BitVec.ofNat_add, BitVec.ofNat_toNat, BitVec.setWidth_eq]
  have room := apart.resultsFit
  rw [placed, within_iff_between _ _ _ (by omega)]

/-- A result is one of the results. -/
theorem Apart.result_results {count : Nat} (apart : image.Apart count) {index : Nat}
    (inside : index < count) {byte : Word} (within : Within (image.result index) 8 byte) :
    image.Results count byte := by
  have room := apart.resultsFit
  rw [apart.result_within inside] at within
  have placed : image.address .results = BitVec.ofNat 64 (image.address .results).toNat := by simp
  rw [Results, placed, within_iff_between _ _ _ (by omega)]
  exact ⟨by have := within.1; omega, by have := within.2; omega⟩

/-- Different results have no byte in common. -/
theorem Apart.result_result {count : Nat} (apart : image.Apart count) {first second : Nat}
    (different : first ≠ second) (inside : first < count) (other : second < count) {byte : Word}
    (within : Within (image.result first) 8 byte) : ¬ Within (image.result second) 8 byte := by
  rw [apart.result_within inside] at within
  rw [apart.result_within other]
  rintro ⟨low, high⟩
  have := within.1
  have := within.2
  omega

end Image

/-- A routine and a system that keep the stack pointer and change no memory but the scratch
memory and, for the routine, the data of the vector it is called for. -/
structure Conventional {Register : Type} (image : Image) (stack : Register)
    (outside : Outside Register) : Prop where
  routineStack : ∀ state, (outside.routine state).1 stack = state.registers stack
  routineMemory : ∀ state byte, ¬ image.scratch byte → ¬ image.Data state.calls.length byte →
    (outside.routine state).2 byte = state.memory byte
  serviceStack : ∀ state, (outside.service state).1 stack = state.registers stack
  serviceMemory : ∀ state byte, ¬ image.scratch byte →
    (outside.service state).2 byte = state.memory byte

section

variable {Register : Type} (image : Image) (stack : Register)

/-- The call was made with the arguments, in the memory of the state. -/
structure EnteredWith (arguments : List (Register × Argument)) (state : State Register)
    (call : Call Register) : Prop where
  memory : call.memory = state.memory
  values : ∀ passed ∈ arguments,
    call.registers passed.1 = passed.2.value image.address state.memory

/-- What the code of a vector does: one call, whose result is stored. -/
structure Called (arguments : List (Register × Argument)) (index : Nat)
    (state next : State Register) (call : Call Register) : Prop where
  calls : next.calls = state.calls ++ [call]
  output : next.output = state.output
  kept : next.registers stack = state.registers stack
  entered : EnteredWith image arguments state call
  left : ∀ byte, ¬ image.scratch byte → ¬ image.Data state.calls.length byte →
    call.left byte = state.memory byte
  stored : next.memory = call.left.store (image.result index) call.returned

/-- The vectors that were called for have their results and what the calls left in memory, the
others have their data as it was. -/
structure Progress (arguments : Nat → List (Register × Argument)) (count : Nat)
    (pointer : Word) (state : State Register) : Prop where
  within : state.calls.length ≤ count
  output : state.output = []
  kept : state.registers stack = pointer
  fresh : ∀ index, state.calls.length ≤ index → index < count → ∀ byte, image.Data index byte →
    state.memory byte = image.memory byte
  result : ∀ index call, state.calls[index]? = some call →
    readBytes state.memory (image.result index) 8 = bytesOf call.returned
  left : ∀ index call, state.calls[index]? = some call → ∀ byte, image.Data index byte →
    state.memory byte = call.left byte
  entered : ∀ index call, state.calls[index]? = some call →
    (∀ byte, image.Data index byte → call.memory byte = image.memory byte) ∧
    ∀ passed ∈ arguments index,
      call.registers passed.1 = passed.2.value image.address call.memory

variable {image} {stack}

@[simp] theorem bytesOf_length (word : Word) : (bytesOf word).length = 8 := by simp [bytesOf]

/-- A stored word reads back. -/
theorem readBytes_store (memory : Memory) (address value : Word) :
    readBytes (memory.store address value) address 8 = bytesOf value := by
  have read := readBytes_written memory address (bytesOf value) (by simp)
  rw [bytesOf_length] at read
  exact read

/-- A store leaves the bytes elsewhere alone. -/
theorem store_elsewhere (memory : Memory) (address value byte : Word)
    (elsewhere : ¬ Within address 8 byte) : memory.store address value byte = memory byte :=
  writeBytes_outside memory address (bytesOf value) byte (by simp) (by simpa using elsewhere)

/-- The next call goes on with the run.

Proof: the call changes only the data of its vector and scratch memory, and the store only the
result of its vector; all others keep their data and their results. -/
theorem Progress.step {arguments : Nat → List (Register × Argument)} {count : Nat} {pointer : Word}
    {state next : State Register} {call : Call Register} (apart : image.Apart count)
    (progress : Progress image stack arguments count pointer state)
    (inside : state.calls.length < count)
    (called : Called image stack (arguments state.calls.length) state.calls.length state next call) :
    Progress image stack arguments count pointer next := by
  have others : ∀ index, index < count → index ≠ state.calls.length → ∀ byte,
      image.Data index byte → next.memory byte = state.memory byte := by
    intro index bound different byte member
    rw [called.stored, store_elsewhere]
    · exact called.left byte (apart.scratch_data index bound byte member)
        (apart.data_data different bound inside member)
    · exact fun within => apart.data_results index bound byte member
        (apart.result_results inside within)
  have own : ∀ byte, image.Data state.calls.length byte → next.memory byte = call.left byte := by
    intro byte member
    rw [called.stored, store_elsewhere]
    exact fun within => apart.data_results _ inside byte member (apart.result_results inside within)
  have split : ∀ index other, next.calls[index]? = some other →
      (index < state.calls.length ∧ state.calls[index]? = some other) ∨
        (index = state.calls.length ∧ other = call) := by
    intro index other there
    rw [called.calls, List.getElem?_append] at there
    split at there
    next before => exact Or.inl ⟨before, there⟩
    next behind =>
      right
      have last := (List.getElem?_eq_some_iff.mp there).1
      simp only [List.length_singleton] at last
      have here : index = state.calls.length := by omega
      subst here
      simpa using there.symm
  have length : next.calls.length = state.calls.length + 1 := by simp [called.calls]
  constructor
  · omega
  · rw [called.output, progress.output]
  · rw [called.kept, progress.kept]
  · intro index behind bound byte member
    rw [others index bound (by omega) byte member]
    exact progress.fresh index (by omega) bound byte member
  · intro index other there
    rcases split index other there with ⟨before, there⟩ | ⟨rfl, rfl⟩
    · rw [← progress.result index other there]
      refine readBytes_congr _ _ _ _ (by omega) fun byte within => ?_
      have results := apart.result_results (by omega) within
      rw [called.stored, store_elsewhere]
      · exact called.left byte (apart.scratch_results byte results)
          fun member => apart.data_results _ inside byte member results
      · exact apart.result_result (by omega) (by omega) inside within
    · rw [called.stored, readBytes_store]
  · intro index other there byte member
    rcases split index other there with ⟨before, there⟩ | ⟨rfl, rfl⟩
    · rw [others index (by omega) (by omega) byte member]
      exact progress.left index other there byte member
    · exact own byte member
  · intro index other there
    rcases split index other there with ⟨before, there⟩ | ⟨rfl, rfl⟩
    · exact progress.entered index other there
    · rw [called.entered.memory]
      exact ⟨progress.fresh _ (Nat.le_refl _) inside, called.entered.values⟩

/-- The arguments of a vector by its number. -/
def argumentsOf (arguments : Nat → List Json → List (Register × Argument))
    (vectors : List TestVector) (index : Nat) : List (Register × Argument) :=
  (vectors[index]?.map (fun vector => arguments index vector.inputs)).getD []

/-- The calls of all vectors make one run. -/
theorem Progress.calls {Instruction : Type} {exec : Instruction → State Register → State Register}
    {call : Nat → List Json → List Instruction}
    {arguments : Nat → List Json → List (Register × Argument)} {pointer : Word}
    (vectors : List TestVector) (apart : image.Apart vectors.length)
    (effect : ∀ index vector state, vectors[index]? = some vector → state.calls.length = index →
      ∃ made, Called image stack (arguments index vector.inputs) index state
        (runInstructions exec (call index vector.inputs) state) made)
    (state : State Register) (start : state.calls = [])
    (progress : Progress image stack (argumentsOf arguments vectors) vectors.length pointer state) :
    Progress image stack (argumentsOf arguments vectors) vectors.length pointer
        (runInstructions exec (instructionsOf (Programs.calls vectors call)) state) ∧
      (runInstructions exec (instructionsOf (Programs.calls vectors call)) state).calls.length =
        vectors.length := by
  have general : ∀ rest before state, vectors = before ++ rest →
      state.calls.length = before.length →
      Progress image stack (argumentsOf arguments vectors) vectors.length pointer state →
      Progress image stack (argumentsOf arguments vectors) vectors.length pointer
          (runInstructions exec (instructionsOf ((rest.zipIdx before.length).flatMap
            (Programs.callLines call))) state) ∧
        (runInstructions exec (instructionsOf ((rest.zipIdx before.length).flatMap
            (Programs.callLines call))) state).calls.length = vectors.length := by
    intro rest
    induction rest with
    | nil =>
      intro before state split made progress
      exact ⟨progress, by simpa [split] using made⟩
    | cons vector rest inductionHypothesis =>
      intro before state split made progress
      have there : vectors[before.length]? = some vector := by simp [split]
      obtain ⟨one, called⟩ := effect before.length vector state there made
      have own : arguments before.length vector.inputs =
          argumentsOf arguments vectors state.calls.length := by
        rw [made, argumentsOf, there, Option.map_some, Option.getD_some]
      have inside : state.calls.length < vectors.length := by
        rw [made, split]
        simp
      have count := congrArg List.length called.calls
      rw [List.length_append, List.length_singleton] at count
      rw [own, ← made] at called
      have later := inductionHypothesis (before ++ [vector]) _ (by simp [split])
        (by simp [count, made]) (made ▸ progress.step apart inside called)
      rw [List.length_append, List.length_singleton] at later
      simp only [List.zipIdx_cons, List.flatMap_cons, Programs.callLines, List.cons_append,
        instructionsOf_comment, instructionsOf_append, instructionsOf_codeLines,
        runInstructions_append]
      exact later
  exact general vectors [] state rfl (by simp [start]) progress

/-- The bytes of a region: a name and a size. -/
def Image.shown (image : Image) (memory : Memory) (region : Label × Nat) : List UInt8 :=
  readBytes memory (image.address region.1) region.2

/-- The region lies in some part of memory. -/
def Image.RegionIn (image : Image) (part : Word → Prop) (region : Label × Nat) : Prop :=
  region.2 ≤ 2 ^ 64 ∧ ∀ byte, Within (image.address region.1) region.2 byte → part byte

/-- A region reads alike in memories that agree on it. -/
theorem Image.RegionIn.shown {part : Word → Prop} {region : Label × Nat}
    (inside : image.RegionIn part region) (memory other : Memory)
    (same : ∀ byte, part byte → memory byte = other byte) :
    image.shown memory region = image.shown other region :=
  readBytes_congr _ _ _ _ inside.1 fun byte within => same byte (inside.2 byte within)

variable (image) in
/-- Regions are written out, and some part of memory is left alone. -/
structure Wrote (part : Word → Prop) (regions : List (Label × Nat))
    (state next : State Register) : Prop where
  calls : next.calls = state.calls
  memory : ∀ byte, part byte → next.memory byte = state.memory byte
  output : next.output = state.output ++ regions.flatMap (image.shown state.memory)

/-- What is written in two steps. -/
theorem Wrote.append {part : Word → Prop} {first second : List (Label × Nat)}
    {state between next : State Register} (one : Wrote image part first state between)
    (other : Wrote image part second between next)
    (inside : ∀ region ∈ second, image.RegionIn part region) :
    Wrote image part (first ++ second) state next := by
  refine ⟨other.calls.trans one.calls, fun byte member => (other.memory byte member).trans (one.memory byte member), ?_⟩
  have same : second.flatMap (image.shown between.memory) =
      second.flatMap (image.shown state.memory) :=
    List.flatMap_congr fun region member =>
      (inside region member).shown between.memory state.memory one.memory
  rw [other.output, one.output, same, List.flatMap_append, List.append_assoc]

/-- The regions of a vector by its number. -/
def regionsOf (regions : Nat → List Json → List (Label × Nat)) (vectors : List TestVector) :
    List (Label × Nat) :=
  vectors.zipIdx.flatMap (fun entry => regions entry.2 entry.1.inputs)

/-- Code that writes regions out one after the other, under an invariant. -/
theorem Wrote.regions {Instruction : Type} {exec : Instruction → State Register → State Register}
    {part : Word → Prop} {write : Label × Nat → List Instruction} (keeps : State Register → Prop)
    (regions : List (Label × Nat)) (inside : ∀ region ∈ regions, image.RegionIn part region)
    (effect : ∀ region ∈ regions, ∀ state, keeps state →
      keeps (runInstructions exec (write region) state) ∧
      Wrote image part [region] state (runInstructions exec (write region) state))
    (state : State Register) (kept : keeps state) :
    keeps (runInstructions exec (regions.flatMap write) state) ∧
      Wrote image part regions state (runInstructions exec (regions.flatMap write) state) := by
  induction regions generalizing state with
  | nil => exact ⟨kept, rfl, fun _ _ => rfl, by simp⟩
  | cons region regions inductionHypothesis =>
    obtain ⟨after, wrote⟩ := effect region List.mem_cons_self state kept
    have rest : ∀ other ∈ regions, image.RegionIn part other := fun other member =>
      inside other (List.mem_cons_of_mem _ member)
    have later := inductionHypothesis rest
      (fun other member => effect other (List.mem_cons_of_mem _ member)) _ after
    rw [List.flatMap_cons, runInstructions_append]
    exact ⟨later.1, wrote.append later.2 rest⟩

/-- Code for each vector that writes the regions of the vector writes all regions. -/
theorem instructionsOf_eachCode {Instruction : Type}
    {lines : Nat → List Json → List (CodeLine Instruction)}
    {regions : Nat → List Json → List (Label × Nat)} {write : Label × Nat → List Instruction}
    (each : ∀ index inputs, instructionsOf (lines index inputs) =
      (regions index inputs).flatMap write) (vectors : List TestVector) :
    instructionsOf (Programs.eachCode vectors lines) =
      (regionsOf regions vectors).flatMap write := by
  unfold Programs.eachCode regionsOf
  generalize vectors.zipIdx = entries
  induction entries with
  | nil => rfl
  | cons entry entries inductionHypothesis =>
    rw [List.flatMap_cons, List.flatMap_cons, instructionsOf_append, inductionHypothesis, each,
      List.flatMap_append]

/-- The results in memory are what the calls returned. -/
theorem Progress.results {arguments : Nat → List (Register × Argument)} {count : Nat}
    {pointer : Word} {state : State Register}
    (progress : Progress image stack arguments count pointer state)
    (all : state.calls.length = count) :
    image.shown state.memory (.results, count * 8) =
      state.calls.flatMap (fun call => bytesOf call.returned) := by
  have first : ∀ number, number ≤ state.calls.length →
      image.shown state.memory (.results, number * 8) =
        (state.calls.take number).flatMap (fun call => bytesOf call.returned) := by
    intro number
    induction number with
    | zero => intro _; simp [Image.shown, readBytes]
    | succ number inductionHypothesis =>
      intro inside
      have there := List.getElem?_eq_getElem (show number < state.calls.length by omega)
      have own := progress.result number _ there
      have before := inductionHypothesis (by omega)
      unfold Image.shown at *
      rw [Nat.add_mul, Nat.one_mul, readBytes_add, before, List.take_add_one, there,
        List.flatMap_append]
      exact congrArg _ (own.trans (by simp))
  have whole := first count (Nat.le_of_eq all.symm)
  rw [List.take_of_length_le (by omega)] at whole
  exact whole

/-- The memory that a call left. -/
def Image.leftBy (image : Image) (calls : List (Call Register)) (index : Nat) : Memory :=
  (calls[index]?.map Call.left).getD image.memory

/-- The bytes of the regions of every vector as its call left them. -/
def Image.leftRegions (image : Image) (regions : Nat → List Json → List (Label × Nat))
    (vectors : List TestVector) (calls : List (Call Register)) : List UInt8 :=
  vectors.zipIdx.flatMap (fun entry =>
    (regions entry.2 entry.1.inputs).flatMap (image.shown (image.leftBy calls entry.2)))

/-- The regions of every vector still are as its call left them. -/
theorem Progress.regions {arguments : Nat → List (Register × Argument)} {pointer : Word}
    {state : State Register} {vectors : List TestVector}
    {regions : Nat → List Json → List (Label × Nat)}
    (progress : Progress image stack arguments vectors.length pointer state)
    (all : state.calls.length = vectors.length)
    (inside : ∀ entry ∈ vectors.zipIdx, ∀ region ∈ regions entry.2 entry.1.inputs,
      image.RegionIn (image.Data entry.2) region) :
    (regionsOf regions vectors).flatMap (image.shown state.memory) =
      image.leftRegions regions vectors state.calls := by
  rw [regionsOf, List.flatMap_assoc, Image.leftRegions]
  refine List.flatMap_congr fun entry member => List.flatMap_congr fun region listed => ?_
  refine (inside entry member region listed).shown _ _ fun byte data => ?_
  have bound : entry.2 < vectors.length := by
    have place := List.mem_zipIdx' (x := entry.1) (i := entry.2) member
    exact place.1
  have there := List.getElem?_eq_getElem (show entry.2 < state.calls.length by omega)
  rw [progress.left entry.2 _ there byte data, Image.leftBy, there]
  rfl

variable (image) in
/-- A run that is over: every vector was called for in turn with its arguments, in a memory that
held its data, and what was returned and left was written out. -/
structure Finished (arguments : Nat → List Json → List (Register × Argument))
    (regions : Nat → List Json → List (Label × Nat)) (vectors : List TestVector)
    (state : State Register) : Prop where
  count : state.calls.length = vectors.length
  memory : ∀ index call, state.calls[index]? = some call → ∀ byte, image.Data index byte →
    call.memory byte = image.memory byte
  values : ∀ index call vector, state.calls[index]? = some call → vectors[index]? = some vector →
    ∀ passed ∈ arguments index vector.inputs,
      call.registers passed.1 = passed.2.value image.address call.memory
  output : state.output = state.calls.flatMap (fun call => bytesOf call.returned) ++
    image.leftRegions regions vectors state.calls

/-- A run is over when the results and the regions are written behind all calls. -/
theorem Progress.finished {arguments : Nat → List Json → List (Register × Argument)}
    {regions : Nat → List Json → List (Label × Nat)} {vectors : List TestVector} {pointer : Word}
    {state final : State Register} {part : Word → Prop}
    (progress : Progress image stack (argumentsOf arguments vectors) vectors.length pointer state)
    (all : state.calls.length = vectors.length)
    (inside : ∀ entry ∈ vectors.zipIdx, ∀ region ∈ regions entry.2 entry.1.inputs,
      image.RegionIn (image.Data entry.2) region)
    (wrote : Wrote image part ((.results, vectors.length * 8) :: regionsOf regions vectors)
      state final) :
    Finished image arguments regions vectors final := by
  refine ⟨by rw [wrote.calls, all], ?_, ?_, ?_⟩
  · intro index call there
    rw [wrote.calls] at there
    exact (progress.entered index call there).1
  · intro index call vector there listed
    rw [wrote.calls] at there
    have values := (progress.entered index call there).2
    rwa [argumentsOf, listed, Option.map_some, Option.getD_some] at values
  · rw [wrote.output, wrote.calls, progress.output, List.nil_append, List.flatMap_cons,
      progress.results all, progress.regions all inside]

end

end Semasm.Agent.Harness
