import Semasm.Cfg.Runs

/-!
# Reading the maps of the builder

Where no two instructions share an address, the address map finds exactly the
instruction at an address, and the following address of an instruction is the
least one above its own. Where every run of the address order occupies
consecutive places of the given list, the block map finds exactly the run an
instruction belongs to.
-/

namespace Semasm.Cfg

open Decode Library

/-- No two instructions share an address. -/
def DistinctAddresses (instructions : List PhysicalInstruction) : Prop :=
  (instructions.map PhysicalInstruction.address).Nodup

/-- The indexed instructions are those of the given list. -/
theorem mem_order (instructions : List PhysicalInstruction) (entry : Indexed) :
    entry ∈ order instructions ↔ instructions[entry.2]? = some entry.1 := by
  rw [order, List.mem_insertionSort]
  exact List.mem_zipIdx_iff_getElem?

/-- Two places with one address are one place. -/
theorem index_unique (instructions : List PhysicalInstruction)
    (distinct : DistinctAddresses instructions) (first second : Nat) (one two : PhysicalInstruction)
    (atFirst : instructions[first]? = some one) (atSecond : instructions[second]? = some two)
    (same : one.address = two.address) : first = second := by
  have bound : first < (instructions.map PhysicalInstruction.address).length := by
    rw [List.length_map]
    exact (List.getElem?_eq_some_iff.mp atFirst).1
  apply (List.getElem?_inj bound distinct).mp
  rw [List.getElem?_map, List.getElem?_map, atFirst, atSecond, Option.map_some, Option.map_some, same]

/-- The address map finds the instruction at an address. -/
theorem addrToInstr_eq_some_iff (instructions : List PhysicalInstruction)
    (distinct : DistinctAddresses instructions) (address : UInt64) (index : Nat) :
    addrToInstr instructions address = some index ↔
      ∃ ins, instructions[index]? = some ins ∧ ins.address = address := by
  have map : addrToInstr instructions address = instructions.zipIdx.foldl
      (LastMatch.insert (fun (entry : Indexed) address => address = entry.1.address) Prod.snd)
      (fun _ => none) address := rfl
  rw [map, LastMatch.foldl_eq_some_iff]
  · constructor
    · rintro ⟨⟨ins, place⟩, member, same, rfl⟩
      exact ⟨ins, List.mem_zipIdx_iff_getElem?.mp member, same.symm⟩
    · rintro ⟨ins, found, same⟩
      exact ⟨(ins, index), List.mem_zipIdx_iff_getElem?.mpr found, same.symm, rfl⟩
  · rintro ⟨one, first⟩ member ⟨two, second⟩ other same equal
    exact index_unique instructions distinct first second one two
      (List.mem_zipIdx_iff_getElem?.mp member) (List.mem_zipIdx_iff_getElem?.mp other)
      (same.symm.trans equal)

/-- The block covers an index. -/
def BlockBuilder.Covers (block : BlockBuilder) (index : Nat) : Prop :=
  block.startInstruction ≤ index ∧ index < block.endInstruction

instance (block : BlockBuilder) (index : Nat) : Decidable (block.Covers index) :=
  inferInstanceAs (Decidable (_ ∧ _))

/-- The block map finds the block that covers an index, where only one does. -/
theorem instrToBlock_eq_some_iff (blocks : List BlockBuilder) (index found : Nat)
    (unique : ∀ (first second : Nat) one two, blocks[first]? = some one →
      blocks[second]? = some two → one.Covers index → two.Covers index → first = second) :
    instrToBlock blocks index = some found ↔
      ∃ block, blocks[found]? = some block ∧ block.Covers index := by
  have map : instrToBlock blocks index = blocks.zipIdx.foldl
      (LastMatch.insert (fun (entry : BlockBuilder × Nat) index => entry.1.Covers index) Prod.snd)
      (fun _ => none) index := rfl
  rw [map, LastMatch.foldl_eq_some_iff]
  · constructor
    · rintro ⟨⟨block, place⟩, member, covers, rfl⟩
      exact ⟨block, List.mem_zipIdx_iff_getElem?.mp member, covers⟩
    · rintro ⟨block, held, covers⟩
      exact ⟨(block, found), List.mem_zipIdx_iff_getElem?.mpr held, covers, rfl⟩
  · rintro ⟨one, first⟩ member ⟨two, second⟩ other covers again
    exact unique first second one two (List.mem_zipIdx_iff_getElem?.mp member)
      (List.mem_zipIdx_iff_getElem?.mp other) covers again

/-- Every run occupies consecutive places of the given list, from its first to its
last instruction. -/
def Consecutive (instructions : List PhysicalInstruction) : Prop :=
  ∀ run ∈ runs instructions, ∀ first last, run.head? = some first → run.getLast? = some last →
    ∀ index, (first.2 ≤ index ∧ index ≤ last.2) ↔ index ∈ run.map Prod.snd

/-- The runs put one after the other are the instructions in address order. -/
theorem flatten_runs (instructions : List PhysicalInstruction) :
    (runs instructions).flatten = order instructions :=
  Segments.flatten_segments _ _

/-- No place of the given list occurs twice in address order. -/
theorem order_places (instructions : List PhysicalInstruction) :
    ((order instructions).map Prod.snd).Nodup := by
  have places : (instructions.zipIdx.map Prod.snd).Nodup := by
    rw [List.zipIdx_map_snd]
    exact List.nodup_range'
  exact ((List.perm_insertionSort notAfter instructions.zipIdx).map Prod.snd).nodup_iff.mpr places

/-- Two runs share no index. -/
theorem runs_apart (instructions : List PhysicalInstruction) (first second : Nat)
    (before : first < second) (one two : List Indexed)
    (atFirst : (runs instructions)[first]? = some one)
    (atSecond : (runs instructions)[second]? = some two) :
    (one.map Prod.snd).Disjoint (two.map Prod.snd) := by
  have apart : ((runs instructions).map (List.map Prod.snd)).Pairwise List.Disjoint := by
    have nodup := order_places instructions
    rw [← flatten_runs, List.map_flatten] at nodup
    exact (List.nodup_flatten.mp nodup).2
  obtain ⟨inside, rfl⟩ := List.getElem?_eq_some_iff.mp atFirst
  obtain ⟨within, rfl⟩ := List.getElem?_eq_some_iff.mp atSecond
  have pair := List.pairwise_iff_getElem.mp apart first second (by simpa using inside)
    (by simpa using within) before
  simpa using pair

/-- An index belongs to one run only. -/
theorem run_unique (instructions : List PhysicalInstruction) (first second : Nat)
    (one two : List Indexed) (atFirst : (runs instructions)[first]? = some one)
    (atSecond : (runs instructions)[second]? = some two) (index : Nat)
    (inFirst : index ∈ one.map Prod.snd) (inSecond : index ∈ two.map Prod.snd) : first = second := by
  rcases Nat.lt_trichotomy first second with before | same | after
  · exact absurd inSecond (runs_apart instructions first second before one two atFirst atSecond inFirst)
  · exact same
  · exact absurd inFirst (runs_apart instructions second first after two one atSecond atFirst inSecond)

end Semasm.Cfg
