import Semasm.Library.ByteMemory

/-!
# Sections laid out piece by piece

A section is a list of pieces: a gap as an alignment leaves it, a name for the place that is
reached, bytes, and room without contents. The pieces lie in memory one behind the other.
What stands behind a name is found at the address of the name, and stays there as long as
nothing between the ends of the section is overwritten.
-/

namespace Semasm.Library.Sections

open ByteMemory

universe u v
variable {w : Nat} {Name : Type u} {Byte : Type v}

/-- A piece of a section. -/
inductive Piece (Name : Type u) (Byte : Type v) where
  | gap
  | name (name : Name)
  | bytes (values : List Byte)
  | room (size : Nat)

/-- The pieces lie in memory from one place up to another. A gap may have any size. -/
def LaidOut (address : Name → BitVec w) (memory : BitVec w → Byte) :
    Nat → List (Piece Name Byte) → Nat → Prop
  | place, [], stop => stop = place
  | place, .gap :: rest, stop => ∃ next, place ≤ next ∧ LaidOut address memory next rest stop
  | place, .name name :: rest, stop =>
    address name = BitVec.ofNat w place ∧ LaidOut address memory place rest stop
  | place, .bytes values :: rest, stop =>
    readBytes memory (BitVec.ofNat w place) values.length = values ∧
      LaidOut address memory (place + values.length) rest stop
  | place, .room size :: rest, stop => LaidOut address memory (place + size) rest stop

/-- The address lies between two places. -/
def Between (start stop : Nat) (address : BitVec w) : Prop :=
  start ≤ address.toNat ∧ address.toNat < stop

/-- A run of addresses that does not wrap around lies between its ends. -/
theorem within_iff_between (place count : Nat) (address : BitVec w)
    (fits : place + count ≤ 2 ^ w) :
    Within (BitVec.ofNat w place) count address ↔ Between place (place + count) address := by
  have bound := address.isLt
  unfold Within Between
  rcases Nat.eq_zero_or_pos count with rfl | positive
  · omega
  · have own : place % 2 ^ w = place := Nat.mod_eq_of_lt (by omega)
    rw [BitVec.toNat_sub, BitVec.toNat_ofNat, own]
    by_cases before : address.toNat < place
    · rw [Nat.mod_eq_of_lt (by omega)]
      omega
    · have wraps : 2 ^ w - place + address.toNat = address.toNat - place + 2 ^ w := by omega
      rw [wraps, Nat.add_mod_right, Nat.mod_eq_of_lt (by omega)]
      omega

variable {address : Name → BitVec w} {memory other : BitVec w → Byte}

/-- A section ends behind its start. -/
theorem LaidOut.le {start stop : Nat} {pieces : List (Piece Name Byte)}
    (laid : LaidOut address memory start pieces stop) : start ≤ stop := by
  induction pieces generalizing start with
  | nil => exact Nat.le_of_eq (Eq.symm laid)
  | cons piece rest inductionHypothesis =>
    cases piece with
    | gap =>
      obtain ⟨next, behind, later⟩ := laid
      exact Nat.le_trans behind (inductionHypothesis later)
    | name name => exact inductionHypothesis laid.2
    | bytes values => exact Nat.le_trans (Nat.le_add_right _ _) (inductionHypothesis laid.2)
    | room size => exact Nat.le_trans (Nat.le_add_right _ _) (inductionHypothesis laid)

/-- A memory that agrees between the ends has the section as well. -/
theorem LaidOut.congr {start stop : Nat} {pieces : List (Piece Name Byte)}
    (laid : LaidOut address memory start pieces stop) (fits : stop ≤ 2 ^ w)
    (same : ∀ place, Between start stop place → memory place = other place) :
    LaidOut address other start pieces stop := by
  induction pieces generalizing start with
  | nil => exact laid
  | cons piece rest inductionHypothesis =>
    cases piece with
    | gap =>
      obtain ⟨next, behind, later⟩ := laid
      exact ⟨next, behind, inductionHypothesis later fun place between =>
        same place ⟨Nat.le_trans behind between.1, between.2⟩⟩
    | name name => exact ⟨laid.1, inductionHypothesis laid.2 same⟩
    | bytes values =>
      have ends := laid.2.le
      refine ⟨?_, inductionHypothesis laid.2 fun place between =>
        same place ⟨Nat.le_trans (Nat.le_add_right _ _) between.1, between.2⟩⟩
      rw [← readBytes_congr memory other _ _ (by omega)]
      · exact laid.1
      · intro place within
        rw [within_iff_between _ _ _ (by omega)] at within
        exact same place ⟨within.1, Nat.lt_of_lt_of_le within.2 ends⟩
    | room size =>
      exact inductionHypothesis laid fun place between =>
        same place ⟨Nat.le_trans (Nat.le_add_right _ _) between.1, between.2⟩

/-- What follows a name is laid out from its address on. -/
theorem LaidOut.named {start stop : Nat} {before after : List (Piece Name Byte)} {name : Name}
    (laid : LaidOut address memory start (before ++ .name name :: after) stop) :
    ∃ place, start ≤ place ∧ address name = BitVec.ofNat w place ∧
      LaidOut address memory place after stop := by
  induction before generalizing start with
  | nil => exact ⟨start, Nat.le_refl _, laid.1, laid.2⟩
  | cons piece rest inductionHypothesis =>
    cases piece with
    | gap =>
      obtain ⟨next, behind, later⟩ := laid
      obtain ⟨place, from_, found⟩ := inductionHypothesis later
      exact ⟨place, Nat.le_trans behind from_, found⟩
    | name other => exact inductionHypothesis laid.2
    | bytes values =>
      obtain ⟨place, from_, found⟩ := inductionHypothesis laid.2
      exact ⟨place, Nat.le_trans (Nat.le_add_right _ _) from_, found⟩
    | room size =>
      obtain ⟨place, from_, found⟩ := inductionHypothesis laid
      exact ⟨place, Nat.le_trans (Nat.le_add_right _ _) from_, found⟩

/-- Bytes behind a name read back from its address. -/
theorem LaidOut.reads {start stop : Nat} {before after : List (Piece Name Byte)} {name : Name}
    {values : List Byte}
    (laid : LaidOut address memory start (before ++ .name name :: .bytes values :: after) stop) :
    readBytes memory (address name) values.length = values := by
  obtain ⟨place, _, at_, found, _⟩ := laid.named
  rw [at_]
  exact found

/-- A part of a run reads as the part of what the run reads as. -/
theorem readBytes_add (memory : BitVec w → Byte) (start : BitVec w) (first second : Nat) :
    readBytes memory start (first + second) =
      readBytes memory start first ++ readBytes memory (start + BitVec.ofNat w first) second := by
  induction first generalizing start with
  | zero => simp [readBytes]
  | succ first inductionHypothesis =>
    have next : start + 1 + BitVec.ofNat w first = start + BitVec.ofNat w (first + 1) := by
      rw [Nat.add_comm first 1, BitVec.ofNat_add, BitVec.add_assoc]
      rfl
    rw [Nat.add_right_comm, readBytes, readBytes, inductionHypothesis, next, List.cons_append]

@[simp] theorem readBytes_length (memory : BitVec w → Byte) (start : BitVec w) (count : Nat) :
    (readBytes memory start count).length = count := by
  induction count generalizing start with
  | zero => rfl
  | succ count inductionHypothesis => rw [readBytes, List.length_cons, inductionHypothesis]

/-- The start of a run reads as the start of what the run reads as. -/
theorem readBytes_prefix (memory : BitVec w → Byte) (start : BitVec w) {first : List Byte}
    {whole : List Byte} (read : readBytes memory start whole.length = whole)
    (begins : first <+: whole) : readBytes memory start first.length = first := by
  obtain ⟨rest, rfl⟩ := begins
  rw [List.length_append, readBytes_add] at read
  exact (List.append_inj read (by rw [readBytes_length])).1

/-- The bytes up to the next gap or room. -/
def following : List (Piece Name Byte) → List Byte
  | .bytes values :: rest => values ++ following rest
  | .name _ :: rest => following rest
  | _ => []

/-- The bytes behind a name up to the next gap or room. -/
def behind [DecidableEq Name] (name : Name) : List (Piece Name Byte) → List Byte
  | [] => []
  | .name other :: rest => if other = name then following rest else behind name rest
  | _ :: rest => behind name rest

/-- The pieces have the name. -/
def Names (name : Name) (pieces : List (Piece Name Byte)) : Prop := Piece.name name ∈ pieces

/-- The bytes up to the next gap or room read back. -/
theorem LaidOut.following {start stop : Nat} {pieces : List (Piece Name Byte)}
    (laid : LaidOut address memory start pieces stop) :
    readBytes memory (BitVec.ofNat w start) (following pieces).length = Sections.following pieces ∧
      start + (Sections.following pieces).length ≤ stop := by
  induction pieces generalizing start with
  | nil => exact ⟨rfl, laid.le⟩
  | cons piece rest inductionHypothesis =>
    cases piece with
    | gap => exact ⟨rfl, laid.le⟩
    | name name => exact inductionHypothesis laid.2
    | bytes values =>
      obtain ⟨read, ends⟩ := inductionHypothesis laid.2
      simp only [Sections.following, List.length_append]
      refine ⟨?_, by omega⟩
      rw [readBytes_add, laid.1, ← BitVec.ofNat_add, read]
    | room size => exact ⟨rfl, laid.le⟩

/-- The bytes behind a name read back from its address. -/
theorem LaidOut.behind [DecidableEq Name] {start stop : Nat} {pieces : List (Piece Name Byte)}
    (laid : LaidOut address memory start pieces stop) {name : Name} (named : Names name pieces) :
    ∃ place, start ≤ place ∧ place + (Sections.behind name pieces).length ≤ stop ∧
      address name = BitVec.ofNat w place ∧
      readBytes memory (address name) (Sections.behind name pieces).length =
        Sections.behind name pieces := by
  induction pieces generalizing start with
  | nil => cases named
  | cons piece rest inductionHypothesis =>
    have later (different : piece ≠ .name name) : Names name rest :=
      (List.mem_cons.mp named).resolve_left different.symm
    cases piece with
    | gap =>
      obtain ⟨next, ahead, laid⟩ := laid
      obtain ⟨place, after, found⟩ := inductionHypothesis laid (later (by simp))
      exact ⟨place, Nat.le_trans ahead after, found⟩
    | name other =>
      obtain ⟨there, laid⟩ := laid
      by_cases same : other = name
      · subst same
        obtain ⟨read, ends⟩ := laid.following
        simp only [Sections.behind, if_true]
        exact ⟨start, Nat.le_refl _, ends, there, there ▸ read⟩
      · simp only [Sections.behind, if_neg same]
        exact inductionHypothesis laid (later (by simpa using same))
    | bytes values =>
      obtain ⟨place, after, found⟩ := inductionHypothesis laid.2 (later (by simp))
      exact ⟨place, Nat.le_trans (Nat.le_add_right _ _) after, found⟩
    | room size =>
      obtain ⟨place, after, found⟩ := inductionHypothesis laid (later (by simp))
      exact ⟨place, Nat.le_trans (Nat.le_add_right _ _) after, found⟩

end Semasm.Library.Sections
