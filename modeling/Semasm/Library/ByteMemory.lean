import Mathlib.Logic.Function.Basic
import Mathlib.Data.BitVec

/-!
# Byte-addressed memory

A memory is a function from addresses of a fixed width to bytes. Reading and
writing a run of bytes wrap around at the end of the address space. A write
leaves every byte outside its run alone, and a run that was written reads back.
Numbers are kept in memory with the least significant byte first.
-/

namespace Semasm.Library.ByteMemory

universe u
variable {w : Nat} {Byte : Type u}

/-- The address lies among the `count` addresses from `start` on. -/
def Within (start : BitVec w) (count : Nat) (address : BitVec w) : Prop :=
  (address - start).toNat < count

instance (start : BitVec w) (count : Nat) (address : BitVec w) :
    Decidable (Within start count address) :=
  inferInstanceAs (Decidable (_ < _))

/-- Two runs of addresses have none in common. -/
def Separate (start : BitVec w) (count : Nat) (other : BitVec w) (otherCount : Nat) : Prop :=
  ∀ address, Within start count address → ¬ Within other otherCount address

/-- The bytes of a run. -/
def readBytes (memory : BitVec w → Byte) (start : BitVec w) : Nat → List Byte
  | 0 => []
  | count + 1 => memory start :: readBytes memory (start + 1) count

/-- Overwrite a run with bytes. -/
def writeBytes (memory : BitVec w → Byte) (start : BitVec w) : List Byte → BitVec w → Byte
  | [] => memory
  | byte :: rest => Function.update (writeBytes memory (start + 1) rest) start byte

/-- One more without a wrap. -/
theorem toNat_add_one (distance : BitVec w) (small : distance.toNat + 1 < 2 ^ w) :
    (distance + 1).toNat = distance.toNat + 1 := by
  rw [BitVec.toNat_add]
  have one : (1 : BitVec w).toNat = 1 % 2 ^ w := BitVec.toNat_ofNat 1 w
  rw [one, Nat.add_mod_mod, Nat.mod_eq_of_lt small]

theorem distance_succ (start address : BitVec w) :
    address - start = (address - (start + 1)) + 1 := by
  rw [← BitVec.sub_sub, BitVec.sub_add_cancel]

/-- The start of a run lies in it. -/
theorem within_start (start : BitVec w) (count : Nat) : Within start (count + 1) start := by
  simp [Within]

/-- Addresses behind the first one of a run that fits the address space. -/
theorem within_tail (start address : BitVec w) (count : Nat) (small : count < 2 ^ w)
    (inside : Within (start + 1) count address) :
    Within start (count + 1) address ∧ address ≠ start := by
  unfold Within at *
  have next := toNat_add_one (address - (start + 1)) (by omega)
  rw [← distance_succ] at next
  refine ⟨by omega, ?_⟩
  rintro rfl
  simp at next

/-- A run consists of its start and what follows. -/
theorem within_succ (start address : BitVec w) (count : Nat)
    (inside : Within start (count + 1) address) :
    address = start ∨ Within (start + 1) count address := by
  unfold Within at *
  by_cases same : address = start
  · exact Or.inl same
  · apply Or.inr
    have nonzero : (address - start).toNat ≠ 0 := by
      intro zero
      apply same
      have difference : address - start = 0 := BitVec.eq_of_toNat_eq (by simpa using zero)
      rw [← BitVec.sub_add_cancel address start, difference, zero_add]
    by_cases wraps : (address - (start + 1)).toNat + 1 < 2 ^ w
    · have next := toNat_add_one (address - (start + 1)) wraps
      rw [← distance_succ] at next
      omega
    · exfalso
      apply nonzero
      have bound := (address - (start + 1)).isLt
      rw [distance_succ, BitVec.toNat_add]
      have one : (1 : BitVec w).toNat = 1 % 2 ^ w := BitVec.toNat_ofNat 1 w
      rw [one, Nat.add_mod_mod, show (address - (start + 1)).toNat + 1 = 2 ^ w by omega,
        Nat.mod_self]

/-- A write leaves the bytes outside its run alone. -/
theorem writeBytes_outside (memory : BitVec w → Byte) (start : BitVec w) (bytes : List Byte)
    (address : BitVec w) (small : bytes.length ≤ 2 ^ w)
    (outside : ¬ Within start bytes.length address) :
    writeBytes memory start bytes address = memory address := by
  induction bytes generalizing start with
  | nil => rfl
  | cons byte rest inductionHypothesis =>
    simp only [List.length_cons] at small outside
    have different : address ≠ start := by
      rintro rfl
      exact outside (within_start _ _)
    rw [writeBytes, Function.update_of_ne different]
    apply inductionHypothesis _ (by omega)
    intro later
    exact outside (within_tail start address rest.length (by omega) later).1

/-- Reading a run depends on the bytes of the run only. -/
theorem readBytes_congr (memory other : BitVec w → Byte) (start : BitVec w) (count : Nat)
    (small : count ≤ 2 ^ w)
    (same : ∀ address, Within start count address → memory address = other address) :
    readBytes memory start count = readBytes other start count := by
  induction count generalizing start with
  | zero => rfl
  | succ count inductionHypothesis =>
    rw [readBytes, readBytes, same start (within_start _ _)]
    congr 1
    apply inductionHypothesis _ (by omega)
    intro address inside
    exact same address (within_tail start address count (by omega) inside).1

/-- A run away from a write reads as before. -/
theorem readBytes_separate (memory : BitVec w → Byte) (start : BitVec w) (count : Nat)
    (written : BitVec w) (bytes : List Byte) (small : count ≤ 2 ^ w)
    (writtenSmall : bytes.length ≤ 2 ^ w)
    (separate : Separate start count written bytes.length) :
    readBytes (writeBytes memory written bytes) start count = readBytes memory start count := by
  apply readBytes_congr _ _ _ _ small
  intro address inside
  exact writeBytes_outside memory written bytes address writtenSmall (separate address inside)

/-- A run that was written reads back. -/
theorem readBytes_written (memory : BitVec w → Byte) (start : BitVec w) (bytes : List Byte)
    (small : bytes.length ≤ 2 ^ w) :
    readBytes (writeBytes memory start bytes) start bytes.length = bytes := by
  induction bytes generalizing start with
  | nil => rfl
  | cons byte rest inductionHypothesis =>
    simp only [List.length_cons] at small
    rw [List.length_cons, readBytes, writeBytes, Function.update_self]
    congr 1
    rw [readBytes_congr _ (writeBytes memory (start + 1) rest) _ _ (by omega)]
    · exact inductionHypothesis _ (by omega)
    · intro address inside
      have behind := within_tail start address rest.length (by omega) inside
      exact Function.update_of_ne behind.2 _ _

/-- A number as bytes, least significant byte first. -/
def encode : Nat → Nat → List (BitVec 8)
  | 0, _ => []
  | count + 1, value => BitVec.ofNat 8 value :: encode count (value / 256)

/-- The number that bytes stand for. -/
def decode : List (BitVec 8) → Nat
  | [] => 0
  | byte :: rest => byte.toNat + 256 * decode rest

@[simp] theorem encode_length (count value : Nat) : (encode count value).length = count := by
  induction count generalizing value with
  | zero => rfl
  | succ count inductionHypothesis => simp [encode, inductionHypothesis]

/-- A number that fits reads back from its bytes. -/
theorem decode_encode (count value : Nat) (fits : value < 256 ^ count) :
    decode (encode count value) = value := by
  induction count generalizing value with
  | zero =>
    simp only [Nat.pow_zero] at fits
    simp only [encode, decode]
    omega
  | succ count inductionHypothesis =>
    have smaller : value / 256 < 256 ^ count := by
      rw [Nat.div_lt_iff_lt_mul (by decide)]
      rwa [Nat.pow_succ] at fits
    rw [encode, decode, inductionHypothesis _ smaller, BitVec.toNat_ofNat]
    omega

/-- Bytes are those of the number they stand for. -/
theorem encode_decode (bytes : List (BitVec 8)) : encode bytes.length (decode bytes) = bytes := by
  induction bytes with
  | nil => rfl
  | cons byte rest inductionHypothesis =>
    have low := byte.isLt
    have quotient : (byte.toNat + 256 * decode rest) / 256 = decode rest := by omega
    have remainder : BitVec.ofNat 8 (byte.toNat + 256 * decode rest) = byte := by
      apply BitVec.eq_of_toNat_eq
      rw [BitVec.toNat_ofNat]
      omega
    rw [List.length_cons, decode, encode, quotient, remainder, inductionHypothesis]

/-- Some bytes stand for a number of as many digits. -/
theorem decode_lt (bytes : List (BitVec 8)) : decode bytes < 256 ^ bytes.length := by
  induction bytes with
  | nil => simp [decode]
  | cons byte rest inductionHypothesis =>
    have low := byte.isLt
    rw [decode, List.length_cons, Nat.pow_succ]
    omega

end Semasm.Library.ByteMemory
