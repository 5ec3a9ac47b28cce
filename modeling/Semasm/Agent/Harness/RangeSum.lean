import Semasm.Agent.Harness.Shapes
import Mathlib.Algebra.Group.Nat.Even
import Mathlib.Tactic.Ring

/-!
# The sum of a range

The oracle multiplies before it halves. The top bit that the wrapping product loses is
missing from the half, so the result is the wrapping sum only where the product, taken
with one bit more, still reads the same with its sign.
-/

namespace Semasm.Agent.Harness

/-- The sum of the numbers up to a last one, added one at a time with wrapping. -/
def wrappingSum : Nat → Int64
  | 0 => 0
  | last + 1 => wrappingSum last + Int64.ofNat (last + 1)

/-- The sum that the loop computes, in closed form. -/
theorem wrappingSum_eq (last : Nat) :
    wrappingSum last = Int64.ofInt (last * (last + 1) / 2 : Nat) := by
  induction last with
  | zero => rfl
  | succ last inductionHypothesis =>
    have even : (last + 1) * (last + 1 + 1) = last * (last + 1) + (last + 1) * 2 := by ring
    rw [wrappingSum, inductionHypothesis, ← Int64.ofInt_eq_ofNat, ← Int64.ofInt_add, even,
      Nat.add_mul_div_right _ _ (by decide)]
    exact congrArg Int64.ofInt (Nat.cast_add _ _).symm

/-- The wrapping product of two neighbours, halved. -/
theorem reduce_sumRange (n : Int64) (nonnegative : 0 ≤ n) (half : Nat)
    (even : n.toInt.toNat * (n.toInt.toNat + 1) = 2 * half) :
    (PureIntUnaryI64Op.sumRange.reduce n).toInt = ((2 * half : Nat) : Int).bmod (2 ^ 64) / 2 := by
  have sign : 0 ≤ n.toInt := by simpa [Int64.le_iff_toInt_le] using nonnegative
  have number : n.toInt = (n.toInt.toNat : Int) := (Int.toNat_of_nonneg sign).symm
  have product : (n * (n + 1)).toInt = ((2 * half : Nat) : Int).bmod (2 ^ 64) := by
    rw [Int64.toInt_mul, Int64.toInt_add, Int64.toInt_one, Int.mul_bmod_bmod, ← even, number]
    simp
  have two : (2 : Int64).toInt = 2 := rfl
  unfold PureIntUnaryI64Op.reduce
  rw [Int64.toInt_div_of_ne_right _ _ (by decide), product, two]
  apply Int.tdiv_eq_ediv_of_dvd
  rw [Int.bmod_def]
  split_ifs <;> omega

/-- The product of a number with the next one, with one bit more than a machine word,
reads as a signed word. -/
def ProductFits (n : Int64) : Prop :=
  n.toInt.toNat * (n.toInt.toNat + 1) % 2 ^ 65 < 2 ^ 63 ∨
    3 * 2 ^ 63 ≤ n.toInt.toNat * (n.toInt.toNat + 1) % 2 ^ 65

instance (n : Int64) : Decidable (ProductFits n) := by
  unfold ProductFits
  infer_instance

/-- The oracle of the range sum computes the wrapping sum exactly when the product of the
input with its successor fits.

Proof: the product is twice the sum; the half of its signed residue modulo `2 ^ 64` is
the signed residue of the sum exactly when no bit is missing on top. -/
theorem range_sum_right_iff (n : Int64) (nonnegative : 0 ≤ n) :
    PureIntUnaryI64Op.sumRange.reduce n = wrappingSum n.toInt.toNat ↔ ProductFits n := by
  obtain ⟨half, even⟩ : ∃ half, n.toInt.toNat * (n.toInt.toNat + 1) = 2 * half := by
    obtain ⟨half, twice⟩ := Nat.even_mul_succ_self n.toInt.toNat
    exact ⟨half, by omega⟩
  have halved : n.toInt.toNat * (n.toInt.toNat + 1) / 2 = half := by omega
  rw [← Int64.toInt_inj, reduce_sumRange n nonnegative half even, wrappingSum_eq, halved,
    Int64.toInt_ofInt, ProductFits, even]
  have modulus : Int64.size = 18446744073709551616 := rfl
  rw [modulus, Int.bmod_def, Int.bmod_def]
  split_ifs <;> omega

/-- Below `3037000500` the product fits. -/
theorem productFits_of_small (n : Int64) (nonnegative : 0 ≤ n) (small : n.toInt < 3037000500) :
    ProductFits n := by
  have sign : 0 ≤ n.toInt := by simpa [Int64.le_iff_toInt_le] using nonnegative
  have most : n.toInt.toNat ≤ 3037000499 := by omega
  have product : n.toInt.toNat * (n.toInt.toNat + 1) ≤ 3037000499 * (3037000499 + 1) :=
    Nat.mul_le_mul most (by omega)
  left
  omega

/-- The sum up to a thousand. -/
theorem range_sum_thousand :
    PureIntUnaryI64Op.sumRange.reduce 1000 = wrappingSum (1000 : Int64).toInt.toNat :=
  (range_sum_right_iff 1000 (by decide)).mpr (by decide)

/-- At `3037000500` the product wraps, and the oracle's result is negative. -/
theorem range_sum_wraps :
    PureIntUnaryI64Op.sumRange.reduce 3037000500 = -4611686016836150558 ∧
      wrappingSum (3037000500 : Int64).toInt.toNat = 4611686020018625250 ∧
      PureIntUnaryI64Op.sumRange.reduce 3037000500 ≠
        wrappingSum (3037000500 : Int64).toInt.toNat := by
  have oracle : PureIntUnaryI64Op.sumRange.reduce 3037000500 = -4611686016836150558 := by decide
  have sum : wrappingSum (3037000500 : Int64).toInt.toNat = 4611686020018625250 := by
    rw [wrappingSum_eq]
    decide
  refine ⟨oracle, sum, ?_⟩
  rw [oracle, sum]
  decide

end Semasm.Agent.Harness
