import Mathlib.Algebra.Ring.Int.Defs

/-!
# Saturating signed 64-bit arithmetic

A saturating operation computes the exact integer and clamps it to the range of
the type. `Int64.ofIntClamp` is that clamp; the operations here name the exact
operand sums and products. Clamping keeps the order of two integers but not
their distinctness: every integer above the largest value becomes that value.
-/

namespace Semasm.Library.Saturation

/-- The largest signed 64-bit integer. -/
def maxI64 : Int := 2 ^ 63 - 1

/-- The smallest signed 64-bit integer. -/
def minI64 : Int := -2 ^ 63

/-- The integer a saturating operation leaves for an exact result. -/
def clamp (exact : Int) : Int := max minI64 (min exact maxI64)

/-- Clamping is the identity inside the range of the type. -/
theorem clamp_of_mem {exact : Int} (lower : minI64 ≤ exact) (upper : exact ≤ maxI64) :
    clamp exact = exact := by
  unfold clamp minI64 maxI64 at *
  omega

theorem clamp_of_lt {exact : Int} (above : maxI64 < exact) : clamp exact = maxI64 := by
  unfold clamp minI64 maxI64 at *
  omega

theorem clamp_le (exact : Int) : clamp exact ≤ maxI64 := by
  unfold clamp minI64 maxI64
  omega

/-- For an exact result at or above the lower bound, saturation only lowers it. -/
theorem clamp_le_self {exact : Int} (lower : minI64 ≤ exact) : clamp exact ≤ exact := by
  unfold clamp minI64 maxI64 at *
  omega

theorem clamp_eq_min {exact : Int} (lower : minI64 ≤ exact) : clamp exact = min exact maxI64 := by
  unfold clamp minI64 maxI64 at *
  omega

theorem min_le_toInt (value : Int64) : minI64 ≤ value.toInt := value.le_toInt

theorem toInt_le_max (value : Int64) : value.toInt ≤ maxI64 := by
  have bound := value.toInt_lt
  unfold maxI64
  omega

/-- `Int64.ofIntClamp` stores exactly the clamped integer. -/
@[simp] theorem toInt_ofIntClamp (exact : Int) : (Int64.ofIntClamp exact).toInt = clamp exact := by
  have least : Int64.minValue.toInt = -2 ^ 63 := Int64.toInt_minValue
  have greatest : Int64.maxValue.toInt = 2 ^ 63 - 1 := Int64.toInt_maxValue
  unfold Int64.ofIntClamp clamp minI64 maxI64
  split
  · split
    · rw [Int64.toInt_ofIntLE]
      omega
    · rw [greatest]
      omega
  · rw [least]
    omega

/-- `i64::saturating_add`. -/
def saturatingAdd (left right : Int64) : Int64 := Int64.ofIntClamp (left.toInt + right.toInt)

/-- `i64::saturating_add_unsigned`. -/
def saturatingAddUnsigned (left : Int64) (right : UInt64) : Int64 :=
  Int64.ofIntClamp (left.toInt + right.toNat)

/-- `i64::saturating_mul`. -/
def saturatingMul (left right : Int64) : Int64 := Int64.ofIntClamp (left.toInt * right.toInt)

@[simp] theorem toInt_saturatingAdd (left right : Int64) :
    (saturatingAdd left right).toInt = clamp (left.toInt + right.toInt) :=
  toInt_ofIntClamp _

@[simp] theorem toInt_saturatingAddUnsigned (left : Int64) (right : UInt64) :
    (saturatingAddUnsigned left right).toInt = clamp (left.toInt + right.toNat) :=
  toInt_ofIntClamp _

@[simp] theorem toInt_saturatingMul (left right : Int64) :
    (saturatingMul left right).toInt = clamp (left.toInt * right.toInt) :=
  toInt_ofIntClamp _

/-- Adding a length never leaves the range at the lower end. -/
theorem min_le_add_length (left : Int64) (right : UInt64) : minI64 ≤ left.toInt + right.toNat := by
  have lower := min_le_toInt left
  omega

/-- `i64::try_from(value).unwrap_or(i64::MAX)`. -/
def fromUnsigned (value : UInt64) : Int64 := Int64.ofIntClamp value.toNat

@[simp] theorem toInt_fromUnsigned (value : UInt64) :
    (fromUnsigned value).toInt = clamp value.toNat :=
  toInt_ofIntClamp _

end Semasm.Library.Saturation
