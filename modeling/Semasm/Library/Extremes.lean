import Mathlib.Order.Lattice

/-!
# Comparisons with a bound

A comparison holds of all of some values exactly when it holds of an extreme one: an
upper bound is met by the greatest, a lower bound by the least, and an equation only when
both agree with it.
-/

namespace Semasm.Library.Extremes

/-- A comparison of a value with a bound. -/
inductive Comparison where
  | lt | le | gt | ge | eq | ne
deriving DecidableEq, Repr

namespace Comparison

/-- The comparison with its sides exchanged. -/
def mirror : Comparison → Comparison
  | .lt => .gt | .le => .ge | .gt => .lt | .ge => .le | .eq => .eq | .ne => .ne

variable {α : Type} [LinearOrder α]

/-- What a comparison says. -/
def Holds (value bound : α) : Comparison → Prop
  | .lt => value < bound
  | .le => value ≤ bound
  | .gt => bound < value
  | .ge => bound ≤ value
  | .eq => value = bound
  | .ne => value ≠ bound

/-- Exchanging the sides says the same. -/
theorem holds_mirror (comparison : Comparison) (value bound : α) :
    comparison.mirror.Holds bound value ↔ comparison.Holds value bound := by
  cases comparison <;> simp [mirror, Holds, eq_comm]

end Comparison

variable {α : Type} [LinearOrder α]

/-- Some values with their least and their greatest. -/
structure Extent (α : Type) [LinearOrder α] where
  values : List α
  least : α
  greatest : α
  least_mem : least ∈ values
  greatest_mem : greatest ∈ values
  between : ∀ value ∈ values, least ≤ value ∧ value ≤ greatest

/-- The extent of a single value. -/
def Extent.single (value : α) : Extent α where
  values := [value]
  least := value
  greatest := value
  least_mem := List.mem_singleton_self value
  greatest_mem := List.mem_singleton_self value
  between := by simp

/-- What a comparison asks of the extremes. -/
def Comparison.Fits (extent : Extent α) (bound : α) : Comparison → Prop
  | .lt => extent.greatest < bound
  | .le => extent.greatest ≤ bound
  | .gt => bound < extent.least
  | .ge => bound ≤ extent.least
  | .eq => extent.least = bound ∧ extent.greatest = bound
  | .ne => bound ∉ extent.values

/-- A comparison holds of all values exactly when it fits the extremes. -/
theorem Extent.forall_holds_iff (extent : Extent α) (comparison : Comparison) (bound : α) :
    (∀ value ∈ extent.values, comparison.Holds value bound) ↔ comparison.Fits extent bound := by
  have low := extent.least_mem
  have high := extent.greatest_mem
  cases comparison with
  | lt => exact ⟨fun all => all _ high,
      fun top value member => lt_of_le_of_lt (extent.between value member).2 top⟩
  | le => exact ⟨fun all => all _ high,
      fun top value member => le_trans (extent.between value member).2 top⟩
  | gt => exact ⟨fun all => all _ low,
      fun bottom value member => lt_of_lt_of_le bottom (extent.between value member).1⟩
  | ge => exact ⟨fun all => all _ low,
      fun bottom value member => le_trans bottom (extent.between value member).1⟩
  | eq =>
    refine ⟨fun all => ⟨all _ low, all _ high⟩, ?_⟩
    rintro ⟨bottom, top⟩ value member
    have inside := extent.between value member
    rw [bottom, top] at inside
    exact le_antisymm inside.2 inside.1
  | ne =>
    exact ⟨fun all member => all _ member rfl, fun absent value member same => absent (same ▸ member)⟩

/-- What a comparison asks of the ends of an interval. -/
def Comparison.FitsBetween (least greatest bound : α) : Comparison → Prop
  | .lt => greatest < bound
  | .le => greatest ≤ bound
  | .gt => bound < least
  | .ge => bound ≤ least
  | .eq => least = bound ∧ greatest = bound
  | .ne => ¬ (least ≤ bound ∧ bound ≤ greatest)

/-- A comparison holds of a whole interval exactly when it fits the ends. -/
theorem forall_holds_between_iff {least greatest : α} (ordered : least ≤ greatest)
    (comparison : Comparison) (bound : α) :
    (∀ value, least ≤ value → value ≤ greatest → comparison.Holds value bound) ↔
      comparison.FitsBetween least greatest bound := by
  cases comparison with
  | lt => exact ⟨fun all => all _ ordered (le_refl _), fun top value _ below => lt_of_le_of_lt below top⟩
  | le => exact ⟨fun all => all _ ordered (le_refl _), fun top value _ below => le_trans below top⟩
  | gt => exact ⟨fun all => all _ (le_refl _) ordered, fun bottom value above _ => lt_of_lt_of_le bottom above⟩
  | ge => exact ⟨fun all => all _ (le_refl _) ordered, fun bottom value above _ => le_trans bottom above⟩
  | eq =>
    refine ⟨fun all => ⟨all _ (le_refl _) ordered, all _ ordered (le_refl _)⟩, ?_⟩
    rintro ⟨rfl, rfl⟩ value above below
    exact le_antisymm below above
  | ne =>
    exact ⟨fun all inside => all bound inside.1 inside.2 rfl,
      fun outside value above below same => outside (same ▸ ⟨above, below⟩)⟩

end Semasm.Library.Extremes
