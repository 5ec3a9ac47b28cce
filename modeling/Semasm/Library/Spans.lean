import Mathlib.Order.CompletePartialOrder
import Mathlib.Data.Set.Lattice
import Mathlib.Order.Basic
import Mathlib.Order.Interval.Set.LinearOrder
import Mathlib.Algebra.Order.Group.Defs
import Mathlib.Order.Disjoint
import Mathlib.Data.Set.Disjoint
import Mathlib.Algebra.Order.Group.Int

/-!
# Half-open spans over a linear order

A span is a pair of end points; its members are the points from the start up to
but excluding the stop. A stop at or below the start leaves a span without
members, and two such spans may still differ in their end points. The relations
are the three a declaration of two memory ranges can require: no common member,
the same end points, and inclusion of members.

Moving both spans of a pair by one amount changes none of the relations, so a
relation between two ranges of one unknown base is decided by their offsets.
-/

namespace Semasm.Library

universe u

/-- End points of a half-open range. Nothing orders the two. -/
structure Span (α : Type u) where
  start : α
  stop : α
deriving DecidableEq

namespace Span

section Order

variable {α : Type u} [LinearOrder α]

/-- The points of the range. -/
def members (span : Span α) : Set α := Set.Ico span.start span.stop

/-- No point belongs to both ranges. -/
def Apart (left right : Span α) : Prop := Disjoint left.members right.members

/-- Every point of the right range belongs to the left one. -/
def Covers (left right : Span α) : Prop := right.members ⊆ left.members

/-- The end points of the right range lie between those of the left one. -/
def Encloses (left right : Span α) : Prop := left.start ≤ right.start ∧ right.stop ≤ left.stop

theorem mem_members (span : Span α) (point : α) :
    point ∈ span.members ↔ span.start ≤ point ∧ point < span.stop := Iff.rfl

theorem apart_symm {left right : Span α} (apart : left.Apart right) : right.Apart left :=
  Disjoint.symm apart

theorem apart_comm (left right : Span α) : left.Apart right ↔ right.Apart left :=
  ⟨apart_symm, apart_symm⟩

/-- Ranges that follow one another share no point. -/
theorem apart_of_stop_le {left right : Span α} (order : left.stop ≤ right.start) :
    left.Apart right := by
  rw [Apart, Set.disjoint_left]
  rintro point ⟨_, below⟩ ⟨above, _⟩
  exact absurd (lt_of_lt_of_le below order) (not_lt.mpr above)

/-- One common point refutes separation. -/
theorem not_apart_of_mem {left right : Span α} {point : α} (inLeft : point ∈ left.members)
    (inRight : point ∈ right.members) : ¬ left.Apart right :=
  fun apart => Set.disjoint_left.mp apart inLeft inRight

/-- A range without points is apart from every range. -/
theorem apart_of_empty_left {left : Span α} (empty : left.stop ≤ left.start) (right : Span α) :
    left.Apart right := by
  rw [Apart, Set.disjoint_left]
  rintro point ⟨above, below⟩ _
  exact absurd (lt_of_lt_of_le below empty) (not_lt.mpr above)

theorem apart_of_empty_right (left : Span α) {right : Span α} (empty : right.stop ≤ right.start) :
    left.Apart right :=
  apart_symm (apart_of_empty_left empty left)

/-- Separation in terms of end points: an empty range on either side, or one
range before the other. -/
theorem apart_iff (left right : Span α) :
    left.Apart right ↔ left.stop ≤ left.start ∨ right.stop ≤ right.start ∨
      left.stop ≤ right.start ∨ right.stop ≤ left.start := by
  constructor
  · intro apart
    by_contra overlap
    simp only [not_or, not_le] at overlap
    obtain ⟨leftFull, rightFull, before, after⟩ := overlap
    have inLeft : max left.start right.start ∈ left.members :=
      ⟨le_max_left _ _, max_lt leftFull before⟩
    have inRight : max left.start right.start ∈ right.members :=
      ⟨le_max_right _ _, max_lt after rightFull⟩
    exact not_apart_of_mem inLeft inRight apart
  · rintro (empty | empty | before | after)
    · exact apart_of_empty_left empty right
    · exact apart_of_empty_right left empty
    · exact apart_of_stop_le before
    · exact apart_symm (apart_of_stop_le after)

/-- Ordered end points give inclusion. -/
theorem covers_of_le {left right : Span α} (starts : left.start ≤ right.start)
    (stops : right.stop ≤ left.stop) : left.Covers right :=
  Set.Ico_subset_Ico starts stops

/-- A range without points lies in every range. -/
theorem covers_of_empty (left : Span α) {right : Span α} (empty : right.stop ≤ right.start) :
    left.Covers right := by
  rintro point ⟨above, below⟩
  exact absurd (lt_of_lt_of_le below empty) (not_lt.mpr above)

/-- Inclusion of a range that has points orders the end points. -/
theorem covers_iff {left right : Span α} (inhabited : right.start < right.stop) :
    left.Covers right ↔ left.start ≤ right.start ∧ right.stop ≤ left.stop :=
  Set.Ico_subset_Ico_iff inhabited

/-- Inclusion in terms of end points. -/
theorem covers_iff_or (left right : Span α) :
    left.Covers right ↔ right.stop ≤ right.start ∨
      left.start ≤ right.start ∧ right.stop ≤ left.stop := by
  by_cases inhabited : right.start < right.stop
  · rw [covers_iff inhabited]
    exact ⟨Or.inr, fun either => either.resolve_left (not_le.mpr inhabited)⟩
  · have empty := not_lt.mp inhabited
    exact ⟨fun _ => Or.inl empty, fun _ => covers_of_empty left empty⟩

theorem covers_refl (span : Span α) : span.Covers span := Set.Subset.refl _

theorem covers_trans {first second third : Span α} (outer : first.Covers second)
    (inner : second.Covers third) : first.Covers third :=
  Set.Subset.trans inner outer

end Order

section Shift

variable {α : Type u} [AddCommGroup α] [LinearOrder α] [IsOrderedAddMonoid α]

/-- Move both end points by one amount. -/
def shift (amount : α) (span : Span α) : Span α := ⟨amount + span.start, amount + span.stop⟩

/-- Membership after a move is membership of the point moved back. -/
theorem mem_shift (amount : α) (span : Span α) (point : α) :
    point ∈ (span.shift amount).members ↔ point - amount ∈ span.members := by
  simp only [mem_members, shift, le_sub_iff_add_le', sub_lt_iff_lt_add']

/-- Moving two ranges together keeps them apart or in contact. -/
theorem shift_apart_iff (amount : α) (left right : Span α) :
    (left.shift amount).Apart (right.shift amount) ↔ left.Apart right := by
  simp only [Apart, Set.disjoint_left, mem_shift]
  constructor
  · intro apart point inLeft inRight
    have leftMoved : amount + point - amount ∈ left.members := by simpa using inLeft
    have rightMoved : amount + point - amount ∈ right.members := by simpa using inRight
    exact apart leftMoved rightMoved
  · intro apart point inLeft inRight
    exact apart inLeft inRight

/-- Moving two ranges together keeps inclusion. -/
theorem shift_covers_iff (amount : α) (left right : Span α) :
    (left.shift amount).Covers (right.shift amount) ↔ left.Covers right := by
  constructor
  · intro covers point inRight
    have moved : amount + point ∈ (right.shift amount).members := by
      rw [mem_shift]
      simpa using inRight
    simpa [mem_shift] using covers moved
  · intro covers point inRight
    exact (mem_shift amount left point).mpr (covers ((mem_shift amount right point).mp inRight))

/-- Moving two ranges together keeps equality of end points. -/
theorem shift_eq_iff (amount : α) (left right : Span α) :
    left.shift amount = right.shift amount ↔ left = right := by
  cases left
  cases right
  simp [shift]

end Shift

end Span

end Semasm.Library
