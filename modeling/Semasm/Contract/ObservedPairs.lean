import Semasm.Contract.Atoms

/-!
# What an observation of two regions states

A region is read as the integers from its offset up to its exact end, relative to its
base. The engine compares ends that saturate at the largest offset, and orders them without
asking whether a region has bytes, so an observation of literal lengths is true exactly when
neither hides anything.
-/

namespace Semasm.Contract

open Library Library.Saturation

/-- The offsets of a region, relative to its base. -/
def CheckedRegion.offsets (lengths : String → UInt64) (region : CheckedRegion) : Span Int :=
  ⟨region.offset.toInt, region.offset.toInt + (match region.length with
    | .literal bytes => (bytes.toNat : Int)
    | .param name => ((lengths name).toNat : Int))⟩

/-- What an observation states of two spans. -/
def RelationObserved.States (left right : Span Int) : RelationObserved → Prop
  | .provenDisjoint => left.Apart right
  | .provenEqual => left = right
  | .provenContains => left.Covers right
  | .provenPartialOverlap => ¬ left.Apart right ∧ ¬ left.Covers right
  | .mayOverlap | .invalidRegion | .notEvaluated => True

/-- The observation answers. -/
def RelationObserved.Definite : RelationObserved → Prop
  | .provenDisjoint | .provenEqual | .provenContains | .provenPartialOverlap => True
  | .mayOverlap | .invalidRegion | .notEvaluated => False

/-- The observation of two regions states the truth for every value of the length
parameters, and answers when both lengths are literal. -/
def ObservedTruly (left right : CheckedRegion) : Prop :=
  (∀ lengths, (observePair left right).1.States (left.offsets lengths) (right.offsets lengths)) ∧
    (left.baseParam = right.baseParam →
      ∀ leftLength rightLength, left.length = .literal leftLength →
        right.length = .literal rightLength → (observePair left right).1.Definite)

namespace ConstantPair

/-- Nothing hidden by saturation or by an empty region: ends that agree belong to equal
lengths, a region inside another stays inside it, and a region around another meets it. -/
def Plain (pair : ConstantPair) : Prop :=
  (pair.LeftOuter → pair.RightOuter → pair.leftLength = pair.rightLength) ∧
    (pair.LeftOuter → ¬ pair.RightOuter → pair.rightLength = 0 ∨ pair.rightStop ≤ pair.leftStop) ∧
    (¬ pair.LeftOuter → pair.RightOuter →
      pair.leftLength ≠ 0 ∧ pair.leftOffset.toInt < pair.rightStop)

/-- Some definite answer is always given. -/
theorem observed_definite (pair : ConstantPair) : pair.observed.Definite := by
  rcases pair.observed_cases with ⟨observed, _⟩ | ⟨observed, _⟩ | ⟨observed, _⟩ |
    ⟨observed, _⟩ | ⟨observed, _⟩ <;> rw [observed] <;> trivial

/-- An end is exact or beyond the largest offset. -/
theorem clamp_cases {exact : Int} (lower : minI64 ≤ exact) :
    (clamp exact = exact ∧ exact ≤ maxI64) ∨ (clamp exact = maxI64 ∧ maxI64 < exact) := by
  rcases lt_or_ge maxI64 exact with above | inside
  · exact .inr ⟨clamp_of_lt above, above⟩
  · exact .inl ⟨clamp_of_mem lower inside, inside⟩

/-- The observation of a pair is true exactly when the pair is plain. -/
theorem states_iff (pair : ConstantPair) :
    pair.observed.States pair.left pair.right ↔ pair.Plain := by
  have leftLe := toInt_le_max pair.leftOffset
  have rightLe := toInt_le_max pair.rightOffset
  have leftEnd : pair.leftStop = pair.leftOffset.toInt + pair.leftLength.toNat := rfl
  have rightEnd : pair.rightStop = pair.rightOffset.toInt + pair.rightLength.toNat := rfl
  have leftClamp := clamp_cases (min_le_add_length pair.leftOffset pair.leftLength)
  have rightClamp := clamp_cases (min_le_add_length pair.rightOffset pair.rightLength)
  rw [← leftEnd] at leftClamp
  rw [← rightEnd] at rightClamp
  rcases pair.observed_cases with ⟨observed, outer, inner⟩ | ⟨observed, outer, inner⟩ |
    ⟨observed, outer, inner⟩ | ⟨observed, outer, inner, ends⟩ | ⟨observed, outer, inner, ends⟩ <;>
    simp only [Plain, observed, RelationObserved.States, outer, inner, left, right, Span.mk.injEq,
      Span.covers_iff_or, Span.apart_iff, ← UInt64.toNat_inj, ne_eq, UInt64.toNat_zero,
      true_implies, false_implies, not_true, not_false_eq_true, true_and, and_true,
      iff_true] <;>
    simp only [LeftOuter, RightOuter] at outer inner <;>
    omega

end ConstantPair

/-- When the observation of two regions is true: always for different bases and symbolic
lengths, and for literal lengths when the pair is plain. -/
def PlainRegions (left right : CheckedRegion) : Prop :=
  left.baseParam = right.baseParam → ∀ leftLength rightLength,
    left.length = .literal leftLength → right.length = .literal rightLength →
      ConstantPair.Plain ⟨left.offset, leftLength, right.offset, rightLength⟩

/-- The observation of literal regions of one base is that of their pair. -/
theorem observePair_literal (left right : CheckedRegion) (leftLength rightLength : UInt64)
    (base : left.baseParam = right.baseParam) (leftLiteral : left.length = .literal leftLength)
    (rightLiteral : right.length = .literal rightLength) :
    (observePair left right).1 =
      ConstantPair.observed ⟨left.offset, leftLength, right.offset, rightLength⟩ := by
  rw [observePair, if_neg (not_not.mpr base), leftLiteral, rightLiteral]
  exact ConstantPair.observeSpans_observed ⟨left.offset, leftLength, right.offset, rightLength⟩

/-- Without two literal lengths only regions that agree in everything are related. -/
theorem states_symbolic (left right : CheckedRegion) (lengths : String → UInt64)
    (symbolic : ∀ leftLength rightLength, left.length = .literal leftLength →
      right.length ≠ .literal rightLength) :
    (observePair left right).1.States (left.offsets lengths) (right.offsets lengths) := by
  unfold observePair
  split
  · trivial
  · split
    next leftLength rightLength leftLiteral rightLiteral =>
      exact absurd rightLiteral (symbolic leftLength rightLength leftLiteral)
    next =>
      split
      next same =>
        simp only [RelationObserved.States, CheckedRegion.offsets, same.1, same.2]
      next => trivial

/-- The observation of two regions is true exactly when they are plain.

Proof: for literal lengths of one base by the order of the saturated ends; a symbolic
length is only ever compared by name. -/
theorem observedTruly_iff (left right : CheckedRegion) :
    ObservedTruly left right ↔ PlainRegions left right := by
  constructor
  · rintro ⟨truth, _⟩ base leftLength rightLength leftLiteral rightLiteral
    have states := truth (fun _ => 0)
    rw [observePair_literal left right leftLength rightLength base leftLiteral rightLiteral] at states
    simp only [CheckedRegion.offsets, leftLiteral, rightLiteral] at states
    exact (ConstantPair.states_iff _).mp states
  · intro plain
    refine ⟨fun lengths => ?_, ?_⟩
    · by_cases literal : left.baseParam = right.baseParam ∧ ∃ leftLength rightLength,
          left.length = .literal leftLength ∧ right.length = .literal rightLength
      · obtain ⟨base, leftLength, rightLength, leftLiteral, rightLiteral⟩ := literal
        rw [observePair_literal left right leftLength rightLength base leftLiteral rightLiteral]
        simp only [CheckedRegion.offsets, leftLiteral, rightLiteral]
        exact (ConstantPair.states_iff _).mpr
          (plain base leftLength rightLength leftLiteral rightLiteral)
      · by_cases base : left.baseParam = right.baseParam
        · exact states_symbolic left right lengths fun leftLength rightLength leftLiteral rightLiteral =>
            literal ⟨base, leftLength, rightLength, leftLiteral, rightLiteral⟩
        · rw [observePair, if_pos base]
          trivial
    · intro base leftLength rightLength leftLiteral rightLiteral
      rw [observePair_literal left right leftLength rightLength base leftLiteral rightLiteral]
      exact ConstantPair.observed_definite _

/-- Regions that neither are empty nor end beyond the largest offset are plain. -/
theorem plain_of_inside (left right : CheckedRegion)
    (inside : ∀ region ∈ [left, right], ∀ length, region.length = .literal length →
      length ≠ 0 ∧ region.offset.toInt + length.toNat ≤ maxI64) :
    PlainRegions left right := by
  intro base leftLength rightLength leftLiteral rightLiteral
  have leftInside := inside left (by simp) leftLength leftLiteral
  have rightInside := inside right (by simp) rightLength rightLiteral
  simp only [ne_eq, ← UInt64.toNat_inj, UInt64.toNat_zero] at leftInside rightInside
  have leftExact := clamp_of_mem (min_le_add_length left.offset leftLength) leftInside.2
  have rightExact := clamp_of_mem (min_le_add_length right.offset rightLength) rightInside.2
  simp only [ConstantPair.Plain, ConstantPair.LeftOuter, ConstantPair.RightOuter,
    ConstantPair.leftStop, ConstantPair.rightStop, leftExact, rightExact, ne_eq,
    ← UInt64.toNat_inj, UInt64.toNat_zero]
  omega

/-- An empty region inside another is observed to overlap it partially. -/
theorem empty_region_is_observed_to_overlap :
    ¬ ObservedTruly ⟨"cursor", "p", 4, .literal 0, .read⟩ ⟨"buffer", "p", 0, .literal 8, .read⟩ := by
  rintro ⟨truth, _⟩
  have states := truth (fun _ => 0)
  have observed : (observePair ⟨"cursor", "p", 4, .literal 0, .read⟩
      ⟨"buffer", "p", 0, .literal 8, .read⟩).1 = .provenPartialOverlap := by
    decide +kernel
  rw [observed] at states
  exact states.1 (Span.apart_of_empty_left (le_refl _) _)

end Semasm.Contract
