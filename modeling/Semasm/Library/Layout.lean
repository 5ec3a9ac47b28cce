import Mathlib.Algebra.Ring.Nat
import Mathlib.Data.List.Basic

/-!
# Fields one after another

A text is laid out as consecutive fields, each behind the ones before it. All fields
stand at their places exactly when they make up a prefix. A reader that passes over
a field only when enough of the text is left looks for the later fields somewhere
else as soon as one does not fit.
-/

namespace Semasm.Library.Layout

variable {α : Type}

/-- The field stands in the text at the offset. -/
def StandsAt (text : List α) (offset : Nat) (field : List α) : Prop := field <+: text.drop offset

instance [DecidableEq α] (text : List α) (offset : Nat) (field : List α) :
    Decidable (StandsAt text offset field) :=
  inferInstanceAs (Decidable (field <+: text.drop offset))

/-- A field that is not empty stands only where the text is long enough. -/
theorem StandsAt.fits {text field : List α} {offset : Nat} (stands : StandsAt text offset field)
    (nonempty : field ≠ []) : offset + field.length ≤ text.length := by
  have short := stands.length_le
  rw [List.length_drop] at short
  have positive := List.length_pos_iff.mpr nonempty
  omega

/-- Where the text is long enough, a field stands if the text reads the same. -/
theorem standsAt_iff_take (text : List α) (offset : Nat) (field : List α) :
    StandsAt text offset field ↔ (text.drop offset).take field.length = field :=
  List.prefix_iff_eq_take.trans eq_comm

/-- Where a field begins behind those before it. -/
def start (first : Nat) (lengths : List Nat) (index : Nat) : Nat := first + (lengths.take index).sum

@[simp] theorem start_zero (first : Nat) (lengths : List Nat) : start first lengths 0 = first := by
  simp [start]

@[simp] theorem start_succ (first length : Nat) (lengths : List Nat) (index : Nat) :
    start first (length :: lengths) (index + 1) = start (first + length) lengths index := by
  simp [start, Nat.add_assoc]

/-- The first field and the others apart. -/
theorem append_standsAt_iff (text field rest : List α) (offset : Nat) :
    StandsAt text offset (field ++ rest) ↔
      StandsAt text offset field ∧ StandsAt text (offset + field.length) rest := by
  constructor
  · rintro ⟨after, same⟩
    refine ⟨⟨rest ++ after, by rw [← same, List.append_assoc]⟩, after, ?_⟩
    rw [← List.drop_drop, ← same, List.append_assoc, List.drop_left]
  · rintro ⟨⟨after, same⟩, later⟩
    rw [StandsAt, ← List.drop_drop, ← same, List.drop_left] at later
    obtain ⟨last, rfl⟩ := later
    exact ⟨last, by rw [← same, List.append_assoc]⟩

/-- The fields make up a prefix exactly when each stands at its place. -/
theorem flatten_standsAt_iff (text : List α) (fields : List (List α)) (first : Nat) :
    StandsAt text first fields.flatten ↔
      ∀ index (inside : index < fields.length),
        StandsAt text (start first (fields.map List.length) index) fields[index] := by
  induction fields generalizing first with
  | nil => simp [StandsAt]
  | cons field fields inductionHypothesis =>
    rw [List.flatten_cons, append_standsAt_iff, inductionHypothesis]
    constructor
    · rintro ⟨here, later⟩ index inside
      cases index with
      | zero => simpa using here
      | succ index => simpa using later index (by simpa using inside)
    · intro all
      refine ⟨?_, fun index inside => ?_⟩
      · have here := all 0 (by simp)
        rwa [List.map_cons, start_zero, List.getElem_cons_zero] at here
      · have later := all (index + 1) (by simpa using inside)
        rwa [List.map_cons, start_succ, List.getElem_cons_succ] at later

/-- Each of some fields stands behind those before it. -/
theorem fields_standAt (before after : List α) (fields : List (List α)) (index : Nat)
    (inside : index < fields.length) :
    StandsAt (before ++ fields.flatten ++ after)
      (start before.length (fields.map List.length) index) fields[index] := by
  have whole : StandsAt (before ++ fields.flatten ++ after) before.length fields.flatten := by
    rw [StandsAt, List.append_assoc, List.drop_left]
    exact List.prefix_append _ _
  exact (flatten_standsAt_iff _ _ _).mp whole index inside

/-- Among fields of the right lengths, a field stands at its place exactly when it is the one
that is there. -/
theorem standsAt_of_lengths (before after : List α) (fields expected : List (List α))
    (lengths : fields.map List.length = expected.map List.length) (index : Nat)
    (inside : index < fields.length) (other : index < expected.length) :
    StandsAt (before ++ fields.flatten ++ after)
        (start before.length (expected.map List.length) index) expected[index] ↔
      fields[index] = expected[index] := by
  have own := fields_standAt before after fields index inside
  rw [lengths] at own
  constructor
  · intro stands
    have same : fields[index].length = expected[index].length := by
      have each := congrArg (fun lengths => lengths[index]?) lengths
      simpa [inside, other] using each
    exact (List.prefix_of_prefix_length_le own stands (Nat.le_of_eq same)).eq_of_length same
  · rintro same
    rwa [same] at own

/-- Where a reader looks for fields of given lengths that passes over those that fit. -/
def places (room : Nat) : Nat → List Nat → List (Option Nat)
  | _, [] => []
  | offset, length :: lengths =>
    if offset + length ≤ room then some offset :: places room (offset + length) lengths
    else none :: places room offset lengths

@[simp] theorem places_length (room offset : Nat) (lengths : List Nat) :
    (places room offset lengths).length = lengths.length := by
  induction lengths generalizing offset with
  | nil => rfl
  | cons length lengths inductionHypothesis =>
    rw [places]
    split <;> simp [inductionHypothesis]

/-- A field whose own place is inside the text is looked for there. -/
theorem places_of_fits {room first index : Nat} {lengths : List Nat}
    (inside : index < lengths.length)
    (fits : start first lengths index + lengths[index] ≤ room)
    (there : index < (places room first lengths).length) :
    (places room first lengths)[index] = some (start first lengths index) := by
  induction lengths generalizing first index with
  | nil => simp at inside
  | cons length lengths inductionHypothesis =>
    cases index with
    | zero =>
      simp only [start_zero, List.getElem_cons_zero] at fits
      simp [places, fits]
    | succ index =>
      rw [start_succ, List.getElem_cons_succ] at fits
      have here : first + length ≤ room := by
        simp only [start] at fits
        omega
      simp only [places, if_pos here, List.getElem_cons_succ, start_succ]
      exact inductionHypothesis (by simpa using inside) fits _

/-- If every field is looked for somewhere, each is looked for at its own place. -/
theorem places_of_all {room first index place : Nat} {lengths : List Nat}
    (all : ∀ place ∈ places room first lengths, place ≠ none)
    (there : (places room first lengths)[index]? = some (some place)) :
    place = start first lengths index := by
  induction lengths generalizing first index with
  | nil => simp [places] at there
  | cons length lengths inductionHypothesis =>
    rw [places] at all there
    split at all
    next fits =>
      rw [if_pos fits] at there
      cases index with
      | zero => simpa using there.symm
      | succ index =>
        rw [start_succ]
        exact inductionHypothesis (fun other member => all other (List.mem_cons_of_mem _ member))
          (by simpa using there)
    next => exact absurd rfl (all none List.mem_cons_self)

end Semasm.Library.Layout
