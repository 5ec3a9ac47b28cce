import Mathlib.Data.Fintype.Pi
import Mathlib.Data.Fintype.Prod

/-!
# Verdicts over a set of worlds

A verdict says what an analysis knows of a proposition: that it holds in every
world, that it fails in every world, that it holds wherever a background
assumption does, or nothing. Verdicts are ordered by what they say, and a sound
verdict stays sound when it says less.

The connectives below give the most that the verdicts of the operands support.
An analysis whose own tables stay below them is sound, and one that goes above
them somewhere is unsound for some propositions with those verdicts.
-/

namespace Semasm.Library

universe u

/-- What an analysis knows of a proposition. -/
inductive Verdict where
  | holds | fails | assumed | undecided
deriving DecidableEq, Repr

namespace Verdict

/-- The verdict is true of the claim, in the given worlds and under the background. -/
structure Sound {World : Type u} (worlds background claim : World → Prop) (verdict : Verdict) :
    Prop where
  proven : verdict = .holds → ∀ world, worlds world → claim world
  refuted : verdict = .fails → ∀ world, worlds world → ¬ claim world
  conditional : verdict = .assumed → ∀ world, worlds world → background world → claim world

/-- The first verdict says no more than the second. -/
def SaysLess : Verdict → Verdict → Prop
  | .undecided, _ => True
  | .assumed, .assumed | .assumed, .holds => True
  | .holds, .holds | .fails, .fails => True
  | _, _ => False

instance (less more : Verdict) : Decidable (less.SaysLess more) := by
  cases less <;> cases more <;> unfold SaysLess <;> infer_instance

/-- Negation. A claim that holds under the background may hold or fail outside it. -/
def not : Verdict → Verdict
  | .holds => .fails
  | .fails => .holds
  | .assumed | .undecided => .undecided

/-- Conjunction. -/
def and : Verdict → Verdict → Verdict
  | .fails, _ | _, .fails => .fails
  | .holds, .holds => .holds
  | .holds, .assumed | .assumed, .holds | .assumed, .assumed => .assumed
  | .undecided, _ | _, .undecided => .undecided

/-- Disjunction. -/
def or : Verdict → Verdict → Verdict
  | .holds, _ | _, .holds => .holds
  | .fails, .fails => .fails
  | .assumed, _ | _, .assumed => .assumed
  | .undecided, _ | _, .undecided => .undecided

/-- Implication. -/
def implies (antecedent consequent : Verdict) : Verdict := antecedent.not.or consequent

section Sound

variable {World : Type u} {worlds background left right claim : World → Prop}

/-- A verdict that says less is sound when the other one is. -/
theorem sound_of_saysLess {less more : Verdict} (order : less.SaysLess more)
    (sound : more.Sound worlds background claim) : less.Sound worlds background claim := by
  cases less <;> cases more <;> simp only [SaysLess] at order
  case holds.holds | fails.fails | assumed.assumed => exact sound
  case assumed.holds =>
    exact ⟨nofun, nofun, fun _ world inside _ => sound.proven rfl world inside⟩
  all_goals exact ⟨nofun, nofun, nofun⟩

/-- Nothing said is always sound. -/
theorem sound_undecided : Verdict.undecided.Sound worlds background claim :=
  ⟨nofun, nofun, nofun⟩

theorem sound_not {verdict : Verdict} (sound : verdict.Sound worlds background claim) :
    verdict.not.Sound worlds background (fun world => ¬ claim world) := by
  cases verdict with
  | holds => exact ⟨nofun, fun _ world inside => not_not.mpr (sound.proven rfl world inside), nofun⟩
  | fails => exact ⟨fun _ => sound.refuted rfl, nofun, nofun⟩
  | assumed => exact sound_undecided
  | undecided => exact sound_undecided

theorem sound_and {first second : Verdict} (leftSound : first.Sound worlds background left)
    (rightSound : second.Sound worlds background right) :
    (first.and second).Sound worlds background (fun world => left world ∧ right world) := by
  obtain ⟨leftProven, leftRefuted, leftConditional⟩ := leftSound
  obtain ⟨rightProven, rightRefuted, rightConditional⟩ := rightSound
  constructor <;> cases first <;> cases second <;> simp_all [and]

theorem sound_or {first second : Verdict} (leftSound : first.Sound worlds background left)
    (rightSound : second.Sound worlds background right) :
    (first.or second).Sound worlds background (fun world => left world ∨ right world) := by
  obtain ⟨leftProven, leftRefuted, leftConditional⟩ := leftSound
  obtain ⟨rightProven, rightRefuted, rightConditional⟩ := rightSound
  constructor <;> cases first <;> cases second <;> simp_all [or]

theorem sound_implies {first second : Verdict} (leftSound : first.Sound worlds background left)
    (rightSound : second.Sound worlds background right) :
    (first.implies second).Sound worlds background (fun world => left world → right world) := by
  have disjunction := sound_or (sound_not leftSound) rightSound
  simp only [← imp_iff_not_or] at disjunction
  exact disjunction

end Sound

section Sharp

/-- Soundness over two worlds is decided by looking at both. -/
instance (background claim : Bool → Bool) (verdict : Verdict) :
    Decidable (verdict.Sound (fun _ : Bool => True) (fun world => background world)
      (fun world => claim world)) :=
  decidable_of_iff ((verdict = .holds → ∀ world, claim world = true) ∧
      (verdict = .fails → ∀ world, ¬ claim world = true) ∧
      (verdict = .assumed → ∀ world, background world = true → claim world = true))
    ⟨fun all => ⟨fun same world _ => all.1 same world, fun same world _ => all.2.1 same world,
        fun same world _ => all.2.2 same world⟩,
      fun sound => ⟨fun same world => sound.proven same world trivial,
        fun same world => sound.refuted same world trivial,
        fun same world => sound.conditional same world trivial⟩⟩

/-- Some operands with these verdicts make the combined verdict wrong. -/
def Wrong (connective : Bool → Bool → Bool) (first second combined : Verdict) : Prop :=
  ∃ background left right : Bool → Bool,
    first.Sound (fun _ : Bool => True) (fun world => background world) (fun world => left world) ∧
    second.Sound (fun _ : Bool => True) (fun world => background world)
      (fun world => right world) ∧
    ¬ combined.Sound (fun _ : Bool => True) (fun world => background world)
      (fun world => connective (left world) (right world))
deriving Decidable

/-- A verdict above the conjunction of two verdicts is wrong for some operands. -/
theorem wrong_of_above_and (first second combined : Verdict)
    (above : ¬ combined.SaysLess (first.and second)) :
    Wrong (· && ·) first second combined := by
  revert above
  cases first <;> cases second <;> cases combined <;> decide

/-- A verdict above the disjunction of two verdicts is wrong for some operands. -/
theorem wrong_of_above_or (first second combined : Verdict)
    (above : ¬ combined.SaysLess (first.or second)) :
    Wrong (· || ·) first second combined := by
  revert above
  cases first <;> cases second <;> cases combined <;> decide

/-- A verdict above the implication of two verdicts is wrong for some operands. -/
theorem wrong_of_above_implies (first second combined : Verdict)
    (above : ¬ combined.SaysLess (first.implies second)) :
    Wrong (fun left right => !left || right) first second combined := by
  revert above
  cases first <;> cases second <;> cases combined <;> decide

end Sharp

end Verdict

end Semasm.Library
