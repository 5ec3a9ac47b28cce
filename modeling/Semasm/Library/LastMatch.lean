import Mathlib.Data.List.Basic

/-!
# Maps filled entry by entry

A map filled from a list of entries, where a later entry replaces an earlier one
for every key it matches. Where all entries that match a key have one value, the
map gives that value.
-/

namespace Semasm.Library.LastMatch

universe u v w
variable {Entry : Type u} {Key : Type v} {Value : Type w}
variable (hits : Entry → Key → Prop) [∀ entry key, Decidable (hits entry key)]
variable (value : Entry → Value)

/-- The map after one entry. -/
def insert (known : Key → Option Value) (entry : Entry) (key : Key) : Option Value :=
  if hits entry key then some (value entry) else known key

/-- Entries that miss a key leave it alone. -/
theorem foldl_missed (entries : List Entry) (known : Key → Option Value) (key : Key)
    (missed : ∀ entry ∈ entries, ¬ hits entry key) :
    entries.foldl (insert hits value) known key = known key := by
  induction entries generalizing known with
  | nil => rfl
  | cons entry rest inductionHypothesis =>
    rw [List.foldl_cons, inductionHypothesis _ (fun other member => missed other (by simp [member])),
      insert, if_neg (missed entry (by simp))]

/-- A key that some entry hits has the value of such an entry. -/
theorem foldl_hit (entries : List Entry) (known : Key → Option Value) (key : Key)
    (hit : ∃ entry ∈ entries, hits entry key) :
    ∃ entry ∈ entries, hits entry key ∧
      entries.foldl (insert hits value) known key = some (value entry) := by
  induction entries generalizing known with
  | nil =>
    obtain ⟨entry, member, _⟩ := hit
    cases member
  | cons entry rest inductionHypothesis =>
    by_cases later : ∃ other ∈ rest, hits other key
    · obtain ⟨other, member, own, found⟩ := inductionHypothesis (insert hits value known entry) later
      exact ⟨other, by simp [member], own, found⟩
    · obtain ⟨other, member, own⟩ := hit
      have first : other = entry := by
        rcases List.mem_cons.mp member with same | inside
        · exact same
        · exact absurd ⟨other, inside, own⟩ later
      subst first
      refine ⟨other, by simp, own, ?_⟩
      rw [List.foldl_cons, foldl_missed hits value rest _ key
        (fun entry inside hit => later ⟨entry, inside, hit⟩), insert, if_pos own]

/-- A value of the map is the value of an entry that hits the key. -/
theorem foldl_found (entries : List Entry) (key : Key) (found : Value)
    (known : entries.foldl (insert hits value) (fun _ => none) key = some found) :
    ∃ entry ∈ entries, hits entry key ∧ value entry = found := by
  by_cases hit : ∃ entry ∈ entries, hits entry key
  · obtain ⟨entry, member, own, result⟩ := foldl_hit hits value entries (fun _ => none) key hit
    rw [known] at result
    exact ⟨entry, member, own, (Option.some.inj result).symm⟩
  · rw [foldl_missed hits value entries _ key (fun entry member own => hit ⟨entry, member, own⟩)]
      at known
    cases known

/-- A map whose matching entries agree gives their value. -/
theorem foldl_eq_some_iff (entries : List Entry) (key : Key) (found : Value)
    (agree : ∀ first ∈ entries, ∀ second ∈ entries, hits first key → hits second key →
      value first = value second) :
    entries.foldl (insert hits value) (fun _ => none) key = some found ↔
      ∃ entry ∈ entries, hits entry key ∧ value entry = found := by
  constructor
  · exact foldl_found hits value entries key found
  · rintro ⟨entry, member, own, rfl⟩
    obtain ⟨other, inside, hit, result⟩ :=
      foldl_hit hits value entries (fun _ => none) key ⟨entry, member, own⟩
    rw [result, agree other inside entry member hit own]

end Semasm.Library.LastMatch
