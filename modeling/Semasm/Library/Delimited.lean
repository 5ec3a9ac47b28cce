import Mathlib.Data.List.Basic

/-!
# Parts between marks

Texts put one after the other, each followed by a mark, can be told apart again if
none of them contains the mark.
-/

namespace Semasm.Library.Delimited

variable {α : Type}

/-- What stands before the first mark and what stands behind it. -/
theorem append_mark_inj {mark : α} {first second rest other : List α} (left : mark ∉ first)
    (right : mark ∉ second) (same : first ++ mark :: rest = second ++ mark :: other) :
    first = second ∧ rest = other := by
  induction first generalizing second with
  | nil =>
    cases second with
    | nil => simpa using same
    | cons a second =>
      rw [List.nil_append, List.cons_append, List.cons.injEq] at same
      exact absurd (same.1 ▸ List.mem_cons_self) right
  | cons a first inductionHypothesis =>
    cases second with
    | nil =>
      rw [List.nil_append, List.cons_append, List.cons.injEq] at same
      exact absurd (same.1 ▸ List.mem_cons_self) left
    | cons b second =>
      rw [List.cons_append, List.cons_append, List.cons.injEq] at same
      obtain ⟨sameFirst, sameRest⟩ := inductionHypothesis (fun member => left (by simp [member]))
        (fun member => right (by simp [member])) same.2
      exact ⟨by rw [same.1, sameFirst], sameRest⟩

/-- The parts, each followed by the mark. -/
def terminated (mark : α) (parts : List (List α)) : List α :=
  parts.flatMap (fun part => part ++ [mark])

/-- Parts without the mark can be read back. -/
theorem terminated_inj {mark : α} {parts others : List (List α)}
    (left : ∀ part ∈ parts, mark ∉ part) (right : ∀ part ∈ others, mark ∉ part)
    (same : terminated mark parts = terminated mark others) : parts = others := by
  induction parts generalizing others with
  | nil =>
    cases others with
    | nil => rfl
    | cons other others => simp [terminated] at same
  | cons part parts inductionHypothesis =>
    cases others with
    | nil => simp [terminated] at same
    | cons other others =>
      simp only [terminated, List.flatMap_cons, List.append_assoc, List.singleton_append] at same
      obtain ⟨here, later⟩ := append_mark_inj (left part List.mem_cons_self)
        (right other List.mem_cons_self) same
      rw [here, inductionHypothesis (fun part member => left part (List.mem_cons_of_mem _ member))
        (fun part member => right part (List.mem_cons_of_mem _ member)) later]

/-- Two lists of two kinds one behind the other can be told apart. -/
theorem append_kinds_inj {kind : α → Prop} {first second rest other : List α}
    (firstKind : ∀ a ∈ first, ¬ kind a) (secondKind : ∀ a ∈ second, ¬ kind a)
    (restKind : ∀ a ∈ rest, kind a) (otherKind : ∀ a ∈ other, kind a)
    (same : first ++ rest = second ++ other) : first = second ∧ rest = other := by
  induction first generalizing second with
  | nil =>
    cases second with
    | nil => exact ⟨rfl, same⟩
    | cons a second =>
      rw [List.nil_append] at same
      exact absurd (restKind a (by simp [same])) (secondKind a List.mem_cons_self)
  | cons a first inductionHypothesis =>
    cases second with
    | nil =>
      rw [List.nil_append] at same
      exact absurd (otherKind a (by simp [← same])) (firstKind a List.mem_cons_self)
    | cons b second =>
      rw [List.cons_append, List.cons_append, List.cons.injEq] at same
      obtain ⟨sameFirst, sameRest⟩ := inductionHypothesis
        (fun a member => firstKind a (List.mem_cons_of_mem _ member))
        (fun a member => secondKind a (List.mem_cons_of_mem _ member)) same.2
      exact ⟨by rw [same.1, sameFirst], sameRest⟩

end Semasm.Library.Delimited
