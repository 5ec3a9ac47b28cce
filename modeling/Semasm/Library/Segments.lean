import Mathlib.Data.List.Basic

/-!
# Cutting a list behind closing elements

A list is cut into segments, each ending behind the first element that closes it.
The last segment may be left open. The segments put one after the other are the
list, none of them is empty, and only a last element closes.
-/

namespace Semasm.Library.Segments

universe u v
variable {α : Type u} {β : Type v}

/-- The segments of a list. -/
def segments (closes : α → Bool) : List α → List (List α)
  | [] => []
  | element :: rest =>
    if closes element then [element] :: segments closes rest
    else
      match segments closes rest with
      | [] => [[element]]
      | segment :: later => (element :: segment) :: later

/-- An element that closes is a segment of its own at the front. -/
theorem segments_cons_closed (closes : α → Bool) (element : α) (rest : List α)
    (closed : closes element = true) :
    segments closes (element :: rest) = [element] :: segments closes rest := by
  rw [segments, if_pos closed]

/-- An element that does not close joins the first segment. -/
theorem segments_cons_open (closes : α → Bool) (element : α) (rest : List α)
    (stays : closes element = false) :
    segments closes (element :: rest) =
      (element :: (segments closes rest).head?.getD []) :: (segments closes rest).tail := by
  rw [segments, if_neg (by simp [stays])]
  cases segments closes rest <;> rfl

/-- The segments put one after the other are the list. -/
theorem flatten_segments (closes : α → Bool) (list : List α) :
    (segments closes list).flatten = list := by
  induction list with
  | nil => rfl
  | cons element rest inductionHypothesis =>
    cases closed : closes element with
    | true => simp [segments_cons_closed closes element rest closed, inductionHypothesis]
    | false =>
      rw [segments_cons_open closes element rest closed]
      cases later : segments closes rest with
      | nil =>
        rw [later] at inductionHypothesis
        simp [← inductionHypothesis]
      | cons segment others =>
        rw [later] at inductionHypothesis
        simp [← inductionHypothesis]

/-- No segment is empty. -/
theorem segments_ne_nil (closes : α → Bool) (list : List α) :
    ∀ segment ∈ segments closes list, segment ≠ [] := by
  induction list with
  | nil => simp [segments]
  | cons element rest inductionHypothesis =>
    intro segment member
    cases closed : closes element with
    | true =>
      rw [segments_cons_closed closes element rest closed] at member
      rcases List.mem_cons.mp member with rfl | later
      · simp
      · exact inductionHypothesis segment later
    | false =>
      rw [segments_cons_open closes element rest closed] at member
      rcases List.mem_cons.mp member with rfl | later
      · simp
      · exact inductionHypothesis segment (List.mem_of_mem_tail later)

/-- Only the last element of a segment closes. -/
theorem segments_inner (closes : α → Bool) (list : List α) :
    ∀ segment ∈ segments closes list, ∀ element ∈ segment.dropLast, closes element = false := by
  induction list with
  | nil => simp [segments]
  | cons first rest inductionHypothesis =>
    intro segment member element inner
    cases closed : closes first with
    | true =>
      rw [segments_cons_closed closes first rest closed] at member
      rcases List.mem_cons.mp member with rfl | later
      · simp at inner
      · exact inductionHypothesis segment later element inner
    | false =>
      rw [segments_cons_open closes first rest closed] at member
      rcases List.mem_cons.mp member with rfl | later
      · cases others : segments closes rest with
        | nil => simp [others] at inner
        | cons second last =>
          have inhabited : second ≠ [] := segments_ne_nil closes rest second (by simp [others])
          simp only [others, List.head?_cons, Option.getD_some,
            List.dropLast_cons_of_ne_nil inhabited] at inner
          rcases List.mem_cons.mp inner with rfl | deeper
          · exact closed
          · exact inductionHypothesis second (by simp [others]) element deeper
      · exact inductionHypothesis segment (List.mem_of_mem_tail later) element inner

/-- Every segment but the last one ends with an element that closes. -/
theorem segments_last (closes : α → Bool) (list : List α) (index : Nat) (segment : List α)
    (held : (segments closes list)[index]? = some segment)
    (more : index + 1 < (segments closes list).length) (last : α)
    (ends : segment.getLast? = some last) : closes last = true := by
  induction list generalizing index segment with
  | nil => cases held
  | cons element rest inductionHypothesis =>
    cases closed : closes element with
    | true =>
      rw [segments_cons_closed closes element rest closed] at held more
      cases index with
      | zero =>
        cases held
        cases ends
        exact closed
      | succ index =>
        exact inductionHypothesis index segment held (by simpa using more) ends
    | false =>
      rw [segments_cons_open closes element rest closed] at held more
      cases later : segments closes rest with
      | nil => simp [later] at more
      | cons first others =>
        rw [later] at held more inductionHypothesis
        cases index with
        | zero =>
          cases held
          have inhabited : first ≠ [] := segments_ne_nil closes rest first (by simp [later])
          apply inductionHypothesis 0 first rfl (by simpa using more)
          rw [List.head?_cons, Option.getD_some, List.getLast?_cons_of_ne_nil inhabited] at ends
          exact ends
        | succ index => exact inductionHypothesis (index + 1) segment held (by simpa using more) ends

/-- A list without a closing element is one open segment. -/
theorem segments_open (closes : α → Bool) (list : List α)
    (stays : ∀ element ∈ list, closes element = false) :
    segments closes list = if list.isEmpty then [] else [list] := by
  induction list with
  | nil => rfl
  | cons element rest inductionHypothesis =>
    rw [segments_cons_open closes element rest (stays element (by simp)),
      inductionHypothesis (fun other member => stays other (by simp [member]))]
    cases rest <;> rfl

/-- Open elements and one that closes are the first segment. -/
theorem segments_closed (closes : α → Bool) (before : List α) (element : α) (rest : List α)
    (stays : ∀ other ∈ before, closes other = false) (closed : closes element = true) :
    segments closes (before ++ element :: rest) = (before ++ [element]) :: segments closes rest := by
  induction before with
  | nil => exact segments_cons_closed closes element rest closed
  | cons first before inductionHypothesis =>
    rw [List.cons_append, segments_cons_open closes first _ (stays first (by simp)),
      inductionHypothesis (fun other member => stays other (by simp [member]))]
    rfl

/-- Cutting commutes with a map that keeps what closes. -/
theorem segments_map (closes : β → Bool) (image : α → β) (list : List α) :
    segments closes (list.map image) =
      (segments (fun element => closes (image element)) list).map (List.map image) := by
  induction list with
  | nil => rfl
  | cons element rest inductionHypothesis =>
    rw [List.map_cons]
    cases closed : closes (image element) with
    | true =>
      rw [segments_cons_closed closes _ _ closed, inductionHypothesis,
        segments_cons_closed _ element rest closed]
      simp
    | false =>
      rw [segments_cons_open closes _ _ closed, inductionHypothesis,
        segments_cons_open _ element rest closed]
      cases segments (fun element => closes (image element)) rest <;> simp

end Semasm.Library.Segments
