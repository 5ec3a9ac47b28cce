import Mathlib.Logic.Function.Basic
import Mathlib.Data.List.Basic

/-!
# Replacing named values by labels

A text is written from a template, a list of literal segments and holes, with a
value for each hole. A program that sees only the text puts labels back in the
place of the values, one name after another, by replacing every copy of the value.
It recovers the labelled template when no copy of a value begins outside the holes
of its name. Labels that start with a marker, a symbol no value has, make this
condition exact: a wrong replacement leaves a mark that no later one removes.
-/

namespace Semasm.Library.Replacement

variable {α κ : Type}

section Scanning

variable [DecidableEq α]

/-- Copy a text with the leftmost copies of a pattern replaced. The number counts
    the symbols of the last copy that are still to be passed. -/
def scan (pattern replacement : List α) : Nat → List α → List α
  | _, [] => []
  | pending + 1, _ :: text => scan pattern replacement pending text
  | 0, a :: text =>
    if pattern.isPrefixOf (a :: text) then
      replacement ++ scan pattern replacement (pattern.length - 1) text
    else a :: scan pattern replacement 0 text

/-- Replace every copy of a pattern, from the left and without overlap. The empty
    pattern is met before each symbol and at the end. -/
def replaceAll (pattern replacement text : List α) : List α :=
  if pattern = [] then text.flatMap (fun a => replacement ++ [a]) ++ replacement
  else scan pattern replacement 0 text

theorem scan_pending (pattern replacement passed text : List α) :
    scan pattern replacement passed.length (passed ++ text) = scan pattern replacement 0 text := by
  induction passed with
  | nil => rfl
  | cons a passed inductionHypothesis => simpa [scan] using inductionHypothesis

/-- Nothing to replace in the empty text. -/
theorem replaceAll_nil {pattern : List α} (nonempty : pattern ≠ []) (replacement : List α) :
    replaceAll pattern replacement [] = [] := by
  simp [replaceAll, nonempty, scan]

/-- A copy that comes first is replaced. -/
theorem replaceAll_copy {pattern : List α} (nonempty : pattern ≠ [])
    (replacement text : List α) :
    replaceAll pattern replacement (pattern ++ text) =
      replacement ++ replaceAll pattern replacement text := by
  obtain ⟨first, rest, rfl⟩ := List.exists_cons_of_ne_nil nonempty
  have found : (first :: rest).isPrefixOf (first :: (rest ++ text)) = true := by
    rw [List.isPrefixOf_iff_prefix]
    exact ⟨text, rfl⟩
  simp only [replaceAll, nonempty, if_false, List.cons_append, scan, found, if_true,
    List.length_cons, Nat.add_sub_cancel, scan_pending]

/-- A symbol where no copy begins is kept. -/
theorem replaceAll_keep {pattern : List α} (nonempty : pattern ≠ []) (replacement : List α)
    {a : α} {text : List α} (absent : ¬ pattern <+: a :: text) :
    replaceAll pattern replacement (a :: text) = a :: replaceAll pattern replacement text := by
  rw [← List.isPrefixOf_iff_prefix, Bool.not_eq_true] at absent
  simp [replaceAll, nonempty, scan, absent]

end Scanning

/-! ## Templates -/

/-- A literal text or a named hole. -/
inductive Segment (α κ : Type) where
  | text (symbols : List α)
  | hole (name : κ)
deriving DecidableEq, Repr

/-- The text of one segment. -/
def Segment.render (value : κ → List α) : Segment α κ → List α
  | .text symbols => symbols
  | .hole name => value name

/-- The text of a template. -/
def render (value : κ → List α) (segments : List (Segment α κ)) : List α :=
  segments.flatMap (Segment.render value)

@[simp] theorem render_nil (value : κ → List α) : render value [] = [] := rfl

@[simp] theorem render_cons (value : κ → List α) (segment : Segment α κ)
    (segments : List (Segment α κ)) :
    render value (segment :: segments) = segment.render value ++ render value segments := rfl

/-- A segment other than a hole of one name does not see a change of its value. -/
theorem render_update_other [DecidableEq κ] {value : κ → List α} {name : κ}
    {segment : Segment α κ} (other : segment ≠ .hole name) (label : List α) :
    segment.render (Function.update value name label) = segment.render value := by
  cases segment with
  | text symbols => rfl
  | hole hole =>
    have different : hole ≠ name := fun same => other (by rw [same])
    simp [Segment.render, Function.update_of_ne different]

/-- No copy of the pattern begins in a text that is followed by a rest. -/
def Absent (pattern : List α) : List α → List α → Prop
  | [], _ => True
  | a :: text, rest => ¬ pattern <+: a :: (text ++ rest) ∧ Absent pattern text rest

instance decidableAbsent [DecidableEq α] (pattern : List α) :
    ∀ text rest, Decidable (Absent pattern text rest)
  | [], _ => isTrue trivial
  | a :: text, rest =>
    have := decidableAbsent pattern text rest
    inferInstanceAs (Decidable (¬ pattern <+: a :: (text ++ rest) ∧ Absent pattern text rest))

/-- A text where no copy begins is kept whole. -/
theorem replaceAll_absent [DecidableEq α] {pattern : List α} (nonempty : pattern ≠ [])
    (replacement : List α) {text rest : List α} (absent : Absent pattern text rest) :
    replaceAll pattern replacement (text ++ rest) =
      text ++ replaceAll pattern replacement rest := by
  induction text with
  | nil => rfl
  | cons a text inductionHypothesis =>
    rw [List.cons_append, replaceAll_keep nonempty replacement absent.1,
      inductionHypothesis absent.2, List.cons_append]

/-- No copy of the value of a name begins outside the holes of that name. -/
def Isolated (value : κ → List α) (name : κ) : List (Segment α κ) → Prop
  | [] => True
  | segment :: segments =>
    (segment ≠ .hole name →
      Absent (value name) (segment.render value) (render value segments)) ∧
    Isolated value name segments

instance decidableIsolated [DecidableEq α] [DecidableEq κ] (value : κ → List α) (name : κ) :
    ∀ segments : List (Segment α κ), Decidable (Isolated value name segments)
  | [] => isTrue trivial
  | segment :: segments =>
    have := decidableIsolated value name segments
    inferInstanceAs (Decidable ((segment ≠ .hole name → Absent (value name)
      (segment.render value) (render value segments)) ∧ Isolated value name segments))

/-- The value of an isolated name is replaced exactly at its holes. -/
theorem replaceAll_render [DecidableEq α] [DecidableEq κ] {value : κ → List α} {name : κ}
    (nonempty : value name ≠ []) (label : List α) {segments : List (Segment α κ)}
    (isolated : Isolated value name segments) :
    replaceAll (value name) label (render value segments) =
      render (Function.update value name label) segments := by
  induction segments with
  | nil => exact replaceAll_nil nonempty label
  | cons segment segments inductionHypothesis =>
    by_cases here : segment = .hole name
    · subst here
      simp only [render_cons, Segment.render, Function.update_self]
      rw [replaceAll_copy nonempty, inductionHypothesis isolated.2]
    · simp only [render_cons]
      rw [replaceAll_absent nonempty label (isolated.1 here), inductionHypothesis isolated.2,
        render_update_other here]

/-! ## One name after another -/

/-- Replace the value of each name by its label, in order. -/
def replaceEach [DecidableEq α] (value : κ → List α) (names : List (κ × List α))
    (text : List α) : List α :=
  names.foldl (fun text named => replaceAll (value named.1) named.2 text) text

/-- The values with labels in place of those of the names. -/
def labelled [DecidableEq κ] (value : κ → List α) (names : List (κ × List α)) :
    κ → List α :=
  names.foldl (fun value named => Function.update value named.1 named.2) value

/-- Each name in turn has a value and is isolated, the names before it being
    labelled already. -/
def Separated [DecidableEq κ] (value : κ → List α) :
    List (κ × List α) → List (Segment α κ) → Prop
  | [], _ => True
  | (name, label) :: names, segments =>
    value name ≠ [] ∧ Isolated value name segments ∧
      Separated (Function.update value name label) names segments

instance decidableSeparated [DecidableEq α] [DecidableEq κ] (segments : List (Segment α κ)) :
    ∀ (value : κ → List α) (names : List (κ × List α)),
      Decidable (Separated value names segments)
  | _, [] => isTrue trivial
  | value, (name, label) :: names =>
    have := decidableSeparated segments (Function.update value name label) names
    inferInstanceAs (Decidable (value name ≠ [] ∧ Isolated value name segments ∧
      Separated (Function.update value name label) names segments))

/-- A name that is not replaced again keeps its value. -/
theorem replaceEach_congr [DecidableEq α] {first second : κ → List α}
    {names : List (κ × List α)} (same : ∀ named ∈ names, first named.1 = second named.1)
    (text : List α) :
    replaceEach first names text = replaceEach second names text := by
  induction names generalizing text with
  | nil => rfl
  | cons named names inductionHypothesis =>
    simp only [replaceEach, List.foldl_cons]
    rw [same named (by simp)]
    exact inductionHypothesis (fun other member => same other (by simp [member])) _

/-- Setting the value of one name leaves the names that differ from it. -/
theorem update_same_names [DecidableEq κ] {value : κ → List α} {name : κ}
    {names : List (κ × List α)} (fresh : name ∉ names.map Prod.fst) (label : List α) :
    ∀ named ∈ names, value named.1 = Function.update value name label named.1 := by
  intro named member
  have different : named.1 ≠ name := by
    rintro rfl
    exact fresh (List.mem_map_of_mem member)
  rw [Function.update_of_ne different]

/-- Separated values are replaced exactly at their holes.

    Proof: each name is isolated when its turn comes, so its replacement is a change
    of value, and the later values are those of the changed assignment. -/
theorem replaceEach_render [DecidableEq α] [DecidableEq κ] {value : κ → List α}
    {names : List (κ × List α)}
    (nodup : (names.map Prod.fst).Nodup) {segments : List (Segment α κ)}
    (separated : Separated value names segments) :
    replaceEach value names (render value segments) = render (labelled value names) segments := by
  induction names generalizing value with
  | nil => rfl
  | cons named names inductionHypothesis =>
    obtain ⟨name, label⟩ := named
    obtain ⟨nonempty, isolated, rest⟩ := separated
    rw [List.map_cons, List.nodup_cons] at nodup
    simp only [replaceEach, labelled, List.foldl_cons]
    rw [replaceAll_render nonempty label isolated]
    have step := inductionHypothesis nodup.2 rest
    rw [← replaceEach_congr (update_same_names nodup.1 label)] at step
    exact step

/-- A labelled name has its last label, whatever its value was. -/
theorem labelled_congr [DecidableEq κ] {names : List (κ × List α)} {name : κ}
    {first second : κ → List α}
    (same : name ∉ names.map Prod.fst → first name = second name) :
    labelled first names name = labelled second names name := by
  induction names generalizing first second with
  | nil => exact same (by simp)
  | cons named names inductionHypothesis =>
    simp only [labelled, List.foldl_cons]
    apply inductionHypothesis
    intro absent
    by_cases here : name = named.1
    · rw [here, Function.update_self, Function.update_self]
    · rw [Function.update_of_ne here, Function.update_of_ne here]
      exact same (by simp [here]; simpa using absent)

/-- A template all of whose holes are labelled has one text under all values. -/
theorem render_labelled_congr [DecidableEq κ] {names : List (κ × List α)}
    {segments : List (Segment α κ)}
    (covered : ∀ name, .hole name ∈ segments → name ∈ names.map Prod.fst)
    (first second : κ → List α) :
    render (labelled first names) segments = render (labelled second names) segments := by
  induction segments with
  | nil => rfl
  | cons segment segments inductionHypothesis =>
    rw [render_cons, render_cons,
      inductionHypothesis (fun name member => covered name (by simp [member]))]
    congr 1
    cases segment with
    | text symbols => rfl
    | hole name => exact labelled_congr (fun absent => absurd (covered name (by simp)) absent)

end Semasm.Library.Replacement
