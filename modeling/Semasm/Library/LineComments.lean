import Mathlib.Data.List.Basic

/-!
# Comments that run to the end of a line

A comment starts at a marker and ends before the next element that ends a line. What is
left of a text without its comments keeps every line end, so it has as many of them as
the text. A comment's text does not reach it as long as no element of it ends a line.
-/

namespace Semasm.Library.LineComments

universe u
variable {α : Type u} [DecidableEq α]

/-- What ends a line and what starts a comment. No part of the marker ends a line. -/
structure Style (α : Type u) where
  ends : α → Bool
  marker : List α
  marked : marker ≠ []
  oneLine : ∀ element ∈ marker, ends element = false

/-- A text without its comments, read from inside or outside of one. -/
def strip (style : Style α) : Bool → List α → List α
  | _, [] => []
  | true, element :: rest =>
    if style.ends element then element :: strip style false rest else strip style true rest
  | false, element :: rest =>
    if style.marker.isPrefixOf (element :: rest) then strip style true rest
    else element :: strip style false rest

/-- A text on one line. -/
def OneLine (style : Style α) (text : List α) : Prop := ∀ element ∈ text, style.ends element = false

variable (style : Style α)

/-- Text inside a comment is dropped. -/
theorem strip_comment_text (text rest : List α) (plain : OneLine style text) :
    strip style true (text ++ rest) = strip style true rest := by
  induction text with
  | nil => rfl
  | cons element text inductionHypothesis =>
    rw [List.cons_append, strip, if_neg (by simp [plain element (by simp)])]
    exact inductionHypothesis (fun other member => plain other (by simp [member]))

/-- A line end inside a comment closes it. -/
theorem strip_comment_end (stop : α) (rest : List α) (ends : style.ends stop = true) :
    strip style true (stop :: rest) = stop :: strip style false rest := by
  rw [strip, if_pos ends]

/-- The marker starts a comment. -/
theorem strip_marker (rest : List α) :
    strip style false (style.marker ++ rest) = strip style true rest := by
  obtain ⟨first, others, split⟩ := List.exists_cons_of_ne_nil style.marked
  have found : style.marker.isPrefixOf (first :: (others ++ rest)) = true := by
    rw [List.isPrefixOf_iff_prefix, ← List.cons_append, ← split]
    exact List.prefix_append style.marker rest
  rw [split, List.cons_append, strip, if_pos found]
  exact strip_comment_text style others rest
    (fun other member => style.oneLine other (by simp [split, member]))

/-- Whether a marker starts a text is seen on any front of it that is long enough. -/
theorem marker_seen (front rest : List α) (long : style.marker.length ≤ front.length) :
    style.marker.isPrefixOf (front ++ rest) = style.marker.isPrefixOf front := by
  rw [Bool.eq_iff_iff, List.isPrefixOf_iff_prefix, List.isPrefixOf_iff_prefix]
  constructor
  · exact fun starts => List.prefix_of_prefix_length_le starts (List.prefix_append front rest) long
  · exact fun starts => starts.trans (List.prefix_append front rest)

/-- A marker does not reach over the end of a line. -/
theorem marker_line (line rest : List α) (stop : α) (ends : style.ends stop = true) :
    style.marker.isPrefixOf (line ++ stop :: rest) = style.marker.isPrefixOf line := by
  rw [Bool.eq_iff_iff, List.isPrefixOf_iff_prefix, List.isPrefixOf_iff_prefix]
  constructor
  · intro starts
    rcases Nat.lt_or_ge line.length style.marker.length with short | long
    · have front : line ++ [stop] <+: line ++ stop :: rest := ⟨rest, by simp⟩
      have reached : line ++ [stop] <+: style.marker := by
        apply List.prefix_of_prefix_length_le front starts
        rw [List.length_append, List.length_singleton]
        exact short
      have within := style.oneLine stop (reached.subset (by simp))
      rw [ends] at within
      cases within
    · exact List.prefix_of_prefix_length_le starts (List.prefix_append line _) long
  · exact fun starts => starts.trans (List.prefix_append line _)

/-- A line that ends is stripped on its own, and the text after it starts outside of
comments. -/
theorem strip_line (inside : Bool) (line rest : List α) (stop : α)
    (ends : style.ends stop = true) :
    strip style inside (line ++ stop :: rest) =
      strip style inside (line ++ [stop]) ++ strip style false rest := by
  induction line generalizing inside with
  | nil =>
    cases inside with
    | true => simp [strip_comment_end style stop _ ends, strip]
    | false =>
      have unmarked : ∀ tail, style.marker.isPrefixOf (stop :: tail) = false := by
        intro tail
        have same := marker_line style [] tail stop ends
        rw [List.nil_append] at same
        rw [same, ← Bool.not_eq_true, List.isPrefixOf_iff_prefix]
        exact fun starts => style.marked (List.prefix_nil.mp starts)
      simp [strip, unmarked]
  | cons element line inductionHypothesis =>
    cases inside with
    | true =>
      simp only [List.cons_append, strip]
      split
      · simp [inductionHypothesis]
      · exact inductionHypothesis true
    | false =>
      have same : style.marker.isPrefixOf (element :: (line ++ stop :: rest)) =
          style.marker.isPrefixOf (element :: (line ++ [stop])) := by
        rw [← List.cons_append, ← List.cons_append, marker_line style _ rest stop ends,
          marker_line style _ [] stop ends]
      simp only [List.cons_append, strip, same]
      split
      · exact inductionHypothesis true
      · simp [inductionHypothesis]

/-- A text of whole lines is stripped line by line. -/
theorem strip_lines (lines : List (List α)) (stop : α) (ends : style.ends stop = true) :
    strip style false (lines.flatMap (fun line => line ++ [stop])) =
      lines.flatMap (fun line => strip style false (line ++ [stop])) := by
  induction lines with
  | nil => rfl
  | cons line lines inductionHypothesis =>
    rw [List.flatMap_cons, List.append_assoc, List.singleton_append, strip_line style _ _ _ _ ends,
      inductionHypothesis, List.flatMap_cons]

/-- A comment on one line is as good as an empty one. -/
theorem strip_comment (inside : Bool) (before text : List α) (stop : α)
    (plain : OneLine style text) :
    strip style inside (before ++ (style.marker ++ (text ++ [stop]))) =
      strip style inside (before ++ (style.marker ++ [stop])) := by
  induction before generalizing inside with
  | nil =>
    cases inside with
    | true =>
      rw [List.nil_append, List.nil_append, strip_comment_text style _ _ style.oneLine,
        strip_comment_text style _ _ style.oneLine, strip_comment_text style _ _ plain]
    | false =>
      rw [List.nil_append, List.nil_append, strip_marker, strip_marker,
        strip_comment_text style _ _ plain]
  | cons element before inductionHypothesis =>
    cases inside with
    | true =>
      simp only [List.cons_append, strip, inductionHypothesis]
    | false =>
      have same : ∀ rest, style.marker.isPrefixOf (element :: (before ++ (style.marker ++ rest))) =
          style.marker.isPrefixOf (element :: (before ++ style.marker)) := by
        intro rest
        rw [← marker_seen style (element :: (before ++ style.marker)) rest (by simp; omega)]
        simp
      simp only [List.cons_append, strip, same, inductionHypothesis]

/-- Stripping keeps every line end. -/
theorem countP_strip (inside : Bool) (text : List α) :
    (strip style inside text).countP style.ends = text.countP style.ends := by
  induction text generalizing inside with
  | nil => cases inside <;> rfl
  | cons element text inductionHypothesis =>
    cases inside with
    | true =>
      rw [strip, List.countP_cons]
      split
      · rename_i ends
        rw [List.countP_cons, if_pos ends, inductionHypothesis]
      · rw [inductionHypothesis, Nat.add_zero]
    | false =>
      rw [strip, List.countP_cons]
      split
      · rename_i starts
        obtain ⟨first, others, split⟩ := List.exists_cons_of_ne_nil style.marked
        have same : first = element := by
          rw [List.isPrefixOf_iff_prefix, split, List.cons_prefix_cons] at starts
          exact starts.1
        have plain := style.oneLine element (by simp [split, same])
        rw [inductionHypothesis, if_neg (by simp [plain]), Nat.add_zero]
      · rw [List.countP_cons, inductionHypothesis]

end Semasm.Library.LineComments
