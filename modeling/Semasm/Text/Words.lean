import Semasm.Text
import Mathlib.Data.List.Basic
import Mathlib.Tactic.SplitIfs

/-!
# Words and numerals

What the string operations do with a text that was put together: words with one blank
between them are split into these words, a text with a mark in it is cut at the mark,
and the digits of a number are read as that number.
-/

namespace Semasm.Text

/-- A word has a character, and none of its characters is a blank. -/
def Solid (word : List Char) : Prop := word ≠ [] ∧ ∀ c ∈ word, isWhitespace c = false

/-- A blank ends a part. -/
theorem splitWhitespace_append (text rest : List Char) :
    splitWhitespace (text ++ ' ' :: rest) = splitWhitespace text ++ splitWhitespace rest := by
  unfold splitWhitespace
  rw [List.splitOnP_append_cons text rest (by decide), List.filter_append]

/-- A word alone is one part. -/
theorem splitWhitespace_word (word : List Char) (solid : Solid word) :
    splitWhitespace word = [word] := by
  have filled : word.isEmpty = false := by
    rw [List.isEmpty_eq_false_iff]
    exact solid.1
  rw [splitWhitespace, List.splitOnP_eq_singleton solid.2]
  simp [filled]

/-- Words with one blank between them are split into the words. -/
theorem splitWhitespace_intercalate (words : List (List Char))
    (solid : ∀ word ∈ words, Solid word) :
    splitWhitespace ([' '].intercalate words) = words := by
  induction words with
  | nil => decide
  | cons word rest inductionHypothesis =>
    have later := inductionHypothesis (fun other member => solid other (List.mem_cons_of_mem _ member))
    have first := splitWhitespace_word word (solid word List.mem_cons_self)
    cases rest with
    | nil => simpa [List.intercalate] using first
    | cons next others =>
      have joined : [' '].intercalate (word :: next :: others) =
          word ++ ' ' :: [' '].intercalate (next :: others) := by
        simp [List.intercalate, List.intersperse]
      rw [joined, splitWhitespace_append, first, later, List.singleton_append]

/-- The characters of joined words are theirs, or blanks. -/
theorem mem_intercalate {words : List (List Char)} {c : Char}
    (member : c ∈ [' '].intercalate words) : c = ' ' ∨ ∃ word ∈ words, c ∈ word := by
  induction words with
  | nil => simp [List.intercalate] at member
  | cons word rest inductionHypothesis =>
    cases rest with
    | nil => exact .inr ⟨word, List.mem_cons_self, by simpa [List.intercalate] using member⟩
    | cons next others =>
      have joined : [' '].intercalate (word :: next :: others) =
          word ++ ' ' :: [' '].intercalate (next :: others) := by
        simp [List.intercalate, List.intersperse]
      rw [joined, List.mem_append, List.mem_cons] at member
      rcases member with here | blank | later
      · exact .inr ⟨word, List.mem_cons_self, here⟩
      · exact .inl blank
      · rcases inductionHypothesis later with blank | ⟨other, listed, inside⟩
        · exact .inl blank
        · exact .inr ⟨other, List.mem_cons_of_mem _ listed, inside⟩

/-- Trimming adds no character. -/
theorem mem_of_mem_trimChars {text : List Char} {c : Char} (member : c ∈ trimChars text) :
    c ∈ text := by
  rw [trimChars, List.mem_reverse] at member
  have inner := List.mem_reverse.mp ((List.dropWhile_sublist _).mem member)
  exact (List.dropWhile_sublist _).mem inner

/-- A text without a blank at either end is its own trimmed text. -/
theorem trimChars_of_ends (text : List Char) (first : ∀ c ∈ text.head?, isWhitespace c = false)
    (last : ∀ c ∈ text.getLast?, isWhitespace c = false) : trimChars text = text := by
  have kept (text : List Char) (first : ∀ c ∈ text.head?, isWhitespace c = false) :
      text.dropWhile isWhitespace = text := by
    cases text with
    | nil => rfl
    | cons c rest => rw [List.dropWhile_cons_of_neg (by simp [first c rfl])]
  rw [trimChars, kept text first, kept text.reverse (by simpa using last), List.reverse_reverse]

/-- A word is its own trimmed text. -/
theorem trimChars_solid (word : List Char) (solid : Solid word) : trimChars word = word :=
  trimChars_of_ends word (fun c begins => solid.2 c (List.mem_of_head? begins))
    (fun c ends => solid.2 c (List.mem_of_getLast? ends))

/-- A blank in front is trimmed. -/
theorem trimChars_blank (text : List Char) : trimChars (' ' :: text) = trimChars text := by
  rw [trimChars, List.dropWhile_cons_of_pos (by decide), trimChars]

/-- Cutting at the first mark. -/
theorem splitOnce_append (mark : Char) (left right : List Char) (clear : mark ∉ left) :
    splitOnce mark (left ++ mark :: right) = some (left, right) := by
  have other : ∀ c ∈ left, (c != mark) = true := by
    intro c member
    rw [bne_iff_ne]
    exact fun same => clear (same ▸ member)
  rw [splitOnce, if_pos (by simp), List.takeWhile_append_of_pos other,
    List.dropWhile_append_of_pos other]
  simp

/-- Without the mark nothing is cut. -/
theorem splitOnce_notMem (mark : Char) (text : List Char) (clear : mark ∉ text) :
    splitOnce mark text = none := if_neg clear

/-- Removing the last character. -/
theorem stripSuffix_concat (stop : Char) (text : List Char) :
    stripSuffix stop (text ++ [stop]) = some text := by
  rw [stripSuffix, if_pos (by simp), List.dropLast_concat]

/-- A text without the character keeps its end. -/
theorem stripSuffix_notMem (stop : Char) (text : List Char) (clear : stop ∉ text) :
    stripSuffix stop text = none :=
  if_neg fun last => clear (List.mem_of_getLast? last)

/-- What stands before the last character. -/
theorem beforeLast_concat (stop : Char) (text : List Char) :
    beforeLast stop (text ++ [stop]) = some text := by
  rw [beforeLast, if_pos (by simp), List.reverse_append, List.reverse_singleton,
    List.singleton_append, List.dropWhile_cons_of_neg (by simp)]
  simp

/-- A text that does not hold the first character of the pattern is passed. -/
theorem afterFirst_skip (c : Char) (pattern front text : List Char) (clear : c ∉ front) :
    afterFirst (c :: pattern) (front ++ text) = afterFirst (c :: pattern) text := by
  induction front with
  | nil => rfl
  | cons other rest inductionHypothesis =>
    rw [List.mem_cons, not_or] at clear
    rw [List.cons_append, afterFirst]
    simp only [stripPrefix, if_neg clear.1]
    exact inductionHypothesis clear.2

/-- The pattern at the start. -/
theorem afterFirst_start (c : Char) (pattern rest : List Char) :
    afterFirst (c :: pattern) (c :: pattern ++ rest) = some rest := by
  have stripped (text : List Char) : stripPrefix text (text ++ rest) = some rest := by
    induction text with
    | nil => rfl
    | cons first others inductionHypothesis => simpa [stripPrefix] using inductionHypothesis
  have here := stripped (c :: pattern)
  rw [List.cons_append] at here ⊢
  rw [afterFirst, here]

/-- What follows the pattern is an end of the text. -/
theorem afterFirst_suffix (pattern text rest : List Char)
    (found : afterFirst pattern text = some rest) : rest <:+ text := by
  have stripped (front text rest : List Char) (same : stripPrefix front text = some rest) :
      rest <:+ text := by
    induction front generalizing text with
    | nil =>
      cases same
      exact List.suffix_rfl
    | cons first others inductionHypothesis =>
      cases text with
      | nil => cases same
      | cons c text =>
        rw [stripPrefix] at same
        split at same
        · exact (inductionHypothesis text same).trans (List.suffix_cons c text)
        · cases same
  induction text with
  | nil =>
    rw [afterFirst] at found
    split at found
    · cases found
      exact List.suffix_rfl
    · cases found
  | cons c text inductionHypothesis =>
    rw [afterFirst] at found
    split at found
    next tail same =>
      cases found
      exact stripped pattern (c :: text) rest same
    next => exact (inductionHypothesis found).trans (List.suffix_cons c text)

/-- What follows the first mark. -/
theorem afterFirst_append (mark : Char) (text rest : List Char) (clear : mark ∉ text) :
    afterFirst [mark] (text ++ mark :: rest) = some rest := by
  rw [afterFirst_skip mark [] text _ clear]
  exact afterFirst_start mark [] rest

/-- The digit character of a value is read as that value. -/
theorem digitValue_digitChar (radix value : Nat) (small : value < radix) (most : radix ≤ 16) :
    digitValue radix (Nat.digitChar value) = some value := by
  have shape : value < 16 := by omega
  have code : ∀ digit < 16, digitValue 16 (Nat.digitChar digit) = some digit := by decide
  have read := code value shape
  unfold digitValue at read ⊢
  rw [Option.filter_eq_some_iff] at read ⊢
  exact ⟨read.1, by simpa using small⟩

/-- Digits in two parts. -/
theorem foldDigits_concat (radix value : Nat) (front : List Char) (last : Char) :
    foldDigits radix value (front ++ [last]) =
      (foldDigits radix value front).bind
        (fun high => (digitValue radix last).map (fun low => high * radix + low)) := by
  induction front generalizing value with
  | nil => cases read : digitValue radix last <;> simp [foldDigits, read]
  | cons c rest inductionHypothesis =>
    rw [List.cons_append, foldDigits, foldDigits]
    cases digitValue radix c with
    | none => rfl
    | some digit => exact inductionHypothesis _

/-- The digits of a number are read as the number. -/
theorem foldDigits_toDigits (radix number : Nat) (least : 1 < radix) (most : radix ≤ 16) :
    foldDigits radix 0 (Nat.toDigits radix number) = some number := by
  induction number using Nat.strongRecOn with
  | ind number inductionHypothesis =>
    rcases Nat.lt_or_ge number radix with small | large
    · rw [Nat.toDigits_of_lt_base small]
      simp [foldDigits, digitValue_digitChar radix number small most]
    · have high := inductionHypothesis (number / radix)
        (Nat.div_lt_self (by omega) least)
      have low := digitValue_digitChar radix (number % radix)
        (Nat.mod_lt number (by omega)) most
      rw [Nat.toDigits_of_base_le least large, foldDigits_concat, high, low]
      simp only [Option.bind_some, Option.map_some, Option.some.injEq]
      exact Nat.div_add_mod' number radix

/-- `parse` of the digits of a number. -/
theorem parseDigits_toDigits (radix number : Nat) (least : 1 < radix) (most : radix ≤ 16) :
    parseDigits radix (Nat.toDigits radix number) = some number := by
  have read := foldDigits_toDigits radix number least most
  cases shape : Nat.toDigits radix number with
  | nil => exact absurd shape Nat.toDigits_ne_nil
  | cons c rest => rwa [shape] at read

/-- The characters of a number are digits of the radix. -/
theorem mem_toDigits (radix number : Nat) (least : 1 < radix) :
    ∀ c ∈ Nat.toDigits radix number, ∃ digit < radix, c = Nat.digitChar digit := by
  induction number using Nat.strongRecOn with
  | ind number inductionHypothesis =>
    intro c member
    rcases Nat.lt_or_ge number radix with small | large
    · rw [Nat.toDigits_of_lt_base small, List.mem_singleton] at member
      exact ⟨number, small, member⟩
    · rw [Nat.toDigits_of_base_le least large, List.mem_append, List.mem_singleton] at member
      rcases member with front | last
      · exact inductionHypothesis (number / radix) (Nat.div_lt_self (by omega) least) c front
      · exact ⟨number % radix, Nat.mod_lt number (by omega), last⟩

/-- The digits of a number as a signed integer: refused from `2 ^ 63` on. -/
theorem parseI64_toDigits (radix number : Nat) (least : 1 < radix) (most : radix ≤ 16) :
    parseI64 radix (Nat.toDigits radix number) =
      if number < 2 ^ 63 then some (Int64.ofInt number) else none := by
  have read := parseDigits_toDigits radix number least most
  have plain := mem_toDigits radix number least
  have signs : ∀ digit < 16, Nat.digitChar digit ≠ '-' ∧ Nat.digitChar digit ≠ '+' := by decide
  cases shape : Nat.toDigits radix number with
  | nil => exact absurd shape Nat.toDigits_ne_nil
  | cons c rest =>
    obtain ⟨digit, small, same⟩ := plain c (by simp [shape])
    have minus : c ≠ '-' := same ▸ (signs digit (Nat.lt_of_lt_of_le small most)).1
    have plus : c ≠ '+' := same ▸ (signs digit (Nat.lt_of_lt_of_le small most)).2
    rw [shape] at read
    unfold parseI64
    split
    next tail cut => exact absurd (List.cons.inj cut).1 minus
    next tail cut => exact absurd (List.cons.inj cut).1 plus
    next => rw [read]

/-- What begins with neither a sign nor a digit is no number. -/
theorem parseI64_letter (first : Char) (rest : List Char) (letter : 97 ≤ first.toNat) :
    parseI64 10 (first :: rest) = none := by
  have apart (c : Char) (low : c.toNat < 97) : first ≠ c := by
    intro same
    rw [same] at letter
    omega
  have noDigit : digitValue 10 first = none := by
    unfold digitValue
    simp only [Option.filter_eq_none_iff]
    intro value read
    split_ifs at read <;> simp only [Option.some.injEq] at read <;> simp <;> omega
  have noDigits : parseDigits 10 (first :: rest) = none := by
    rw [parseDigits, foldDigits, noDigit]
  unfold parseI64
  split
  next tail same => exact absurd (List.cons.inj same).1 (apart '-' (by decide))
  next tail same => exact absurd (List.cons.inj same).1 (apart '+' (by decide))
  next => rw [noDigits]

end Semasm.Text
