import Semasm.Contract.TypeParser

/-!
# The documented type grammar

A type is a word, an integer letter with a width, or a composite whose parts
stand between angle brackets; blanks may separate the tokens. A spelling is
loose when `const` runs into the pointee or a width begins with a zero, which
the grammar does not document. The parser accepts a text exactly when it is
spelled one way or the other, so it agrees with the documented grammar on the
texts without a loose spelling.
-/

namespace Semasm.Contract

open Library.Scanning TypeParser

/-- The words that are types of their own. -/
def typeWords : List (String × SemType) :=
  [("bool", .bool), ("status", .status), ("usize", .usize), ("isize", .isize)]

/-- The letter of an integer type. -/
def integerLetter (signed : Bool) : String := if signed then "i" else "u"

/-- The integer type of a width. -/
def integerType (signed : Bool) (bits : UInt16) : SemType :=
  if signed then .int bits else .uint bits

/-- What stands between the brackets, its brackets and the gaps around them. -/
def bracketed (between inside after : List Char) : List Char :=
  between ++ ("<".toList ++ (inside ++ (after ++ ">".toList)))

/-- A composite type: its word, and what stands between its brackets. -/
def enclosed (before : List Char) (word : String) (between inside after : List Char) :
    List Char :=
  before ++ (word.toList ++ bracketed between inside after)

/-- `const` runs into the text after it. -/
def glued (text : List Char) : Bool := !text.head?.any isAsciiWhitespace

/-- The text spells the type; the flag says that it does so loosely. -/
inductive Spells : Bool → List Char → SemType → Prop
  | word {gap : List Char} {word : String} {ty : SemType} (blank : Gap gap)
      (listed : (word, ty) ∈ typeWords) : Spells false (gap ++ word.toList) ty
  | width {gap digits : List Char} {bits : UInt16} (signed : Bool) (blank : Gap gap)
      (numeral : Numeral digits bits.toNat) (allowed : bits.toUInt64 ∈ widths) :
      Spells (digits.head? == some '0') (gap ++ ((integerLetter signed).toList ++ digits))
        (integerType signed bits)
  | ptr {loose : Bool} {before between inner after : List Char} {ty : SemType}
      (blanks : Gap before ∧ Gap between ∧ Gap after) (inside : Spells loose inner ty) :
      Spells loose (enclosed before "ptr" between inner after) (.ptr ty false)
  | constPtr {loose : Bool} {before between gap inner after : List Char} {ty : SemType}
      (blanks : Gap before ∧ Gap between ∧ Gap gap ∧ Gap after) (inside : Spells loose inner ty) :
      Spells (loose || glued inner)
        (enclosed before "ptr" between (gap ++ ("const".toList ++ inner)) after) (.ptr ty true)
  | slice {loose : Bool} {before between inner after : List Char} {ty : SemType}
      (blanks : Gap before ∧ Gap between ∧ Gap after) (inside : Spells loose inner ty) :
      Spells loose (enclosed before "slice" between inner after) (.slice ty)
  | array {loose : Bool} {before between inner front back digits after : List Char} {ty : SemType}
      {len : UInt64} (blanks : Gap before ∧ Gap between ∧ Gap front ∧ Gap back ∧ Gap after)
      (inside : Spells loose inner ty) (numeral : Numeral digits len.toNat) :
      Spells loose
        (enclosed before "array" between (inner ++ (front ++ (",".toList ++ (back ++ digits)))) after)
        (.array ty len)
  | named {before between gap name after : List Char}
      (blanks : Gap before ∧ Gap between ∧ Gap gap ∧ Gap after) (isName : IsName name) :
      Spells false (enclosed before "opaque" between (gap ++ name) after)
        (.named (String.ofList name))

/-- The text is a type of the documented grammar, up to blanks at its end. -/
def Documented (text : String) (ty : SemType) : Prop :=
  ∃ body gap, text.toList = body ++ gap ∧ Gap gap ∧ Spells false body ty

/-- The text spells the type in a way the grammar does not document. -/
def LooselySpelled (text : String) (ty : SemType) : Prop :=
  ∃ body gap, text.toList = body ++ gap ∧ Gap gap ∧ Spells true body ty

/-! ## Reading one token -/

theorem parseDigits_numeral (pos : Nat) {digits rest : List Char} {value : UInt64}
    (numeral : Numeral digits value.toNat) (ends : Stops isAsciiDigit rest) :
    parseDigits ⟨pos, digits ++ rest⟩ = .ok (value, ⟨pos + digits.length, rest⟩) := by
  simp only [parseDigits, span_run isAsciiDigit pos numeral.1 ends, if_neg numeral.nonempty,
    (parse_u64_digits numeral.1 value).2 numeral]

theorem parseDigits_sound {cursor after : Cursor Char} {value : UInt64}
    (read : parseDigits cursor = .ok (value, after)) :
    ∃ digits, cursor.rest = digits ++ after.rest ∧ Numeral digits value.toNat := by
  obtain ⟨split, all, _⟩ := span_sound isAsciiDigit cursor
  simp only [parseDigits] at read
  split at read
  next => exact absurd read (by simp)
  next =>
    split at read
    next number spelled =>
      obtain ⟨rfl, rfl⟩ := Prod.mk.inj (Except.ok.inj read)
      exact ⟨_, split, (parse_u64_digits all number).1 spelled⟩
    next => exact absurd read (by simp)

/-- The first token of the list that comes next is the one acted upon. -/
theorem tryEach_hit (otherwise : Parser SemType) (before more : List (String × Parser SemType))
    {token : String} (action : Parser SemType) (isToken : IsToken token) (pos : Nat)
    (rest : List Char)
    (others : ∀ alternative ∈ before, ¬ alternative.1.toList <+: token.toList ++ rest) :
    tryEach otherwise (before ++ (token, action) :: more) ⟨pos, token.toList ++ rest⟩ =
      action ⟨pos + token.toList.length, rest⟩ := by
  induction before with
  | nil =>
    have eaten := eat_token token isToken pos gap_nil rest
    simp only [List.nil_append, List.length_nil, Nat.add_zero] at eaten
    simp only [List.nil_append, tryEach, eaten]
  | cons alternative before inductionHypothesis =>
    have here : skipWs ⟨pos, token.toList ++ rest⟩ = ⟨pos, token.toList ++ rest⟩ :=
      skip_stopped isAsciiWhitespace (isToken.stops.append rest isToken.nonempty)
    have missed := eat_other alternative.1 here (others alternative (List.mem_cons_self ..))
    rw [List.cons_append, tryEach, missed]
    exact inductionHypothesis fun other member => others other (List.mem_cons_of_mem _ member)

/-- Where no token of the list comes next, the fallback acts. -/
theorem tryEach_none (otherwise : Parser SemType) (alternatives : List (String × Parser SemType))
    (cursor : Cursor Char) (stops : Stops isAsciiWhitespace cursor.rest)
    (others : ∀ alternative ∈ alternatives, ¬ alternative.1.toList <+: cursor.rest) :
    tryEach otherwise alternatives cursor = otherwise cursor := by
  have here : skipWs cursor = cursor := skip_stopped isAsciiWhitespace stops
  induction alternatives with
  | nil => rfl
  | cons alternative rest inductionHypothesis =>
    have missed := eat_other alternative.1 here (others alternative (List.mem_cons_self ..))
    rw [tryEach, missed]
    exact inductionHypothesis fun other member => others other (List.mem_cons_of_mem _ member)

/-- A success is the success of one alternative, after its token, or of the fallback. -/
theorem tryEach_sound {otherwise : Parser SemType} {alternatives : List (String × Parser SemType)}
    {cursor after : Cursor Char} {ty : SemType} (here : skipWs cursor = cursor)
    (found : tryEach otherwise alternatives cursor = .ok (ty, after)) :
    (∃ token action there gap, (token, action) ∈ alternatives ∧ Gap gap ∧
      cursor.rest = gap ++ (token.toList ++ there.rest) ∧ action there = .ok (ty, after)) ∨
      otherwise cursor = .ok (ty, after) := by
  induction alternatives with
  | nil => exact .inr found
  | cons alternative rest inductionHypothesis =>
    obtain ⟨token, action⟩ := alternative
    rw [tryEach] at found
    split at found
    next there eaten =>
      obtain ⟨gap, split, blank, _⟩ := eat_true isAsciiWhitespace eaten
      exact .inl ⟨token, action, there, gap, List.mem_cons_self .., blank, split, found⟩
    next there missed =>
      have same : there = cursor := (eat_false isAsciiWhitespace missed).trans here
      rw [same] at found
      rcases inductionHypothesis found with ⟨token, action, there, gap, member, others⟩ | fallback
      · exact .inl ⟨token, action, there, gap, List.mem_cons_of_mem _ member, others⟩
      · exact .inr fallback

/-! ## The parser accepts what is spelled -/

/-- A keyword that comes next is the one acted upon. -/
theorem parseType_keyword (fuel pos : Nat) {gap : List Char} (blank : Gap gap)
    (before : List (String × Parser SemType)) {word : String} {action : Parser SemType}
    {more : List (String × Parser SemType)}
    (place : TypeParser.keywords (parseType fuel) = before ++ (word, action) :: more)
    (isToken : IsToken word)
    (rest : List Char)
    (others : ∀ alternative ∈ before, ¬ alternative.1.toList <+: word.toList ++ rest) :
    parseType (fuel + 1) ⟨pos, gap ++ (word.toList ++ rest)⟩ =
      action ⟨pos + gap.length + word.toList.length, rest⟩ := by
  have skipped : skipWs ⟨pos, gap ++ (word.toList ++ rest)⟩ =
      ⟨pos + gap.length, word.toList ++ rest⟩ :=
    skip_gap isAsciiWhitespace pos blank (isToken.stops.append rest isToken.nonempty)
  rw [parseType, skipped, place]
  exact tryEach_hit parseIntWidth before more action isToken _ rest others

/-- A word of its own is read as its type. -/
theorem parseType_word (fuel pos : Nat) {gap : List Char} (blank : Gap gap) {word : String}
    {ty : SemType} (listed : (word, ty) ∈ typeWords) (rest : List Char) :
    parseType (fuel + 1) ⟨pos, gap ++ (word.toList ++ rest)⟩ =
      .ok (ty, ⟨pos + gap.length + word.toList.length, rest⟩) := by
  simp only [typeWords, List.mem_cons, Prod.mk.injEq, List.not_mem_nil, or_false] at listed
  rcases listed with ⟨rfl, rfl⟩ | ⟨rfl, rfl⟩ | ⟨rfl, rfl⟩ | ⟨rfl, rfl⟩
  · exact parseType_keyword fuel pos blank ((TypeParser.keywords (parseType fuel)).take 4) rfl
      (by decide) rest (by simp [TypeParser.keywords])
  · exact parseType_keyword fuel pos blank ((TypeParser.keywords (parseType fuel)).take 5) rfl
      (by decide) rest (by simp [TypeParser.keywords])
  · exact parseType_keyword fuel pos blank ((TypeParser.keywords (parseType fuel)).take 6) rfl
      (by decide) rest (by simp [TypeParser.keywords])
  · exact parseType_keyword fuel pos blank ((TypeParser.keywords (parseType fuel)).take 7) rfl
      (by decide) rest (by simp [TypeParser.keywords])

/-- A letter and a width are read as the integer type of the width. -/
theorem parseType_width (fuel pos : Nat) {gap digits : List Char} (blank : Gap gap) (signed : Bool)
    {bits : UInt16} (numeral : Numeral digits bits.toNat) (allowed : bits.toUInt64 ∈ widths)
    (rest : List Char) (ends : Stops isAsciiDigit rest) :
    parseType (fuel + 1) ⟨pos, gap ++ ((integerLetter signed).toList ++ (digits ++ rest))⟩ =
      .ok (integerType signed bits,
        ⟨pos + gap.length + (integerLetter signed).toList.length + digits.length, rest⟩) := by
  obtain ⟨c, more, rfl⟩ := List.exists_cons_of_ne_nil numeral.nonempty
  have digit : isAsciiDigit c = true := numeral.1 c (List.mem_cons_self ..)
  have isToken : IsToken (integerLetter signed) := by cases signed <;> decide
  have stops := isToken.stops.append (c :: more ++ rest) isToken.nonempty
  have skipped := skip_gap isAsciiWhitespace pos blank stops
  have read : parseDigits ⟨pos + gap.length + (integerLetter signed).toList.length,
      c :: more ++ rest⟩ = .ok (bits.toUInt64, ⟨_, rest⟩) :=
    parseDigits_numeral _ (by simpa using numeral) ends
  have other : c ≠ 's' := by rintro rfl; exact absurd digit (by decide)
  rw [parseType, skipWs, skipped, tryEach_none parseIntWidth _ _ stops]
  · have width : parseWidth signed (pos + gap.length)
        ⟨pos + gap.length + (integerLetter signed).toList.length, c :: more ++ rest⟩ =
          .ok (integerType signed bits, ⟨pos + gap.length + (integerLetter signed).toList.length +
            (c :: more).length, rest⟩) := by
      simp only [parseWidth, read, bind, Except.bind, allowed, if_pos]
      cases signed <;> simp [integerType]
    rw [parseIntWidth, ← width]
    cases signed with
    | false =>
      exact tryEach_hit _ [] [("i", parseWidth true (pos + gap.length))]
        (parseWidth false (pos + gap.length)) isToken _ _ (by simp)
    | true =>
      exact tryEach_hit _ [("u", parseWidth false (pos + gap.length))] []
        (parseWidth true (pos + gap.length)) isToken _ _ (by simp [integerLetter])
  · cases signed <;> simp [TypeParser.keywords, integerLetter, other.symm]

/-- The parser reads the text as the type, wherever it stands. -/
def Reads (parser : Parser SemType) (text : List Char) (ty : SemType) : Prop :=
  ∀ (pos : Nat) (rest : List Char), Stops isAsciiDigit rest →
    parser ⟨pos, text ++ rest⟩ = .ok (ty, ⟨pos + text.length, rest⟩)

theorem parseType_passesBlanks (fuel : Nat) : PassesBlanks (parseType fuel) := by
  intro cursor
  cases fuel with
  | zero => rfl
  | succ fuel => simp only [parseType, skipWs, skip_skip]

section Composites

variable {parser : Parser SemType} {between inner after : List Char} {ty : SemType}
  (pos : Nat) (rest : List Char)

theorem stops_digit_close (blank : Gap after) :
    Stops isAsciiDigit (after ++ (">".toList ++ rest)) :=
  stops_before_token (fun _ => not_blank_of_digit) blank (by decide) rest (by simp; decide)

theorem expect_open (inside : List Char) (blank : Gap between) :
    expect "<" ⟨pos, bracketed between inside after ++ rest⟩ =
      .ok ⟨pos + between.length + 1, inside ++ (after ++ (">".toList ++ rest))⟩ := by
  have opened := expect_token "<" (by decide) pos blank (inside ++ (after ++ (">".toList ++ rest)))
  have one : "<".toList.length = 1 := by decide
  simpa only [bracketed, List.append_assoc, one] using opened

theorem expect_close (inside : List Char) (blank : Gap after) :
    expect ">" ⟨pos + between.length + 1 + inside.length, after ++ (">".toList ++ rest)⟩ =
      .ok ⟨pos + (bracketed between inside after).length, rest⟩ := by
  have place : pos + (bracketed between inside after).length =
      pos + between.length + 1 + inside.length + after.length + ">".toList.length := by
    simp [bracketed]
    omega
  rw [place]
  exact expect_token ">" (by decide) _ blank rest

/-- Between the brackets of a pointer, a text that does not begin with `const`. -/
theorem parsePtr_reads (blanks : Gap between ∧ Gap after) (passes : PassesBlanks parser)
    (reads : Reads parser inner ty)
    (other : ¬ "const".toList <+: (skipWs ⟨0, inner ++ (after ++ (">".toList ++ rest))⟩).rest) :
    parsePtr parser ⟨pos, bracketed between inner after ++ rest⟩ =
      .ok (.ptr ty false, ⟨pos + (bracketed between inner after).length, rest⟩) := by
  have missed := eat_other "const" (skip_skip isAsciiWhitespace
    ⟨pos + between.length + 1, inner ++ (after ++ (">".toList ++ rest))⟩) other
  have read := reads (pos + between.length + 1) _ (stops_digit_close rest blanks.2)
  rw [← passes] at read
  simp only [parsePtr, expect_open pos rest inner blanks.1, bind, Except.bind]
  rw [show eat "const" (skipWs _) = _ from missed]
  simp only [Bool.false_eq_true, if_false]
  rw [show parser (Cursor.skip _ _) = _ from read]
  simp only [expect_close pos rest inner blanks.2]

/-- Between the brackets of a pointer, `const` and its pointee. -/
theorem parsePtr_reads_const {gap : List Char} (blanks : Gap between ∧ Gap gap ∧ Gap after)
    (passes : PassesBlanks parser) (reads : Reads parser inner ty) :
    parsePtr parser ⟨pos, bracketed between (gap ++ ("const".toList ++ inner)) after ++ rest⟩ =
      .ok (.ptr ty true,
        ⟨pos + (bracketed between (gap ++ ("const".toList ++ inner)) after).length, rest⟩) := by
  have found := eat_token "const" (by decide) (pos + between.length + 1) blanks.2.1
    (inner ++ (after ++ (">".toList ++ rest)))
  have read := reads (pos + between.length + 1 + gap.length + "const".toList.length) _
    (stops_digit_close rest blanks.2.2)
  have place : pos + between.length + 1 + gap.length + "const".toList.length + inner.length =
      pos + between.length + 1 + (gap ++ ("const".toList ++ inner)).length := by
    simp only [List.length_append, Nat.add_assoc]
  simp only [parsePtr, expect_open pos rest _ blanks.1, bind, Except.bind]
  rw [eat, skipWs, eat_skip, List.append_assoc, List.append_assoc, ← eat, found]
  simp only [if_true, passes _, read]
  rw [place]
  simp only [expect_close pos rest _ blanks.2.2]

theorem parseSlice_reads (blanks : Gap between ∧ Gap after) (reads : Reads parser inner ty) :
    parseSlice parser ⟨pos, bracketed between inner after ++ rest⟩ =
      .ok (.slice ty, ⟨pos + (bracketed between inner after).length, rest⟩) := by
  have read := reads (pos + between.length + 1) _ (stops_digit_close rest blanks.2)
  simp only [parseSlice, expect_open pos rest inner blanks.1, bind, Except.bind, read,
    expect_close pos rest inner blanks.2]

theorem parseArray_reads {front back digits : List Char} {len : UInt64}
    (blanks : Gap between ∧ Gap front ∧ Gap back ∧ Gap after) (reads : Reads parser inner ty)
    (numeral : Numeral digits len.toNat) :
    parseArray parser ⟨pos, bracketed between
        (inner ++ (front ++ (",".toList ++ (back ++ digits)))) after ++ rest⟩ =
      .ok (.array ty len, ⟨pos + (bracketed between
        (inner ++ (front ++ (",".toList ++ (back ++ digits)))) after).length, rest⟩) := by
  have one : ",".toList.length = 1 := by decide
  have comma := expect_token "," (by decide) (pos + between.length + 1 + inner.length) blanks.2.1
    (back ++ (digits ++ (after ++ (">".toList ++ rest))))
  have read := reads (pos + between.length + 1)
    (front ++ (",".toList ++ (back ++ (digits ++ (after ++ (">".toList ++ rest))))))
    (stops_before_token (fun _ => not_blank_of_digit) blanks.2.1 (by decide) _ (by simp; decide))
  have skipped := skip_gap isAsciiWhitespace
    (pos + between.length + 1 + inner.length + front.length + ",".toList.length) blanks.2.2.1
    (numeral.stops_blank.append (after ++ (">".toList ++ rest)) numeral.nonempty)
  have number := parseDigits_numeral
    (pos + between.length + 1 + inner.length + front.length + ",".toList.length + back.length)
    numeral (stops_digit_close rest blanks.2.2.2)
  have place : pos + between.length + 1 + inner.length + front.length + ",".toList.length +
      back.length + digits.length =
      pos + between.length + 1 + (inner ++ (front ++ (",".toList ++ (back ++ digits)))).length := by
    simp only [List.length_append, Nat.add_assoc]
  simp only [parseArray, expect_open pos rest _ blanks.1, bind, Except.bind, List.append_assoc,
    read, comma, skipWs, skipped, number]
  rw [place]
  simp only [expect_close pos rest _ blanks.2.2.2]

theorem parseOpaque_reads {gap name : List Char} (blanks : Gap between ∧ Gap gap ∧ Gap after)
    (isName : IsName name) :
    parseOpaque ⟨pos, bracketed between (gap ++ name) after ++ rest⟩ =
      .ok (.named (String.ofList name),
        ⟨pos + (bracketed between (gap ++ name) after).length, rest⟩) := by
  have skipped := skip_gap isAsciiWhitespace (pos + between.length + 1) blanks.2.1
    (isName.stops_blank.append (after ++ (">".toList ++ rest)) isName.nonempty)
  have ends : Stops inName (after ++ (">".toList ++ rest)) :=
    stops_before_token (fun _ => not_blank_of_inName) blanks.2.2 (by decide) rest (by simp; decide)
  have taken := span_run inName (pos + between.length + 1 + gap.length) isName.2 ends
  have starts : ((name ++ (after ++ (">".toList ++ rest))).head?.any startsName) = true := by
    obtain ⟨⟨c, first, starts⟩, _⟩ := isName
    rw [List.head?_append, first]
    exact starts
  have place : pos + between.length + 1 + gap.length + name.length =
      pos + between.length + 1 + (gap ++ name).length := by
    simp only [List.length_append, Nat.add_assoc]
  simp only [parseOpaque, expect_open pos rest _ blanks.1, bind, Except.bind, List.append_assoc,
    skipWs, skipped, starts, if_true, taken]
  rw [place]
  simp only [expect_close pos rest _ blanks.2.2]

end Composites

/-- The first visible symbol of a type is never that of `const`. -/
theorem Spells.head {loose : Bool} {text : List Char} {ty : SemType} (spells : Spells loose text ty) :
    ∃ gap c more, text = gap ++ c :: more ∧ Gap gap ∧ isAsciiWhitespace c = false ∧ c ≠ 'c' := by
  cases spells with
  | @word gap word _ blank listed =>
    simp only [typeWords, List.mem_cons, Prod.mk.injEq, List.not_mem_nil, or_false] at listed
    rcases listed with ⟨rfl, _⟩ | ⟨rfl, _⟩ | ⟨rfl, _⟩ | ⟨rfl, _⟩ <;>
      exact ⟨gap, _, _, rfl, blank, by decide, by decide⟩
  | @width gap digits _ signed blank _ _ =>
    cases signed <;> exact ⟨gap, _, _, rfl, blank, by decide, by decide⟩
  | @ptr _ before _ _ _ _ blanks _ => exact ⟨before, 'p', _, rfl, blanks.1, by decide, by decide⟩
  | @constPtr _ before _ _ _ _ _ blanks _ =>
    exact ⟨before, 'p', _, rfl, blanks.1, by decide, by decide⟩
  | @slice _ before _ _ _ _ blanks _ => exact ⟨before, 's', _, rfl, blanks.1, by decide, by decide⟩
  | @array _ before _ _ _ _ _ _ _ _ blanks _ _ =>
    exact ⟨before, 'a', _, rfl, blanks.1, by decide, by decide⟩
  | @named before _ _ _ _ blanks _ => exact ⟨before, 'o', _, rfl, blanks.1, by decide, by decide⟩

/-- So the keyword is not read where a pointee stands. -/
theorem Spells.no_const {loose : Bool} {text : List Char} {ty : SemType}
    (spells : Spells loose text ty) (pos : Nat) (rest : List Char) :
    ¬ "const".toList <+: (skipWs ⟨pos, text ++ rest⟩).rest := by
  obtain ⟨gap, c, more, rfl, blank, visible, other⟩ := spells.head
  have skipped := skip_gap isAsciiWhitespace pos blank
    ((stops_cons isAsciiWhitespace c (more ++ rest)).2 visible)
  rw [List.append_assoc, List.cons_append, skipWs, skipped]
  simp [other.symm]

/-- A composite is read where its keyword's action reads what follows the keyword. -/
theorem parseType_enclosed (fuel : Nat) {gap between inside after : List Char} (blank : Gap gap)
    (before : List (String × Parser SemType)) {word : String} {ty : SemType}
    {action : Parser SemType} {more : List (String × Parser SemType)}
    (place : TypeParser.keywords (parseType fuel) = before ++ (word, action) :: more)
    (isToken : IsToken word)
    (others : ∀ rest, ∀ alternative ∈ before,
      ¬ alternative.1.toList <+: word.toList ++ rest)
    (acts : ∀ pos rest, action ⟨pos, bracketed between inside after ++ rest⟩ =
      .ok (ty, ⟨pos + (bracketed between inside after).length, rest⟩)) :
    Reads (parseType (fuel + 1)) (enclosed gap word between inside after) ty := by
  intro pos rest _
  rw [enclosed, List.append_assoc, List.append_assoc,
    parseType_keyword fuel pos blank before place isToken _ (others _), acts]
  simp only [List.length_append, Nat.add_assoc]

/-- The inside of a composite is shorter than the composite. -/
theorem inside_length (before between inside after : List Char) (word : String) :
    inside.length + 2 ≤ (enclosed before word between inside after).length := by
  simp [enclosed, bracketed]
  omega

/-- What is spelled is read, given fuel for its length. -/
theorem Spells.reads {loose : Bool} {text : List Char} {ty : SemType}
    (spells : Spells loose text ty) (fuel : Nat) (enough : text.length < fuel) :
    Reads (parseType fuel) text ty := by
  obtain ⟨fuel, rfl⟩ := Nat.exists_eq_add_one.2 (Nat.zero_lt_of_lt enough)
  induction spells generalizing fuel with
  | @word gap word ty blank listed =>
    intro pos rest _
    have read := parseType_word fuel pos blank listed rest
    simpa [Nat.add_assoc] using read
  | @width gap digits bits signed blank numeral allowed =>
    intro pos rest ends
    have read := parseType_width fuel pos blank signed numeral allowed rest ends
    simpa [Nat.add_assoc] using read
  | @ptr _ before between inner after ty blanks inside inductionHypothesis =>
    have shorter := inside_length before between inner after "ptr"
    obtain ⟨fuel, rfl⟩ := Nat.exists_eq_add_one.2 (show 0 < fuel by omega)
    exact parseType_enclosed (fuel + 1) blanks.1 [] rfl (by decide) (by simp)
      fun pos rest => parsePtr_reads pos rest blanks.2 (parseType_passesBlanks _)
        (inductionHypothesis fuel (by omega)) (inside.no_const 0 _)
  | @constPtr _ before between gap inner after ty blanks inside inductionHypothesis =>
    have shorter := inside_length before between (gap ++ ("const".toList ++ inner)) after "ptr"
    rw [List.length_append, List.length_append] at shorter
    obtain ⟨fuel, rfl⟩ := Nat.exists_eq_add_one.2 (show 0 < fuel by omega)
    exact parseType_enclosed (fuel + 1) blanks.1 [] rfl (by decide) (by simp)
      fun pos rest => parsePtr_reads_const pos rest blanks.2 (parseType_passesBlanks _)
        (inductionHypothesis fuel (by omega))
  | @slice _ before between inner after ty blanks inside inductionHypothesis =>
    have shorter := inside_length before between inner after "slice"
    obtain ⟨fuel, rfl⟩ := Nat.exists_eq_add_one.2 (show 0 < fuel by omega)
    exact parseType_enclosed (fuel + 1) blanks.1
      ((TypeParser.keywords (parseType (fuel + 1))).take 1) rfl (by decide)
      (by simp [TypeParser.keywords])
      fun pos rest => parseSlice_reads pos rest blanks.2 (inductionHypothesis fuel (by omega))
  | @array _ before between inner front back digits after ty len blanks inside numeral
      inductionHypothesis =>
    have shorter := inside_length before between
      (inner ++ (front ++ (",".toList ++ (back ++ digits)))) after "array"
    rw [List.length_append] at shorter
    obtain ⟨fuel, rfl⟩ := Nat.exists_eq_add_one.2 (show 0 < fuel by omega)
    exact parseType_enclosed (fuel + 1) blanks.1
      ((TypeParser.keywords (parseType (fuel + 1))).take 2) rfl (by decide)
      (by simp [TypeParser.keywords])
      fun pos rest => parseArray_reads pos rest blanks.2 (inductionHypothesis fuel (by omega))
        numeral
  | @named before between gap name after blanks isName =>
    exact parseType_enclosed fuel blanks.1 ((TypeParser.keywords (parseType fuel)).take 3) rfl
      (by decide) (by simp [TypeParser.keywords])
      fun pos rest => parseOpaque_reads pos rest blanks.2 isName

end Semasm.Contract
