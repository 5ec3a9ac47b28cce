import Semasm.Contract.TypeGrammar

/-!
# What the type parser accepts

The converse of completeness: whatever `SemType::parse` accepts is spelled by the
grammar, loosely or not. A text has at most one spelling of a type, so the two
readings exclude each other, and the parser agrees with the documented grammar
exactly on the texts that are not spelled loosely. The documented rendering of a
type is a strict spelling of it, so it is parsed back.
-/

namespace Semasm.Contract

open Library.Scanning TypeParser

/-- Blanks before a spelling belong to it. -/
theorem Spells.after_gap {loose : Bool} {gap text : List Char} {ty : SemType}
    (spells : Spells loose text ty) (blank : Gap gap) : Spells loose (gap ++ text) ty := by
  cases spells with
  | word own listed =>
    rw [← List.append_assoc]
    exact .word (blank.append own) listed
  | width signed own numeral allowed =>
    rw [← List.append_assoc]
    exact .width signed (blank.append own) numeral allowed
  | ptr blanks inside =>
    rw [enclosed, ← List.append_assoc]
    exact .ptr ⟨blank.append blanks.1, blanks.2⟩ inside
  | constPtr blanks inside =>
    rw [enclosed, ← List.append_assoc]
    exact .constPtr ⟨blank.append blanks.1, blanks.2⟩ inside
  | slice blanks inside =>
    rw [enclosed, ← List.append_assoc]
    exact .slice ⟨blank.append blanks.1, blanks.2⟩ inside
  | array blanks inside numeral =>
    rw [enclosed, ← List.append_assoc]
    exact .array ⟨blank.append blanks.1, blanks.2⟩ inside numeral
  | named blanks isName =>
    rw [enclosed, ← List.append_assoc]
    exact .named ⟨blank.append blanks.1, blanks.2⟩ isName

/-- What a parser accepts is a spelling of what it returns. -/
def SpellsResult (parser : Parser SemType) : Prop :=
  ∀ cursor ty after, parser cursor = .ok (ty, after) →
    ∃ loose text, cursor.rest = text ++ after.rest ∧ Spells loose text ty

theorem parseIntWidth_sound {cursor after : Cursor Char} {ty : SemType}
    (here : skipWs cursor = cursor) (read : parseIntWidth cursor = .ok (ty, after)) :
    ∃ loose text, cursor.rest = text ++ after.rest ∧ Spells loose text ty := by
  have width_sound : ∀ (signed : Bool) (start : Nat) (there : Cursor Char) (gap : List Char),
      Gap gap → cursor.rest = gap ++ ((integerLetter signed).toList ++ there.rest) →
      parseWidth signed start there = .ok (ty, after) →
      ∃ loose text, cursor.rest = text ++ after.rest ∧ Spells loose text ty := by
    intro signed start there gap blank split accepted
    obtain ⟨⟨bits, ended⟩, number, checked⟩ := ok_of_bind accepted
    obtain ⟨digits, spelled, numeral⟩ := parseDigits_sound number
    dsimp only at checked
    split at checked
    next allowed =>
      obtain ⟨rfl, rfl⟩ := Prod.mk.inj (Except.ok.inj checked)
      have same : bits.toUInt16.toUInt64 = bits := by
        simp only [widths, List.mem_cons, List.not_mem_nil, or_false] at allowed
        rcases allowed with rfl | rfl | rfl | rfl | rfl <;> rfl
      refine ⟨_, gap ++ ((integerLetter signed).toList ++ digits), ?_, .width signed blank ?_ ?_⟩
      · rw [split, spelled]
        simp only [List.append_assoc]
      · rw [← same] at numeral
        simpa using numeral
      · rw [same]
        exact allowed
    next => exact absurd checked (by simp)
  rcases tryEach_sound here read with ⟨token, action, there, gap, member, blank, split, done⟩ | no
  · simp only [List.mem_cons, Prod.mk.injEq, List.not_mem_nil, or_false] at member
    rcases member with ⟨rfl, rfl⟩ | ⟨rfl, rfl⟩
    · exact width_sound false _ there gap blank split done
    · exact width_sound true _ there gap blank split done
  · cases no

section Composites

variable {parser : Parser SemType} (sound : SpellsResult parser) {cursor after : Cursor Char}
  {ty : SemType} {gap : List Char} (blank : Gap gap)

include sound blank

theorem parsePtr_sound (read : parsePtr parser cursor = .ok (ty, after)) :
    ∃ loose text, gap ++ ("ptr".toList ++ cursor.rest) = text ++ after.rest ∧
      Spells loose text ty := by
  obtain ⟨opened, found, read⟩ := ok_of_bind read
  obtain ⟨between, blankBetween, openSplit⟩ := expect_sound found
  obtain ⟨lead, leadSplit, blankLead, _⟩ := skip_sound isAsciiWhitespace opened
  rcases eaten : eat "const" (skipWs opened) with ⟨isConst, there⟩
  simp only [eaten] at read
  obtain ⟨⟨inner, ended⟩, inside, read⟩ := ok_of_bind read
  obtain ⟨closed, close, done⟩ := ok_of_bind read
  obtain ⟨rfl, rfl⟩ := Prod.mk.inj (Except.ok.inj done)
  obtain ⟨last, blankLast, closeSplit⟩ := expect_sound close
  obtain ⟨loose, text, innerSplit, spells⟩ := sound _ _ _ inside
  cases isConst with
  | false =>
    have same : there = skipWs opened :=
      (eat_false isAsciiWhitespace eaten).trans (skip_skip isAsciiWhitespace opened)
    rw [if_neg (by decide), same] at innerSplit
    refine ⟨loose, _, ?_, .ptr
      ⟨blank, blankBetween, blankLast⟩ (spells.after_gap blankLead)⟩
    rw [openSplit, leadSplit, show (opened.skip isAsciiWhitespace).rest = _ from innerSplit,
      closeSplit]
    simp only [enclosed, bracketed, List.append_assoc]
  | true =>
    obtain ⟨front, frontSplit, blankFront, _⟩ := eat_true isAsciiWhitespace eaten
    obtain ⟨back, backSplit, blankBack, _⟩ := skip_sound isAsciiWhitespace there
    rw [if_pos rfl] at innerSplit
    refine ⟨_, _, ?_, .constPtr
      ⟨blank, blankBetween, Gap.append blankLead blankFront, blankLast⟩ (spells.after_gap blankBack)⟩
    rw [openSplit, leadSplit, show (opened.skip isAsciiWhitespace).rest = _ from frontSplit,
      backSplit, show (there.skip isAsciiWhitespace).rest = _ from innerSplit, closeSplit]
    simp only [enclosed, bracketed, List.append_assoc]

theorem parseSlice_sound (read : parseSlice parser cursor = .ok (ty, after)) :
    ∃ loose text, gap ++ ("slice".toList ++ cursor.rest) = text ++ after.rest ∧
      Spells loose text ty := by
  obtain ⟨opened, found, read⟩ := ok_of_bind read
  obtain ⟨⟨inner, ended⟩, inside, read⟩ := ok_of_bind read
  obtain ⟨closed, close, done⟩ := ok_of_bind read
  obtain ⟨rfl, rfl⟩ := Prod.mk.inj (Except.ok.inj done)
  obtain ⟨between, blankBetween, openSplit⟩ := expect_sound found
  obtain ⟨last, blankLast, closeSplit⟩ := expect_sound close
  obtain ⟨loose, text, innerSplit, spells⟩ := sound _ _ _ inside
  refine ⟨loose, _, ?_, .slice
    ⟨blank, blankBetween, blankLast⟩ spells⟩
  rw [openSplit, innerSplit, closeSplit]
  simp only [enclosed, bracketed, List.append_assoc]

theorem parseArray_sound (read : parseArray parser cursor = .ok (ty, after)) :
    ∃ loose text, gap ++ ("array".toList ++ cursor.rest) = text ++ after.rest ∧
      Spells loose text ty := by
  obtain ⟨opened, found, read⟩ := ok_of_bind read
  obtain ⟨⟨inner, ended⟩, inside, read⟩ := ok_of_bind read
  obtain ⟨passed, comma, read⟩ := ok_of_bind read
  obtain ⟨⟨len, counted⟩, number, read⟩ := ok_of_bind read
  obtain ⟨closed, close, done⟩ := ok_of_bind read
  obtain ⟨rfl, rfl⟩ := Prod.mk.inj (Except.ok.inj done)
  obtain ⟨between, blankBetween, openSplit⟩ := expect_sound found
  obtain ⟨front, blankFront, commaSplit⟩ := expect_sound comma
  obtain ⟨back, backSplit, blankBack, _⟩ := skip_sound isAsciiWhitespace passed
  obtain ⟨digits, digitSplit, numeral⟩ := parseDigits_sound number
  obtain ⟨last, blankLast, closeSplit⟩ := expect_sound close
  obtain ⟨loose, text, innerSplit, spells⟩ := sound _ _ _ inside
  refine ⟨loose, _, ?_, .array
    ⟨blank, blankBetween, blankFront, blankBack, blankLast⟩ spells numeral⟩
  rw [openSplit, innerSplit, commaSplit, backSplit,
    show (passed.skip isAsciiWhitespace).rest = _ from digitSplit, closeSplit]
  simp only [enclosed, bracketed, List.append_assoc]

omit sound in
theorem parseOpaque_sound (read : parseOpaque cursor = .ok (ty, after)) :
    ∃ loose text, gap ++ ("opaque".toList ++ cursor.rest) = text ++ after.rest ∧
      Spells loose text ty := by
  obtain ⟨opened, found, read⟩ := ok_of_bind read
  dsimp only at read
  split at read
  next starts =>
    obtain ⟨closed, close, done⟩ := ok_of_bind read
    obtain ⟨rfl, rfl⟩ := Prod.mk.inj (Except.ok.inj done)
    obtain ⟨between, blankBetween, openSplit⟩ := expect_sound found
    obtain ⟨lead, leadSplit, blankLead, _⟩ := skip_sound isAsciiWhitespace opened
    obtain ⟨nameSplit, all, _⟩ := span_sound inName (skipWs opened)
    obtain ⟨last, blankLast, closeSplit⟩ := expect_sound close
    have isName := name_run starts
    refine ⟨false, _, ?_, .named
      ⟨blank, blankBetween, blankLead, blankLast⟩ isName⟩
    rw [openSplit, leadSplit, show (opened.skip isAsciiWhitespace).rest = _ from nameSplit,
      closeSplit]
    simp only [enclosed, bracketed, List.append_assoc]
  next => cases read

end Composites

/-- What `parse_type` accepts is a spelling of what it returns. -/
theorem parseType_sound (fuel : Nat) : SpellsResult (parseType fuel) := by
  induction fuel with
  | zero =>
    intro cursor ty after read
    cases read
  | succ fuel inductionHypothesis =>
    intro cursor ty after read
    obtain ⟨lead, leadSplit, blankLead, _⟩ := skip_sound isAsciiWhitespace cursor
    have here : skipWs (skipWs cursor) = skipWs cursor := skip_skip isAsciiWhitespace cursor
    have spelled : ∃ loose text, (skipWs cursor).rest = text ++ after.rest ∧
        Spells loose text ty := by
      rcases tryEach_sound here read with ⟨token, action, there, gap, member, blank, split, done⟩ | no
      · rw [split]
        simp only [TypeParser.keywords, List.mem_cons, Prod.mk.injEq, List.not_mem_nil,
          or_false] at member
        rcases member with ⟨rfl, rfl⟩ | ⟨rfl, rfl⟩ | ⟨rfl, rfl⟩ | ⟨rfl, rfl⟩ | ⟨rfl, rfl⟩ |
          ⟨rfl, rfl⟩ | ⟨rfl, rfl⟩ | ⟨rfl, rfl⟩
        · exact parsePtr_sound inductionHypothesis blank done
        · exact parseSlice_sound inductionHypothesis blank done
        · exact parseArray_sound inductionHypothesis blank done
        · exact parseOpaque_sound blank done
        all_goals
          obtain ⟨rfl, rfl⟩ := Prod.mk.inj (Except.ok.inj done)
          exact ⟨false, _, (List.append_assoc ..).symm, .word blank (by simp [typeWords])⟩
      · exact parseIntWidth_sound here no
    obtain ⟨loose, text, split, spells⟩ := spelled
    refine ⟨loose, lead ++ text, ?_, spells.after_gap blankLead⟩
    rw [leadSplit, show (cursor.skip isAsciiWhitespace).rest = _ from split, List.append_assoc]

/-- `SemType::parse` accepts a text as a type exactly when the text spells the type. -/
theorem parse_iff (text : String) (ty : SemType) :
    (∃ span, SemType.parse text = .ok (ty, span)) ↔ Documented text ty ∨ LooselySpelled text ty := by
  have spelling : Documented text ty ∨ LooselySpelled text ty ↔
      ∃ loose body gap, text.toList = body ++ gap ∧ Gap gap ∧ Spells loose body ty := by
    constructor
    · rintro (strict | loose)
      · exact ⟨false, strict⟩
      · exact ⟨true, loose⟩
    · rintro ⟨_ | _, spelled⟩
      · exact .inl spelled
      · exact .inr spelled
  rw [spelling]
  constructor
  · rintro ⟨span, accepted⟩
    obtain ⟨⟨own, cursor⟩, read, checked⟩ := ok_of_bind accepted
    dsimp only at checked
    split at checked
    next => cases checked
    next empty =>
      obtain ⟨rfl, _⟩ := Prod.mk.inj (Except.ok.inj checked)
      obtain ⟨loose, body, split, spells⟩ := parseType_sound _ _ _ _ read
      obtain ⟨gap, gapSplit, blank, _⟩ := skip_sound isAsciiWhitespace cursor
      have ended : (cursor.skip isAsciiWhitespace).rest = [] := not_not.1 empty
      rw [ended, List.append_nil] at gapSplit
      exact ⟨loose, body, gap, by rw [← gapSplit]; exact split, blank, spells⟩
  · rintro ⟨loose, body, gap, split, blank, spells⟩
    have noDigit : Stops isAsciiDigit gap := by
      intro c first
      rw [← Bool.not_eq_true]
      intro digit
      have visible := not_blank_of_digit digit
      rw [blank c (List.mem_of_mem_head? first)] at visible
      cases visible
    have read := spells.reads (text.toList.length + 1)
      (by rw [split, List.length_append]; omega) 0 gap noDigit
    have passed := skip_gap isAsciiWhitespace (0 + body.length) blank (stops_nil _)
    rw [List.append_nil] at passed
    refine ⟨⟨0, toU32 text.utf8ByteSize⟩, ?_⟩
    rw [← split] at read
    simp only [SemType.parse, read, bind, Except.bind, skipWs, passed, ne_eq, not_true_eq_false,
      if_false]

/-! ## One spelling -/

/-- Where a gap ends is determined by the text. -/
theorem gap_unique {gap other rest more : List Char} (blank : Gap gap) (blankOther : Gap other)
    (stops : Stops isAsciiWhitespace rest) (stopsMore : Stops isAsciiWhitespace more)
    (same : gap ++ rest = other ++ more) : gap = other ∧ rest = more := by
  have first := takeWhile_run blank stops
  rw [same, takeWhile_run blankOther stopsMore] at first
  subst first
  exact ⟨rfl, List.append_cancel_left same⟩

/-- Where a spelling ends is determined by the text. -/
theorem Spells.end_unique {loose other : Bool} {text own rest more : List Char} {ty ownTy : SemType}
    (spells : Spells loose text ty) (spellsOwn : Spells other own ownTy)
    (stops : Stops isAsciiDigit rest) (stopsMore : Stops isAsciiDigit more)
    (same : text ++ rest = own ++ more) : text = own ∧ ty = ownTy := by
  have read := spells.reads (text.length + own.length + 1) (by omega) 0 rest stops
  have readOwn := spellsOwn.reads (text.length + own.length + 1) (by omega) 0 more stopsMore
  rw [same, readOwn] at read
  simp only [Except.ok.injEq, Prod.mk.injEq, Cursor.mk.injEq] at read
  obtain ⟨rfl, _, rfl⟩ := read
  exact ⟨List.append_cancel_right same, rfl⟩

/-- Where a composite's word and brackets stand is determined by its text. -/
theorem enclosed_unique {word : String} (isToken : IsToken word)
    {before between inside after before' between' inside' after' : List Char}
    (blanks : Gap before ∧ Gap between) (blanks' : Gap before' ∧ Gap between')
    (same : enclosed before word between inside after =
      enclosed before' word between' inside' after') :
    inside ++ (after ++ ">".toList) = inside' ++ (after' ++ ">".toList) := by
  obtain ⟨_, words⟩ := gap_unique blanks.1 blanks'.1
    (isToken.stops.append _ isToken.nonempty) (isToken.stops.append _ isToken.nonempty) same
  have open_token : IsToken "<" := by decide
  obtain ⟨_, opened⟩ := gap_unique blanks.2 blanks'.2
    (open_token.stops.append _ open_token.nonempty) (open_token.stops.append _ open_token.nonempty)
    (List.append_cancel_left words)
  exact List.append_cancel_left opened

/-- How a text spells a type of each form. -/
def Shape (loose : Bool) (text : List Char) : SemType → Prop
  | .bool | .status | .usize | .isize | .named _ => loose = false
  | .uint _ | .int _ => ∃ gap letter digits, Gap gap ∧ IsToken letter ∧ letter.toList.length = 1 ∧
      text = gap ++ (letter.toList ++ digits) ∧ loose = (digits.head? == some '0')
  | .ptr ty false => ∃ before between inner after, (Gap before ∧ Gap between) ∧ Gap after ∧
      text = enclosed before "ptr" between inner after ∧ Spells loose inner ty
  | .ptr ty true => ∃ before between gap inner after own, (Gap before ∧ Gap between) ∧ Gap gap ∧
      Gap after ∧ text = enclosed before "ptr" between (gap ++ ("const".toList ++ inner)) after ∧
      Spells own inner ty ∧ loose = (own || glued inner)
  | .slice ty => ∃ before between inner after, (Gap before ∧ Gap between) ∧ Gap after ∧
      text = enclosed before "slice" between inner after ∧ Spells loose inner ty
  | .array ty _ => ∃ before between inner front back digits after, (Gap before ∧ Gap between) ∧
      Gap front ∧ text = enclosed before "array" between
        (inner ++ (front ++ (",".toList ++ (back ++ digits)))) after ∧ Spells loose inner ty

theorem Spells.shape {loose : Bool} {text : List Char} {ty : SemType}
    (spells : Spells loose text ty) : Shape loose text ty := by
  cases spells with
  | word blank listed =>
    simp only [typeWords, List.mem_cons, Prod.mk.injEq, List.not_mem_nil, or_false] at listed
    rcases listed with ⟨_, rfl⟩ | ⟨_, rfl⟩ | ⟨_, rfl⟩ | ⟨_, rfl⟩ <;> rfl
  | @width gap digits _ signed blank _ _ =>
    cases signed with
    | false => exact ⟨gap, "u", digits, blank, by decide, by decide, rfl, rfl⟩
    | true => exact ⟨gap, "i", digits, blank, by decide, by decide, rfl, rfl⟩
  | ptr blanks inside => exact ⟨_, _, _, _, ⟨blanks.1, blanks.2.1⟩, blanks.2.2, rfl, inside⟩
  | constPtr blanks inside =>
    exact ⟨_, _, _, _, _, _, ⟨blanks.1, blanks.2.1⟩, blanks.2.2.1, blanks.2.2.2, rfl, inside, rfl⟩
  | slice blanks inside => exact ⟨_, _, _, _, ⟨blanks.1, blanks.2.1⟩, blanks.2.2, rfl, inside⟩
  | array blanks inside numeral =>
    exact ⟨_, _, _, _, _, _, _, ⟨blanks.1, blanks.2.1⟩, blanks.2.2.1, rfl, inside⟩
  | named blanks isName => rfl

/-- A text does not spell a type both strictly and loosely. -/
theorem Spells.loose_unique {loose other : Bool} {text : List Char} {ty : SemType}
    (spells : Spells loose text ty) (spellsOther : Spells other text ty) : loose = other := by
  have close_stops : ∀ {after : List Char}, Gap after → Stops isAsciiDigit (after ++ ">".toList) :=
    fun blank => by simpa using stops_digit_close [] blank
  induction spells generalizing other with
  | word blank listed =>
    have shape := spellsOther.shape
    simp only [typeWords, List.mem_cons, Prod.mk.injEq, List.not_mem_nil, or_false] at listed
    rcases listed with ⟨_, rfl⟩ | ⟨_, rfl⟩ | ⟨_, rfl⟩ | ⟨_, rfl⟩ <;> exact shape.symm
  | @width gap digits bits signed blank numeral allowed =>
    have shape : ∃ gap' letter digits', Gap gap' ∧ IsToken letter ∧ letter.toList.length = 1 ∧
        gap ++ ((integerLetter signed).toList ++ digits) = gap' ++ (letter.toList ++ digits') ∧
        other = (digits'.head? == some '0') := by
      cases signed <;> exact spellsOther.shape
    obtain ⟨gap', letter, digits', blank', isToken, one, same, rfl⟩ := shape
    have own : IsToken (integerLetter signed) := by cases signed <;> decide
    have length : (integerLetter signed).toList.length = letter.toList.length := by
      rw [one]
      cases signed <;> decide
    obtain ⟨_, words⟩ := gap_unique blank blank' (own.stops.append _ own.nonempty)
      (isToken.stops.append _ isToken.nonempty) same
    rw [(List.append_inj words length).2]
  | @ptr _ before between inner after ty blanks inside inductionHypothesis =>
    obtain ⟨before', between', inner', after', blanks', blankAfter, same, inside'⟩ :=
      spellsOther.shape
    have bodies := enclosed_unique (by decide) ⟨blanks.1, blanks.2.1⟩ blanks' same
    obtain ⟨rfl, _⟩ := inside.end_unique inside' (close_stops blanks.2.2) (close_stops blankAfter)
      bodies
    exact inductionHypothesis inside'
  | @constPtr _ before between gap inner after ty blanks inside inductionHypothesis =>
    obtain ⟨before', between', gap', inner', after', own, blanks', blankGap, blankAfter, same,
      inside', rfl⟩ := spellsOther.shape
    have bodies := enclosed_unique (by decide) ⟨blanks.1, blanks.2.1⟩ blanks' same
    simp only [List.append_assoc] at bodies
    have const_token : IsToken "const" := by decide
    obtain ⟨_, words⟩ := gap_unique blanks.2.2.1 blankGap
      (const_token.stops.append _ const_token.nonempty)
      (const_token.stops.append _ const_token.nonempty) bodies
    obtain ⟨rfl, _⟩ := inside.end_unique inside' (close_stops blanks.2.2.2) (close_stops blankAfter)
      (List.append_cancel_left words)
    rw [inductionHypothesis inside']
  | @slice _ before between inner after ty blanks inside inductionHypothesis =>
    obtain ⟨before', between', inner', after', blanks', blankAfter, same, inside'⟩ :=
      spellsOther.shape
    have bodies := enclosed_unique (by decide) ⟨blanks.1, blanks.2.1⟩ blanks' same
    obtain ⟨rfl, _⟩ := inside.end_unique inside' (close_stops blanks.2.2) (close_stops blankAfter)
      bodies
    exact inductionHypothesis inside'
  | @array _ before between inner front back digits after ty len blanks inside numeral
      inductionHypothesis =>
    obtain ⟨before', between', inner', front', back', digits', after', blanks', blankFront, same,
      inside'⟩ := spellsOther.shape
    have bodies := enclosed_unique (by decide) ⟨blanks.1, blanks.2.1⟩ blanks' same
    simp only [List.append_assoc] at bodies
    have comma_stops : ∀ {front : List Char} (rest : List Char), Gap front →
        Stops isAsciiDigit (front ++ (",".toList ++ rest)) := fun rest blank =>
      stops_before_token (fun _ => not_blank_of_digit) blank (by decide) rest (by simp; decide)
    obtain ⟨rfl, _⟩ := inside.end_unique inside' (comma_stops _ blanks.2.2.1)
      (comma_stops _ blankFront) bodies
    exact inductionHypothesis inside'
  | named blanks isName => exact (spellsOther.shape : other = false).symm

/-! ## Agreement with the documented grammar -/

/-- A spelled type is one of the documented grammar. -/
theorem Spells.wellFormed {loose : Bool} {text : List Char} {ty : SemType}
    (spells : Spells loose text ty) : ty.WellFormed := by
  induction spells with
  | word blank listed =>
    simp only [typeWords, List.mem_cons, Prod.mk.injEq, List.not_mem_nil, or_false] at listed
    rcases listed with ⟨_, rfl⟩ | ⟨_, rfl⟩ | ⟨_, rfl⟩ | ⟨_, rfl⟩ <;> trivial
  | width signed blank numeral allowed => cases signed <;> exact allowed
  | ptr _ _ inductionHypothesis => exact inductionHypothesis
  | constPtr _ _ inductionHypothesis => exact inductionHypothesis
  | slice _ _ inductionHypothesis => exact inductionHypothesis
  | array _ _ _ inductionHypothesis => exact inductionHypothesis
  | named blanks isName =>
    rw [SemType.WellFormed, String.toList_ofList]
    exact isName

/-- The decimal rendering of a number is a numeral of it. -/
theorem numeral_repr (n : Nat) : Numeral (toString n).toList n := by
  have digits : (toString n).toList = Nat.toDigits 10 n := by
    simp [toString, Nat.repr]
  rw [digits]
  exact numeral_toDigits n

/-- A width as it is rendered is spelled without a leading zero. -/
theorem width_spells (signed : Bool) {bits : UInt16} (allowed : bits.toUInt64 ∈ widths) :
    Spells false (integerLetter signed ++ toString bits).toList (integerType signed bits) := by
  have strict : ((toString bits).toList.head? == some '0') = false := by
    have listed : bits = 8 ∨ bits = 16 ∨ bits = 32 ∨ bits = 64 ∨ bits = 128 := by
      simp only [widths, List.mem_cons, List.not_mem_nil, or_false, ← UInt64.toNat_inj] at allowed
      simp only [← UInt16.toNat_inj]
      simpa using allowed
    rcases listed with rfl | rfl | rfl | rfl | rfl <;> decide +kernel
  have spells := Spells.width signed gap_nil (numeral_repr bits.toNat) allowed
  rw [show toString bits.toNat = toString bits from rfl, strict] at spells
  simpa [String.toList_append] using spells

/-- The documented rendering of a type of the grammar is a strict spelling of it. -/
theorem render_spells (ty : SemType) (wellFormed : ty.WellFormed) :
    Spells false ty.render.toList ty := by
  induction ty with
  | bool => exact .word gap_nil (show ("bool", SemType.bool) ∈ typeWords by simp [typeWords])
  | status => exact .word gap_nil (show ("status", SemType.status) ∈ typeWords by simp [typeWords])
  | usize => exact .word gap_nil (show ("usize", SemType.usize) ∈ typeWords by simp [typeWords])
  | isize => exact .word gap_nil (show ("isize", SemType.isize) ∈ typeWords by simp [typeWords])
  | uint bits => exact width_spells false wellFormed
  | int bits => exact width_spells true wellFormed
  | ptr inner isConst inductionHypothesis =>
    cases isConst with
    | false =>
      have spells : Spells false (enclosed [] "ptr" [] inner.render.toList []) (.ptr inner false) :=
        .ptr (by simp) (inductionHypothesis wellFormed)
      simpa [SemType.render, enclosed, bracketed] using spells
    | true =>
      have blank : Gap [' '] := by simp [Gap]; decide
      have spells := Spells.constPtr ⟨gap_nil, gap_nil, gap_nil, gap_nil⟩
        ((inductionHypothesis wellFormed).after_gap blank)
      rw [show (false || glued ([' '] ++ inner.render.toList)) = false from rfl] at spells
      simpa [SemType.render, enclosed, bracketed] using spells
  | slice inner inductionHypothesis =>
    have spells : Spells false (enclosed [] "slice" [] inner.render.toList []) (.slice inner) :=
      .slice (by simp) (inductionHypothesis wellFormed)
    simpa [SemType.render, enclosed, bracketed] using spells
  | array inner len inductionHypothesis =>
    have blank : Gap [' '] := by simp [Gap]; decide
    have spells := Spells.array ⟨gap_nil, gap_nil, gap_nil, blank, gap_nil⟩
      (inductionHypothesis wellFormed) (numeral_repr len.toNat)
    rw [show toString len.toNat = toString len from rfl] at spells
    simpa [SemType.render, enclosed, bracketed] using spells
  | named name =>
    have spells := Spells.named ⟨gap_nil, gap_nil, gap_nil, gap_nil⟩
      wellFormed
    simpa [SemType.render, enclosed, bracketed] using spells

/-- A text is not spelled strictly as one type and loosely as another. -/
theorem documented_not_loose {text : String} {ty other : SemType} (documented : Documented text ty)
    (loose : LooselySpelled text other) : False := by
  obtain ⟨body, gap, split, blank, spells⟩ := documented
  obtain ⟨body', gap', split', blank', spells'⟩ := loose
  have gap_stops : ∀ {gap : List Char}, Gap gap → Stops isAsciiDigit gap := by
    intro gap blank c first
    rw [← Bool.not_eq_true]
    intro digit
    have visible := not_blank_of_digit digit
    rw [blank c (List.mem_of_mem_head? first)] at visible
    cases visible
  obtain ⟨rfl, rfl⟩ := spells.end_unique spells' (gap_stops blank) (gap_stops blank')
    (split.symm.trans split')
  exact absurd (spells.loose_unique spells') (by decide)

/-- `SemType::parse` accepts exactly the documented types at every text that is
not spelled loosely, and at no other; what it accepts is parsed as the type it
spells; and a type is parsed back from its rendering exactly when the grammar has
it.

Proof: the parser accepts what is spelled strictly or loosely, and no text is
spelled both ways. -/
theorem parse_documented_iff (text : String) (ty : SemType) :
    (((∃ own span, SemType.parse text = .ok (own, span)) ↔ ∃ own, Documented text own) ↔
      ¬ ∃ own, LooselySpelled text own) ∧
    ((∃ span, SemType.parse text = .ok (ty, span)) ↔
      Documented text ty ∨ LooselySpelled text ty) ∧
    ((∃ span, SemType.parse ty.render = .ok (ty, span)) ↔ ty.WellFormed) := by
  refine ⟨?_, parse_iff text ty, ?_⟩
  · constructor
    · rintro agrees ⟨own, loose⟩
      obtain ⟨span, accepted⟩ := (parse_iff text own).2 (.inr loose)
      obtain ⟨other, documented⟩ := agrees.1 ⟨own, span, accepted⟩
      exact documented_not_loose documented loose
    · intro strict
      constructor
      · rintro ⟨own, span, accepted⟩
        rcases (parse_iff text own).1 ⟨span, accepted⟩ with documented | loose
        · exact ⟨own, documented⟩
        · exact (strict ⟨own, loose⟩).elim
      · rintro ⟨own, documented⟩
        exact ⟨own, (parse_iff text own).2 (.inl documented)⟩
  · constructor
    · intro accepted
      rcases (parse_iff ty.render ty).1 accepted with ⟨_, _, _, _, spells⟩ | ⟨_, _, _, _, spells⟩ <;>
        exact spells.wellFormed
    · intro wellFormed
      exact (parse_iff ty.render ty).2
        (.inl ⟨_, [], (List.append_nil _).symm, gap_nil, render_spells ty wellFormed⟩)

/-- `const` glued to its pointee is accepted, and so is a width with a leading
zero; neither is a type of the documented grammar. -/
theorem glued_const_is_accepted :
    ¬ ∀ text, (∃ ty span, SemType.parse text = .ok (ty, span)) ↔ ∃ ty, Documented text ty := by
  intro agrees
  have loose : LooselySpelled "ptr<constu08>" (.ptr (.uint 8) true) := by
    refine ⟨_, [], (List.append_nil _).symm, gap_nil, ?_⟩
    have digits : Numeral ['0', '8'] (8 : UInt16).toNat := ⟨by simp; decide, by decide⟩
    have inner := Spells.width false gap_nil digits (by decide)
    exact .constPtr ⟨gap_nil, gap_nil, gap_nil, gap_nil⟩ inner
  obtain ⟨other, documented⟩ :=
    (agrees "ptr<constu08>").1 ⟨_, (parse_iff _ _).2 (.inr loose)⟩
  exact documented_not_loose documented loose

end Semasm.Contract
