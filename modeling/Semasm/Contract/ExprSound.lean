import Semasm.Contract.ExprPlaces

/-!
# What the parser reads

Every expression the parser returns is a reading of the text it passed. Each
parser gets one lemma saying what it passed and what that text reads as; a loop
carries the reading of everything since its first operand.
-/

namespace Semasm.Contract

open Library.Scanning ExprParser

/-! ## Words that end -/

theorem getLast?_of_append {front back : List Char} (nonempty : back ≠ []) :
    (front ++ back).getLast? = back.getLast? := by
  rw [List.getLast?_append]
  cases last : back.getLast? with
  | none => exact absurd (List.getLast?_eq_none_iff.1 last) nonempty
  | some c => rfl

theorem Separate.of_stops {left right : List Char} (stops : Stops inName right) :
    Separate left right := .inl (apart_of_stops stops)

theorem Apart.front {left right rest : List Char} (apart : Apart left (right ++ rest)) :
    Apart left right :=
  fun c final inside => (apart c final inside).front

theorem Separate.front {left right rest : List Char} (separate : Separate left (right ++ rest)) :
    Separate left right := by
  rcases separate with apart | ⟨before, digits, shape, some, all, border, stops⟩
  · exact .inl apart.front
  · exact .inr ⟨before, digits, shape, some, all, border, stops.front⟩

/-- The last symbol of a text is the last one of its last part, or of a gap. -/
theorem Apart.extended {front text gap right : List Char} (blank : Gap gap) (nonempty : text ≠ [])
    (apart : Apart text (gap ++ right)) : Apart (front ++ (text ++ gap)) right := by
  intro c final inside
  rw [Option.mem_def, getLast?_of_append (by simp [nonempty])] at final
  rcases List.eq_nil_or_concat gap with rfl | ⟨_, d, rfl⟩
  · exact apart c (by simpa using final) inside
  · obtain rfl : d = c := by simpa [← List.append_assoc] using final
    have visible := not_blank_of_inName inside
    rw [blank d (by simp)] at visible
    cases visible

/-- The last word of a text is the last word of its last part. -/
theorem Separate.prepend {front left right : List Char} (apart : Apart front left)
    (nonempty : left ≠ []) (separate : Separate left right) : Separate (front ++ left) right := by
  rcases separate with last | ⟨before, digits, rfl, some, all, border, stops⟩
  · left
    intro c final
    rw [Option.mem_def, getLast?_of_append nonempty] at final
    exact last c final
  · right
    refine ⟨front ++ before, digits, by simp, some, all, ?_, stops⟩
    intro c final inside
    rcases List.eq_nil_or_concat before with rfl | ⟨_, _, rfl⟩
    · rw [List.append_nil] at final
      exact apart c final inside
    · rw [Option.mem_def, getLast?_of_append (by simp)] at final
      exact border c final inside

/-- A gap behind a text ends its last word. -/
theorem Separate.pad {text gap rest : List Char} (blank : Gap gap)
    (separate : Separate text (gap ++ rest)) : Separate (text ++ gap) rest := by
  rcases List.eq_nil_or_concat gap with rfl | ⟨front, c, rfl⟩
  · simpa using separate
  · left
    intro d final inside
    obtain rfl : c = d := by simpa [← List.append_assoc] using final
    have visible := not_blank_of_inName inside
    rw [blank c (by simp)] at visible
    cases visible

/-- After a symbol that belongs to no name anything may follow. -/
theorem Separate.symbol (front : List Char) {c : Char} (other : inName c = false)
    (right : List Char) : Separate (front ++ [c]) right := by
  left
  intro d final inside
  obtain rfl : c = d := by simpa using final
  rw [other] at inside
  cases inside

/-! ## Tokens that were passed -/

theorem eat_true_passes {token : String} {cursor after : Cursor Char}
    (found : eat token cursor = (true, after)) :
    ∃ gap, Gap gap ∧ Passes cursor (gap ++ token.toList) after := by
  obtain ⟨gap, passed, blank⟩ := eat_passes isAsciiWhitespace found
  exact ⟨gap, blank, passed⟩

/-- Where no blank comes next the token itself is passed. -/
theorem eat_true_here {token : String} {cursor after : Cursor Char}
    (stops : Stops isAsciiWhitespace cursor.rest) (found : eat token cursor = (true, after)) :
    Passes cursor token.toList after := by
  obtain ⟨gap, blank, passed⟩ := eat_true_passes found
  obtain rfl := passed.no_run blank stops
  exact passed

theorem eat_false_here {token : String} {cursor after : Cursor Char}
    (stops : Stops isAsciiWhitespace cursor.rest) (missed : eat token cursor = (false, after)) :
    after = cursor :=
  (eat_false isAsciiWhitespace missed).trans (skip_stopped isAsciiWhitespace stops)

theorem expect_passes {token : String} {cursor after : Cursor Char}
    (stops : Stops isAsciiWhitespace cursor.rest) (found : expect token cursor = .ok after) :
    Passes cursor token.toList after := by
  unfold expect at found
  split at found
  next there eaten =>
    obtain rfl := Except.ok.inj found
    exact eat_true_here stops eaten
  next => exact absurd found (by simp)

/-- An operator whose last symbol may belong to a name is a word. -/
def ExprParser.Lexeme.closed : Lexeme → Bool
  | .symbol text => text.toList.getLast?.all (fun c => !inName c)
  | .word _ => true

/-- A lexeme was passed, and did not run into what follows. -/
theorem lexeme_passes {lexeme : Lexeme} (closed : lexeme.closed = true) {cursor after : Cursor Char}
    (found : lexeme.eat cursor = (true, after)) :
    ∃ gap, Gap gap ∧ Passes cursor (gap ++ lexeme.text.toList) after ∧
      Apart lexeme.text.toList after.rest := by
  cases lexeme with
  | symbol text =>
    obtain ⟨gap, passed, blank⟩ := eat_passes isAsciiWhitespace found
    refine ⟨gap, blank, passed, fun c final inside => ?_⟩
    rw [Option.mem_def] at final
    rw [Lexeme.text] at final
    simp [Lexeme.closed, final, inside] at closed
  | word text =>
    obtain ⟨gap, passed, blank, ends⟩ := eatWord_passes isAsciiWhitespace inName found
    exact ⟨gap, blank, passed, apart_of_stops ends⟩

theorem lexeme_passes_here {lexeme : Lexeme} (closed : lexeme.closed = true) {cursor after : Cursor Char}
    (stops : Stops isAsciiWhitespace cursor.rest) (found : lexeme.eat cursor = (true, after)) :
    Passes cursor lexeme.text.toList after ∧ Apart lexeme.text.toList after.rest := by
  obtain ⟨gap, blank, passed, apart⟩ := lexeme_passes closed found
  obtain rfl := passed.no_run blank stops
  exact ⟨passed, apart⟩

theorem lexeme_false {lexeme : Lexeme} {cursor after : Cursor Char}
    (missed : lexeme.eat cursor = (false, after)) : after = skipWs cursor := by
  cases lexeme with
  | symbol text => exact eat_false isAsciiWhitespace missed
  | word text => exact eatWord_false isAsciiWhitespace inName missed

theorem skipWs_here {cursor : Cursor Char} (stops : Stops isAsciiWhitespace cursor.rest) :
    skipWs cursor = cursor := skip_stopped isAsciiWhitespace stops

/-- Where a keyword was not eaten, the run of name symbols is another word. -/
theorem word_free {word : String} {cursor : Cursor Char}
    (stops : Stops isAsciiWhitespace cursor.rest)
    (missed : (Lexeme.eat (.word word) cursor).1 = false) :
    String.ofList (cursor.rest.takeWhile inName) ≠ word := by
  rintro rfl
  have shape : cursor.rest = cursor.rest.takeWhile inName ++ cursor.rest.dropWhile inName :=
    List.takeWhile_append_dropWhile.symm
  have ends := stops_dropWhile inName cursor.rest
  have found : (Lexeme.eat (.word (String.ofList (cursor.rest.takeWhile inName))) cursor).1 = true := by
    simp only [Lexeme.eat, Cursor.eatWord]
    have here : cursor.skip isAsciiWhitespace = cursor := skip_stopped isAsciiWhitespace stops
    rw [here, if_pos]
    refine ⟨?_, ?_⟩
    · rw [List.isPrefixOf_iff_prefix, String.toList_ofList]
      exact List.takeWhile_prefix _
    · rw [String.toList_ofList]
      have rest : cursor.rest.drop (cursor.rest.takeWhile inName).length =
          cursor.rest.dropWhile inName := by
        calc cursor.rest.drop (cursor.rest.takeWhile inName).length
            = (cursor.rest.takeWhile inName ++ cursor.rest.dropWhile inName).drop
                (cursor.rest.takeWhile inName).length := congrArg _ shape
          _ = cursor.rest.dropWhile inName := List.drop_left
      rw [rest]
      cases first : (cursor.rest.dropWhile inName).head? with
      | none => rfl
      | some c => simpa using ends c first
  rw [missed] at found
  cases found

/-! ## Operators -/

theorem operator_closed {level : Nat} {lexeme : Lexeme} {op : BinOp}
    (listed : (lexeme, op) ∈ operators level) : lexeme.closed = true := by
  have all : ∀ entry ∈ operators level, entry.1.closed = true := by
    match level with
    | 0 | 1 | 2 | 3 | 4 | 5 => decide
    | level + 6 => simp [operators]
  exact all _ listed

theorem unary_closed {op : UnaryOp} {lexeme : Lexeme} (spelled : lexeme ∈ op.spellings) :
    lexeme.closed = true := by
  have all : ∀ lexeme ∈ op.spellings, lexeme.closed = true := by
    cases op <;> decide
  exact all _ spelled

/-- The operator eaten is one of the level. -/
theorem eatOperator_sound {entries : List (Lexeme × BinOp)} {cursor after : Cursor Char}
    {op : BinOp} (found : eatOperator entries cursor = (some op, after)) :
    ∃ lexeme, (lexeme, op) ∈ entries ∧ lexeme.eat cursor = (true, after) := by
  induction entries generalizing cursor with
  | nil => exact absurd found (by simp [eatOperator])
  | cons entry entries inductionHypothesis =>
    obtain ⟨lexeme, other⟩ := entry
    rw [eatOperator] at found
    split at found
    next there eaten =>
      simp only [Prod.mk.injEq, Option.some.injEq] at found
      obtain ⟨rfl, rfl⟩ := found
      exact ⟨lexeme, List.mem_cons_self .., eaten⟩
    next there missed =>
      obtain ⟨later, listed, eaten⟩ := inductionHypothesis found
      rw [lexeme_false missed, lexeme_skip] at eaten
      exact ⟨later, List.mem_cons_of_mem _ listed, eaten⟩

theorem eatOperator_stays {entries : List (Lexeme × BinOp)} {cursor after : Cursor Char}
    (stops : Stops isAsciiWhitespace cursor.rest)
    (missed : eatOperator entries cursor = (none, after)) : after = cursor := by
  induction entries with
  | nil => simpa [eatOperator] using missed.symm
  | cons entry entries inductionHypothesis =>
    obtain ⟨lexeme, other⟩ := entry
    rw [eatOperator] at missed
    split at missed
    next => exact absurd missed (by simp)
    next there passed =>
      rw [lexeme_false passed, skipWs_here stops] at missed
      exact inductionHypothesis missed

/-! ## What one parser passed -/

theorem toU32_toNat (offset : UInt32) : toU32 offset.toNat = offset := by
  unfold toU32
  rw [if_pos offset.toNat_lt]
  exact UInt32.ofNat_toNat

theorem spanFrom_at {cursor after : Cursor Char} {text : List Char}
    (passed : Passes cursor text after) : spanFrom cursor.pos after = spanAt cursor.pos text := by
  rw [spanFrom, spanAt, passed.2]

theorem spanFrom_over {cursor after : Cursor Char} {gap text : List Char}
    (passed : Passes cursor (gap ++ text) after) (left : Expr) :
    spanFrom (leftStart left) after = spanOver left (cursor.pos + gap.length) text := by
  rw [spanFrom, spanOver, leftStart, toU32_toNat, passed.2, List.length_append, Nat.add_assoc]

/-- The parser passed a gap and a text of the level. -/
def ReadsTo (level : Nat) (cursor after : Cursor Char) (expr : Expr) : Prop :=
  ∃ gap text, Gap gap ∧ Passes cursor (gap ++ text) after ∧
    ReadsAs False level (cursor.pos + gap.length) text expr ∧ Separate text after.rest

/-- Every expression returned was read, and the blanks behind it were passed. -/
def Sound (level : Nat) (parser : Parser Expr) : Prop :=
  ∀ (cursor after : Cursor Char) (expr : Expr), parser cursor = .ok (expr, after) →
    ReadsTo level cursor after expr ∧ Stops isAsciiWhitespace after.rest

theorem ReadsAs.nonempty {strict : Prop} {level place : Nat} {text : List Char} {e : Expr}
    (reads : ReadsAs strict level place text e) : text ≠ [] := by
  induction reads with
  | ident isName _ => exact isName.nonempty
  | int numeral _ => exact numeral.nonempty
  | bool place value => cases value <;> decide
  | primary _ inductionHypothesis => exact inductionHypothesis
  | raise _ _ inductionHypothesis => exact inductionHypothesis
  | plain _ inductionHypothesis => exact inductionHypothesis
  | close _ _ inductionHypothesis => simp [inductionHypothesis]
  | unary _ _ _ _ inductionHypothesis => simp [inductionHypothesis]
  | binary _ _ _ _ _ _ _ leftNonempty _ => simp [leftNonempty]
  | paren | member | call | index | range => simp

theorem operator_nonempty {level : Nat} {lexeme : Lexeme} {op : BinOp}
    (listed : (lexeme, op) ∈ operators level) : lexeme.text.toList ≠ [] := by
  intro empty
  have tight := tightness_operator listed []
  rw [empty] at tight
  cases tight

/-- One more operand: what was read so far becomes the left part. -/
theorem ReadsTo.binary {level : Nat} {origin cursor after ended : Cursor Char} {left right : Expr}
    {lexeme : Lexeme} {op : BinOp} (listed : (lexeme, op) ∈ operators level)
    (reads : ReadsTo level origin cursor left) (passed : Passes cursor lexeme.text.toList after)
    (apart : Apart lexeme.text.toList after.rest) (further : ReadsTo (level + 1) after ended right) :
    ReadsTo level origin ended (.binary op left right (spanFrom (leftStart left) ended)) := by
  obtain ⟨gap, text, blank, first, leftReads, leftEnds⟩ := reads
  obtain ⟨gap', text', blank', second, rightReads, rightEnds⟩ := further
  rw [second.1] at apart
  rw [passed.1] at leftEnds
  have whole : Passes origin (gap ++ (text ++ (lexeme.text.toList ++ (gap' ++ text')))) ended := by
    simpa only [List.append_assoc] using first.append (passed.append second)
  have place : after.pos + gap'.length =
      origin.pos + gap.length + text.length + lexeme.text.toList.length + gap'.length := by
    rw [passed.2, first.2, List.length_append, ← Nat.add_assoc origin.pos]
  refine ⟨gap, text ++ (lexeme.text.toList ++ (gap' ++ text')), blank, whole, ?_, ?_⟩
  · rw [spanFrom_over whole]
    exact .binary listed blank' leftEnds.front apart.front leftReads (place ▸ rightReads) False.elim
  · have border : Apart (text ++ (lexeme.text.toList ++ gap')) text' :=
      Apart.extended blank' (operator_nonempty listed) apart.front
    simpa only [List.append_assoc] using rightEnds.prepend border rightReads.nonempty

/-- The loop of a binary level reads on from what it has. -/
theorem chain_sound {level : Nat} {operand : Parser Expr} (sound : Sound (level + 1) operand)
    (fuel : Nat) {left expr : Expr} {origin cursor after : Cursor Char}
    (reads : ReadsTo level origin cursor left) (stops : Stops isAsciiWhitespace cursor.rest)
    (done : chain (operators level) operand fuel left cursor = .ok (expr, after)) :
    ReadsTo level origin after expr ∧ Stops isAsciiWhitespace after.rest := by
  induction fuel generalizing left cursor with
  | zero => exact absurd done (by simp [chain])
  | succ fuel inductionHypothesis =>
    rw [chain] at done
    split at done
    next there missed =>
      obtain ⟨rfl, rfl⟩ := Prod.mk.inj (Except.ok.inj done)
      rw [eatOperator_stays stops missed]
      exact ⟨reads, stops⟩
    next op there found =>
      obtain ⟨⟨right, ended⟩, read, onward⟩ := ok_of_bind done
      obtain ⟨lexeme, listed, eaten⟩ := eatOperator_sound found
      obtain ⟨passed, apart⟩ := lexeme_passes_here (operator_closed listed) stops eaten
      obtain ⟨further, stopped⟩ := sound there ended right read
      exact inductionHypothesis (.binary listed reads passed apart further) stopped onward

theorem ReadsTo.raise {level : Nat} (binary : level < 6) {cursor after : Cursor Char} {expr : Expr}
    (reads : ReadsTo (level + 1) cursor after expr) : ReadsTo level cursor after expr := by
  obtain ⟨gap, text, blank, passed, reads, ends⟩ := reads
  exact ⟨gap, text, blank, passed, .raise binary reads, ends⟩

theorem binaryLevel_sound {level : Nat} (binary : level < 6) {operand : Parser Expr}
    (sound : Sound (level + 1) operand) : Sound level (binaryLevel (operators level) operand) := by
  intro cursor after expr done
  obtain ⟨⟨left, middle⟩, read, onward⟩ := ok_of_bind done
  obtain ⟨reads, stops⟩ := sound cursor middle left read
  exact chain_sound sound _ (reads.raise binary) stops onward

/-! ## Names and numerals -/

theorem parseIdentRaw_passes {cursor after : Cursor Char} {name : String}
    (done : parseIdentRaw cursor = .ok (name, after)) :
    ∃ gap word, Gap gap ∧ IsName word ∧ name = String.ofList word ∧
      word = (skipWs cursor).rest.takeWhile inName ∧ Passes cursor (gap ++ word) after ∧
      Stops inName after.rest := by
  obtain ⟨gap, passed, blank, _⟩ := skip_passes isAsciiWhitespace cursor
  simp only [parseIdentRaw] at done
  split at done
  next starts =>
    obtain ⟨rfl, rfl⟩ := Prod.mk.inj (Except.ok.inj done)
    exact ⟨gap, _, blank, name_run starts, rfl, rfl, passed.append (span_passes inName _),
      stops_dropWhile inName _⟩
  next => exact absurd done (by simp)

/-- `i64::from_str` reads digits as their numeral. -/
theorem parse_i64_sound {digits : List Char} (all : ∀ c ∈ digits, isAsciiDigit c = true)
    {value : Int64} (read : Text.parseI64 10 digits = some value) :
    ∃ number, Numeral digits number ∧ value.toInt = number := by
  unfold Text.parseI64 at read
  split at read
  next rest => exact (no_sign all rfl (.inr rfl)).elim
  next rest => exact (no_sign all rfl (.inl rfl)).elim
  next =>
    split at read
    next number spelled =>
      split at read
      next small =>
        obtain rfl := Option.some.inj read
        exact ⟨number, ⟨all, spelled⟩, Int64.toInt_ofInt_of_le (by omega) (by omega)⟩
      next => exact absurd read (by simp)
    next => exact absurd read (by simp)

theorem parseIntLiteral_passes {cursor after : Cursor Char} {value : Int64}
    (done : parseIntLiteral cursor = .ok (value, after)) :
    ∃ digits number, Numeral digits number ∧ value.toInt = number ∧ Passes cursor digits after ∧
      Stops isAsciiDigit after.rest := by
  simp only [parseIntLiteral] at done
  split at done
  next read =>
    obtain ⟨rfl, rfl⟩ := Prod.mk.inj (Except.ok.inj done)
    obtain ⟨shape, all, stops⟩ := span_sound isAsciiDigit cursor
    obtain ⟨number, numeral, same⟩ := parse_i64_sound all read
    exact ⟨_, number, numeral, same, span_passes isAsciiDigit cursor, stops⟩
  next => exact absurd done (by simp)

/-! ## Primary expressions -/

section Primary

variable {implies : Parser Expr}

/-- A primary expression begins where the parser stands. -/
def PrimaryTo (cursor after : Cursor Char) (expr : Expr) : Prop :=
  ∃ text, Passes cursor text after ∧ ReadsAs False 8 cursor.pos text expr ∧ Separate text after.rest

theorem paren_sound (sound : Sound 0 implies) {cursor opened after : Cursor Char} {expr : Expr}
    (passed : Passes cursor "(".toList opened)
    (done : (do
      let (expr, after) ← implies opened
      let after ← expect ")" after
      .ok (expr, after)) = Except.ok (expr, after)) : PrimaryTo cursor after expr := by
  obtain ⟨⟨inner, middle⟩, read, onward⟩ := ok_of_bind done
  obtain ⟨closed, found, last⟩ := ok_of_bind onward
  obtain ⟨rfl, rfl⟩ := Prod.mk.inj (Except.ok.inj last)
  obtain ⟨⟨gap, text, blank, further, reads, _⟩, stops⟩ := sound opened middle inner read
  have whole := passed.append (further.append (expect_passes stops found))
  rw [passed.2] at reads
  refine ⟨'(' :: (gap ++ (text ++ [')'])), ?_, .paren blank reads, ?_⟩
  · simpa using whole
  · have ends := Separate.symbol ('(' :: (gap ++ text)) (c := ')') (by decide) closed.rest
    simpa using ends

theorem bool_sound (value : Bool) {cursor after : Cursor Char}
    (stops : Stops isAsciiWhitespace cursor.rest)
    (found : (Lexeme.word (boolWord value)).eat cursor = (true, after)) :
    PrimaryTo cursor after (.bool value (spanFrom cursor.pos after)) := by
  obtain ⟨gap, passed, blank, ends⟩ := eatWord_passes isAsciiWhitespace inName found
  obtain rfl := passed.no_run blank stops
  refine ⟨(boolWord value).toList, passed, ?_, .of_stops ends⟩
  rw [spanFrom_at passed]
  exact .bool cursor.pos value

theorem int_sound {cursor after : Cursor Char} {value : Int64}
    (done : parseIntLiteral cursor = .ok (value, after)) :
    PrimaryTo cursor after (.int value (spanFrom cursor.pos after)) := by
  obtain ⟨digits, number, numeral, same, passed, stops⟩ := parseIntLiteral_passes done
  refine ⟨digits, passed, ?_, .inr ⟨[], digits, rfl, numeral.nonempty, numeral.1, ?_, stops⟩⟩
  · rw [spanFrom_at passed]
    exact .int numeral same
  · intro c final
    simp at final

theorem ident_sound {cursor after : Cursor Char} {name : String}
    (stops : Stops isAsciiWhitespace cursor.rest)
    (free : ∀ word ∈ keywords, (Lexeme.eat (.word word) cursor).1 = false)
    (done : parseIdentRaw cursor = .ok (name, after)) :
    PrimaryTo cursor after (.ident name (spanFrom cursor.pos after)) := by
  obtain ⟨gap, word, blank, isName, rfl, run, passed, ends⟩ := parseIdentRaw_passes done
  obtain rfl := passed.no_run blank stops
  rw [List.nil_append] at passed
  rw [skipWs_here stops] at run
  refine ⟨word, passed, ?_, .of_stops ends⟩
  rw [spanFrom_at passed]
  refine .ident isName fun listed => ?_
  exact word_free stops (free _ listed) (congrArg String.ofList run.symm)

theorem parsePrimary_sound (sound : Sound 0 implies) {cursor after : Cursor Char} {expr : Expr}
    (stops : Stops isAsciiWhitespace cursor.rest)
    (noPrefix : (Lexeme.eat (.word "not") cursor).1 = false)
    (done : parsePrimary implies cursor = .ok (expr, after)) : PrimaryTo cursor after expr := by
  simp only [parsePrimary, skipWs_here stops] at done
  split at done
  next opened found => exact paren_sound sound (eat_true_here stops found) done
  next there missed =>
  obtain rfl := eat_false_here stops missed
  split at done
  next ended found =>
    obtain ⟨rfl, rfl⟩ := Prod.mk.inj (Except.ok.inj done)
    exact bool_sound true stops found
  next there noTrue =>
  obtain rfl : there = _ := (lexeme_false noTrue).trans (skipWs_here stops)
  split at done
  next ended found =>
    obtain ⟨rfl, rfl⟩ := Prod.mk.inj (Except.ok.inj done)
    exact bool_sound false stops found
  next there noFalse =>
  obtain rfl : there = _ := (lexeme_false noFalse).trans (skipWs_here stops)
  split at done
  · obtain ⟨⟨value, ended⟩, read, last⟩ := ok_of_bind done
    obtain ⟨rfl, rfl⟩ := Prod.mk.inj (Except.ok.inj last)
    exact int_sound read
  · split at done
    · obtain ⟨⟨name, ended⟩, read, last⟩ := ok_of_bind done
      obtain ⟨rfl, rfl⟩ := Prod.mk.inj (Except.ok.inj last)
      refine ident_sound stops (fun word listed => ?_) read
      simp only [keywords, List.mem_cons, List.not_mem_nil, or_false] at listed
      rcases listed with rfl | rfl | rfl
      · rw [noTrue]
      · rw [noFalse]
      · exact noPrefix
    · exact absurd done (by simp)

/-! ## Arguments and indices -/

/-- What was passed up to the closing parenthesis are arguments where they stand. -/
def ArgumentsTo (cursor after : Cursor Char) (args : List Expr) : Prop :=
  ∃ (placed : List PlacedArg) (gap : List Char), args = placed.map PlacedArg.expr ∧ Gap gap ∧
    (∀ arg ∈ placed, Gap arg.gap) ∧ (placed ≠ [] → gap = []) ∧ Aligned cursor.pos placed ∧
    (∀ arg ∈ placed, ReadsAs False 0 arg.place arg.text arg.expr) ∧
    Passes cursor (placedText placed ++ (gap ++ [')'])) after

theorem arguments_sound (sound : Sound 0 implies) (fuel : Nat) {args result : List Expr}
    {cursor after : Cursor Char} (done : arguments implies fuel args cursor = .ok (result, after)) :
    ∃ placed : List PlacedArg, placed ≠ [] ∧ result = args ++ placed.map PlacedArg.expr ∧
      (∀ arg ∈ placed, Gap arg.gap) ∧ Aligned cursor.pos placed ∧
      (∀ arg ∈ placed, ReadsAs False 0 arg.place arg.text arg.expr) ∧
      Passes cursor (placedText placed ++ [')']) after := by
  induction fuel generalizing args cursor with
  | zero => exact absurd done (by simp [arguments])
  | succ fuel inductionHypothesis =>
    obtain ⟨⟨arg, middle⟩, read, onward⟩ := ok_of_bind done
    obtain ⟨⟨gap, text, blank, passed, reads, _⟩, stops⟩ := sound cursor middle arg read
    dsimp only at onward
    rw [skipWs_here stops] at onward
    split at onward
    next ended found =>
      obtain ⟨rfl, rfl⟩ := Prod.mk.inj (Except.ok.inj onward)
      refine ⟨[⟨gap, cursor.pos + gap.length, text, arg⟩], by simp, rfl, ?_, ?_, ?_, ?_⟩
      · simpa using blank
      · exact ⟨rfl, trivial⟩
      · simpa using reads
      · exact passed.append (eat_true_here stops found)
    next there missed =>
    obtain rfl := eat_false_here stops missed
    split at onward
    next comma found =>
      obtain ⟨placed, some, rfl, gaps, aligned, each, further⟩ := inductionHypothesis onward
      have separator := eat_true_here stops found
      obtain ⟨next, more, rfl⟩ := List.exists_cons_of_ne_nil some
      refine ⟨⟨gap, cursor.pos + gap.length, text, arg⟩ :: next :: more, by simp, by simp, ?_, ?_,
        ?_, ?_⟩
      · exact List.forall_mem_cons.2 ⟨blank, gaps⟩
      · refine ⟨rfl, ?_⟩
        have place : comma.pos = cursor.pos + gap.length + text.length + 1 := by
          rw [separator.2, passed.2, List.length_append, ← Nat.add_assoc]
          rfl
        rw [← place]
        exact aligned
      · exact List.forall_mem_cons.2 ⟨reads, each⟩
      · have whole := passed.append (separator.append further)
        simpa [placedText] using whole
    next => exact absurd onward (by simp)

theorem callArguments_sound (sound : Sound 0 implies) {args : List Expr}
    {cursor after : Cursor Char} (done : callArguments implies cursor = .ok (args, after)) :
    ArgumentsTo cursor after args := by
  obtain ⟨gap, passed, blank, stops⟩ := skip_passes isAsciiWhitespace cursor
  simp only [callArguments] at done
  split at done
  next ended found =>
    obtain ⟨rfl, rfl⟩ := Prod.mk.inj (Except.ok.inj done)
    refine ⟨[], gap, rfl, blank, by simp, by simp, trivial, by simp, ?_⟩
    exact passed.append (eat_true_here stops found)
  next there missed =>
    obtain rfl := eat_false_here stops missed
    obtain ⟨placed, some, rfl, gaps, aligned, each, further⟩ := arguments_sound sound _ done
    obtain ⟨first, more, rfl⟩ := List.exists_cons_of_ne_nil some
    have blankFirst : Gap (gap ++ first.gap) := Gap.append blank (gaps first (List.mem_cons_self ..))
    refine ⟨{ first with gap := gap ++ first.gap } :: more, [], by simp, gap_nil, ?_, by simp, ?_,
      ?_, ?_⟩
    · exact List.forall_mem_cons.2 ⟨blankFirst, fun arg member => gaps arg (List.mem_cons_of_mem _ member)⟩
    · refine ⟨?_, aligned.2⟩
      have place := aligned.1
      rw [← skipWs, skipWs, passed.2] at place
      simpa [Nat.add_assoc] using place
    · exact List.forall_mem_cons.2 (List.forall_mem_cons.1 each)
    · have whole := passed.append further
      cases more <;> simpa [placedText] using whole

theorem parseRangeOrExpr_sound (sound : Sound 0 implies) {cursor after : Cursor Char} {expr : Expr}
    (done : parseRangeOrExpr implies cursor = .ok (expr, after)) :
    ∃ gap text, Gap gap ∧ Passes cursor (gap ++ text) after ∧
      ReadsAs False 9 (cursor.pos + gap.length) text expr ∧ Stops isAsciiWhitespace after.rest := by
  obtain ⟨gap, skipped, blank, stops⟩ := skip_passes isAsciiWhitespace cursor
  obtain ⟨⟨lo, middle⟩, read, onward⟩ := ok_of_bind done
  dsimp only at onward
  obtain ⟨⟨none, text, noBlank, passed, reads, _⟩, stopped⟩ := sound _ middle lo read
  obtain rfl := passed.no_run noBlank stops
  rw [List.nil_append] at passed
  rw [List.length_nil, Nat.add_zero] at reads
  have place : (skipWs cursor).pos = cursor.pos + gap.length := skipped.2
  rw [skipWs_here stopped] at onward
  split at onward
  next dots found =>
    obtain ⟨⟨hi, ended⟩, further, last⟩ := ok_of_bind onward
    obtain ⟨rfl, rfl⟩ := Prod.mk.inj (Except.ok.inj last)
    obtain ⟨⟨gap', text', blank', second, stopReads, _⟩, final⟩ := sound _ ended hi further
    have separator := eat_true_here stopped found
    have whole := passed.append (separator.append second)
    have stopPlace : dots.pos = cursor.pos + gap.length + text.length + 2 := by
      rw [separator.2, passed.2, ← place]
      rfl
    refine ⟨gap, text ++ ('.' :: '.' :: (gap' ++ text')), blank, skipped.append whole, ?_, final⟩
    rw [spanFrom_at whole, place]
    rw [place] at reads
    rw [stopPlace] at stopReads
    exact .range blank' reads stopReads
  next there missed =>
    obtain ⟨rfl, rfl⟩ := Prod.mk.inj (Except.ok.inj onward)
    obtain rfl := eat_false_here stopped missed
    rw [place] at reads
    exact ⟨gap, text, blank, skipped.append passed, .plain reads, stopped⟩

/-! ## Postfix and unary expressions -/

/-- A postfix expression that was read so far, from where it begins. -/
def PostfixTo (origin cursor : Cursor Char) (expr : Expr) : Prop :=
  ∃ text, Passes origin text cursor ∧ ReadsAs False 7 origin.pos text expr ∧
    Separate text cursor.rest

theorem PostfixTo.closed {origin cursor after : Cursor Char} {expr : Expr} {gap : List Char}
    (reads : PostfixTo origin cursor expr) (blank : Gap gap) (passed : Passes cursor gap after) :
    ReadsTo 6 origin after expr := by
  obtain ⟨text, first, reads, ends⟩ := reads
  rw [passed.1] at ends
  exact ⟨[], text ++ gap, gap_nil, first.append passed, .close blank reads, ends.pad blank⟩

theorem PostfixTo.member {origin cursor there dot after : Cursor Char} {expr : Expr}
    {gap : List Char} {field : String} (reads : PostfixTo origin cursor expr) (blank : Gap gap)
    (skipped : Passes cursor gap there) (passed : Passes there ".".toList dot)
    (read : parseIdentRaw dot = .ok (field, after)) :
    PostfixTo origin after (.member expr field (spanFrom dot.pos after)) := by
  obtain ⟨text, first, reads, _⟩ := reads
  obtain ⟨gap', word, blank', isName, rfl, _, named, ends⟩ := parseIdentRaw_passes read
  have whole := first.append (skipped.append (passed.append named))
  have place : dot.pos = origin.pos + text.length + gap.length + 1 := by
    rw [passed.2, skipped.2, first.2]
    rfl
  refine ⟨text ++ (gap ++ ('.' :: (gap' ++ word))), whole, ?_, .of_stops ends⟩
  rw [spanFrom_at named, place]
  exact .member ⟨blank, blank'⟩ isName reads

theorem spanFrom_here {cursor after : Cursor Char} {text : List Char}
    (passed : Passes cursor text after) (left : Expr) :
    spanFrom (leftStart left) after = spanOver left cursor.pos text := by
  have behind : Passes cursor ([] ++ text) after := passed
  simpa using spanFrom_over behind left

theorem PostfixTo.call {origin cursor there opened after : Cursor Char} {expr : Expr}
    {gap : List Char} {args : List Expr} (reads : PostfixTo origin cursor expr) (blank : Gap gap)
    (skipped : Passes cursor gap there) (passed : Passes there "(".toList opened)
    (read : ArgumentsTo opened after args) :
    PostfixTo origin after (.call expr args (spanFrom (leftStart expr) after)) := by
  obtain ⟨text, first, reads, _⟩ := reads
  obtain ⟨placed, gap', rfl, blank', gaps, closes, aligned, each, further⟩ := read
  have whole := first.append (skipped.append (passed.append further))
  have place : opened.pos = origin.pos + text.length + gap.length + 1 := by
    rw [passed.2, skipped.2, first.2]
    rfl
  rw [place] at aligned
  refine ⟨text ++ (gap ++ ('(' :: (placedText placed ++ (gap' ++ [')'])))), whole, ?_, ?_⟩
  · rw [spanFrom_here whole]
    exact .call ⟨blank, blank'⟩ gaps closes aligned reads each False.elim
  · have ends := Separate.symbol (text ++ (gap ++ ('(' :: (placedText placed ++ gap'))))
      (c := ')') (by decide) after.rest
    simpa using ends

theorem PostfixTo.index {origin cursor there opened closed after : Cursor Char}
    {expr position : Expr} {gap gap' inner : List Char} (reads : PostfixTo origin cursor expr)
    (blank : Gap gap) (skipped : Passes cursor gap there) (passed : Passes there "[".toList opened)
    (blank' : Gap gap') (inside : Passes opened (gap' ++ inner) closed)
    (positionReads : ReadsAs False 9 (opened.pos + gap'.length) inner position)
    (last : Passes closed "]".toList after) :
    PostfixTo origin after (.index expr position (spanFrom (leftStart expr) after)) := by
  obtain ⟨text, first, reads, _⟩ := reads
  have whole : Passes origin (text ++ (gap ++ ('[' :: (gap' ++ (inner ++ [']']))))) after := by
    simpa using first.append (skipped.append (passed.append (inside.append last)))
  have place : opened.pos = origin.pos + text.length + gap.length + 1 := by
    rw [passed.2, skipped.2, first.2]
    rfl
  rw [place] at positionReads
  refine ⟨text ++ (gap ++ ('[' :: (gap' ++ (inner ++ [']'])))), whole, ?_, ?_⟩
  · rw [spanFrom_here whole]
    exact .index ⟨blank, blank'⟩ reads positionReads False.elim
  · have ends := Separate.symbol (text ++ (gap ++ ('[' :: (gap' ++ inner)))) (c := ']') (by decide)
      after.rest
    simpa using ends

/-- The postfix loop reads on from what it has. -/
theorem postfixLoop_sound (sound : Sound 0 implies) (fuel : Nat) {expr result : Expr}
    {origin cursor after : Cursor Char}
    (reads : PostfixTo origin cursor expr)
    (done : postfixLoop implies fuel expr cursor = .ok (result, after)) :
    ReadsTo 6 origin after result ∧ Stops isAsciiWhitespace after.rest := by
  induction fuel generalizing expr cursor with
  | zero => exact absurd done (by simp [postfixLoop])
  | succ fuel inductionHypothesis =>
    obtain ⟨gap, skipped, blank, here⟩ := skip_passes isAsciiWhitespace cursor
    rw [postfixLoop] at done
    split at done
    next dot found =>
      split at done
      next =>
        obtain ⟨rfl, rfl⟩ := Prod.mk.inj (Except.ok.inj done)
        exact ⟨reads.closed blank skipped, here⟩
      next =>
        obtain ⟨⟨field, ended⟩, read, onward⟩ := ok_of_bind done
        exact inductionHypothesis (reads.member blank skipped (eat_true_here here found) read) onward
    next there noDot =>
    obtain rfl := eat_false_here here noDot
    split at done
    next opened found =>
      obtain ⟨⟨args, ended⟩, read, onward⟩ := ok_of_bind done
      exact inductionHypothesis (reads.call blank skipped (eat_true_here here found)
        (callArguments_sound sound read)) onward
    next there noParen =>
    obtain rfl := eat_false_here here noParen
    split at done
    next opened found =>
      obtain ⟨⟨position, closed⟩, read, onward⟩ := ok_of_bind done
      obtain ⟨ended, expected, onward⟩ := ok_of_bind onward
      obtain ⟨gap', inner, blank', inside, positionReads, stopped⟩ :=
        parseRangeOrExpr_sound sound read
      exact inductionHypothesis (reads.index blank skipped (eat_true_here here found) blank' inside
        positionReads (expect_passes stopped expected)) onward
    next there noBracket =>
      obtain ⟨rfl, rfl⟩ := Prod.mk.inj (Except.ok.inj done)
      obtain rfl := eat_false_here here noBracket
      exact ⟨reads.closed blank skipped, here⟩

theorem parsePostfix_sound (sound : Sound 0 implies) {cursor after : Cursor Char} {expr : Expr}
    (stops : Stops isAsciiWhitespace cursor.rest)
    (noPrefix : (Lexeme.eat (.word "not") cursor).1 = false)
    (done : parsePostfix implies cursor = .ok (expr, after)) :
    ReadsTo 6 cursor after expr ∧ Stops isAsciiWhitespace after.rest := by
  obtain ⟨⟨first, middle⟩, read, onward⟩ := ok_of_bind done
  obtain ⟨text, passed, reads, ends⟩ := parsePrimary_sound sound stops noPrefix read
  exact postfixLoop_sound sound _ ⟨text, passed, .primary reads, ends⟩ onward

/-- A prefix operator and what it applies to. -/
theorem prefixed_sound {op : UnaryOp} {lexeme : Lexeme} (spelled : lexeme ∈ op.spellings)
    {cursor after ended : Cursor Char} {expr : Expr} (stops : Stops isAsciiWhitespace cursor.rest)
    (found : lexeme.eat cursor = (true, after)) (further : ReadsTo 6 after ended expr) :
    ReadsTo 6 cursor ended (.unary op expr (spanFrom cursor.pos ended)) := by
  obtain ⟨passed, apart⟩ := lexeme_passes_here (unary_closed spelled) stops found
  obtain ⟨gap, text, blank, second, reads, ends⟩ := further
  have whole := passed.append second
  rw [passed.2] at reads
  rw [second.1] at apart
  have border : Apart ([] ++ (lexeme.text.toList ++ gap)) text :=
    Apart.extended blank (unary_proper spelled).isToken.nonempty
      apart.front
  refine ⟨[], lexeme.text.toList ++ (gap ++ text), gap_nil, whole, ?_, ?_⟩
  · rw [spanFrom_at whole]
    exact .unary spelled blank apart.front reads
  · simpa using ends.prepend border reads.nonempty

theorem unary_sound (sound : Sound 0 implies) (fuel : Nat) : Sound 6 (unary implies fuel) := by
  induction fuel with
  | zero => exact fun cursor after expr done => absurd done (by simp [unary])
  | succ fuel inductionHypothesis =>
    intro cursor after expr done
    obtain ⟨gap, skipped, blank, here⟩ := skip_passes isAsciiWhitespace cursor
    have moved : ∀ {result : Expr} {ended : Cursor Char}, ReadsTo 6 (skipWs cursor) ended result →
        ReadsTo 6 cursor ended result := by
      rintro result ended ⟨none, text, noBlank, passed, reads, ends⟩
      obtain rfl := passed.no_run noBlank here
      have place : (skipWs cursor).pos = cursor.pos + gap.length := skipped.2
      rw [List.length_nil, Nat.add_zero, place] at reads
      exact ⟨gap, text, blank, skipped.append passed, reads, ends⟩
    have prefixed : ∀ (op : UnaryOp) (lexeme : Lexeme) {there : Cursor Char},
        lexeme ∈ op.spellings → lexeme.eat (skipWs cursor) = (true, there) →
        (do let (operand, ended) ← unary implies fuel there
            .ok (.unary op operand (spanFrom (skipWs cursor).pos ended), ended)) =
          Except.ok (expr, after) →
        ReadsTo 6 cursor after expr ∧ Stops isAsciiWhitespace after.rest := by
      intro op lexeme there spelled found done
      obtain ⟨⟨operand, ended⟩, read, last⟩ := ok_of_bind done
      obtain ⟨rfl, rfl⟩ := Prod.mk.inj (Except.ok.inj last)
      obtain ⟨further, stopped⟩ := inductionHypothesis there ended operand read
      exact ⟨moved (prefixed_sound spelled here found further), stopped⟩
    rw [unary] at done
    dsimp only at done
    split at done
    next there found => exact prefixed .not (.symbol "!") (by decide) found done
    next there noBang =>
    obtain rfl := eat_false_here here noBang
    split at done
    next there found => exact prefixed .not (.word "not") (by decide) found done
    next there noWord =>
    obtain rfl : there = _ := (lexeme_false noWord).trans (skipWs_here here)
    split at done
    next there found => exact prefixed .neg (.symbol "-") (by decide) found done
    next there noMinus =>
      obtain rfl := eat_false_here here noMinus
      obtain ⟨reads, stopped⟩ := parsePostfix_sound sound here (by rw [noWord]) done
      exact ⟨moved reads, stopped⟩

/-! ## All levels -/

theorem parseUnary_sound (sound : Sound 0 implies) : Sound 6 (parseUnary implies) := by
  intro cursor after expr done
  have same : parseUnary implies cursor =
      unary implies ((skipWs cursor).rest.length + 1) cursor := by
    simp only [parseUnary, unary, skipWs_idem]
  exact unary_sound sound _ cursor after expr (same ▸ done)

theorem levelParser_sound (sound : Sound 0 implies) {level : Nat} (small : level ≤ 6) :
    Sound level (levelParser implies level) := by
  induction distance : 6 - level generalizing level with
  | zero =>
    obtain rfl : level = 6 := by omega
    exact parseUnary_sound sound
  | succ distance inductionHypothesis =>
    have binary : level < 6 := by omega
    rw [levelParser_binary implies binary]
    exact binaryLevel_sound binary (inductionHypothesis (by omega) (by omega))

end Primary

theorem parseImplies_sound (fuel : Nat) : Sound 0 (parseImplies fuel) := by
  induction fuel with
  | zero => exact fun cursor after expr done => absurd done (by simp [parseImplies])
  | succ fuel inductionHypothesis =>
    have sound : Sound 0 (levelParser (parseImplies fuel) 0) :=
      levelParser_sound inductionHypothesis (by decide)
    exact sound

/-- Every accepted input reads as the tree. -/
theorem parse_reads {input : String} {tree : Expr} (accepted : Expr.parse input = .ok tree) :
    ReadsWhole False input tree := by
  obtain ⟨⟨expr, after⟩, read, onward⟩ := ok_of_bind accepted
  obtain ⟨⟨gap, text, blank, passed, reads, _⟩, stops⟩ := parseImplies_sound _ _ _ _ read
  dsimp only at onward
  rw [skipWs_here stops] at onward
  split at onward
  next => exact absurd onward (by simp)
  next finished =>
    obtain rfl := Except.ok.inj onward
    have empty : after.rest = [] := by simpa using finished
    refine ⟨gap, text, ?_, blank, ?_⟩
    · have shape := passed.1
      rw [empty, List.append_nil] at shape
      exact shape
    · simpa using reads

end Semasm.Contract
