import Semasm.Contract.ExprExact

/-!
# Readings are unique

Postfix forms extend the expression read so far, primary expressions are read to
their last symbol, and what stands in parentheses, brackets or an argument list is
read up to the token that closes it. By induction every reading is what the parser
of its level makes of the text. The parser therefore accepts exactly the texts that
read as an expression, and the expression is the only one such a text reads as.
-/

namespace Semasm.Contract

open Library.Scanning ExprParser

section Forms

variable {implies : Parser Expr}

/-! ## Postfix forms -/

/-- A postfix form: a token that no word runs into, and what the loop makes of it. -/
theorem ExactPostfix.extend {place : Nat} {base gap inner : List Char} {token : String}
    {e target : Expr} (blank : Gap gap) (isToken : IsToken token)
    (symbol : Stops inName token.toList) (exact : Exact implies place base e 7)
    (step : ∀ fuel rest, Separate (base ++ (gap ++ (token.toList ++ inner))) rest →
      postfixLoop implies (fuel + 1) e
          ⟨place + base.length + gap.length, token.toList ++ (inner ++ rest)⟩ =
        postfixLoop implies fuel target
          ⟨place + base.length + gap.length + token.toList.length + inner.length, rest⟩) :
    Exact implies place (base ++ (gap ++ (token.toList ++ inner))) target 7 := by
  have apart : ∀ rest, Separate base (gap ++ (token.toList ++ (inner ++ rest))) := fun rest =>
    .inl (apart_symbol base blank isToken _ symbol)
  constructor
  · intro rest separate
    obtain ⟨fuel, enough, read⟩ := exact.1 _ (apart rest)
    obtain ⟨fuel, rfl⟩ := Nat.exists_eq_add_one.2 (Nat.zero_lt_of_lt enough)
    have positive := List.length_pos_iff.2 isToken.nonempty
    simp only [List.length_append] at enough
    refine ⟨fuel, by omega, ?_⟩
    rw [← postfixLoop_skip, skipWs_token token isToken _ blank, step fuel rest separate] at read
    simp only [List.append_assoc, List.length_append, ← Nat.add_assoc]
    exact read
  · intro rest _ lexeme listed
    have missed := exact.2 _ (apart rest) lexeme listed
    simpa only [List.append_assoc] using missed

/-- A name does not begin with a dot, nor does a gap before it. -/
theorem field_no_dot {gap field : List Char} (blank : Gap gap) (isName : IsName field)
    (rest : List Char) : (gap ++ (field ++ rest)).head? ≠ some '.' := by
  intro first
  cases gap with
  | nil =>
    obtain ⟨c, more, rfl⟩ := List.exists_cons_of_ne_nil isName.nonempty
    have inside := isName.2 c (List.mem_cons_self ..)
    obtain rfl : c = '.' := by simpa using first
    exact absurd inside (by decide)
  | cons c gap =>
    have white := blank c (List.mem_cons_self ..)
    obtain rfl : c = '.' := by simpa using first
    exact absurd white (by decide)

theorem IsName.letter {name : List Char} (isName : IsName name) :
    ∃ c ∈ name.head?, isAsciiDigit c = false := by
  obtain ⟨c, first, starts⟩ := isName.1
  exact ⟨c, first, not_digit_of_startsName starts⟩

/-- A member access. -/
theorem member_exact {place : Nat} {base gap gap' field : List Char} {e : Expr}
    (blanks : Gap gap ∧ Gap gap') (isName : IsName field) (exact : Exact implies place base e 7) :
    Exact implies place (base ++ (gap ++ ('.' :: (gap' ++ field))))
      (.member e (String.ofList field)
        (spanAt (place + base.length + gap.length + 1) (gap' ++ field))) 7 := by
  refine @ExactPostfix.extend implies place base gap (gap' ++ field) "." e _ blanks.1 (by decide)
    (by simp; decide) exact ?_
  intro fuel rest separate
  have ends : Stops inName rest := by
    simp only [← List.append_assoc] at separate
    exact (separate.last isName.nonempty).stops_of_word isName.2 isName.letter
  have dot := eat_here "." (by decide) (place + base.length + gap.length) (gap' ++ (field ++ rest))
  have name := parseIdentRaw_name (place + base.length + gap.length + ".".toList.length) blanks.2
    isName ends
  have here := skipWs_token "." (by decide) (place + base.length + gap.length) gap_nil
    (gap' ++ (field ++ rest))
  simp only [List.nil_append, List.length_nil, Nat.add_zero] at here
  have length : (gap' ++ field).length = gap'.length + field.length := List.length_append
  rw [postfixLoop]
  simp only [List.append_assoc, length, ← Nat.add_assoc]
  simp only [here, dot, if_neg (field_no_dot blanks.2 isName rest), name, bind, Except.bind]
  congr 3
  simp only [spanFrom, spanAt, length, ← Nat.add_assoc]
  rfl

/-- The parser reads an inner text up to a closing token. -/
def ExactClosed (implies : Parser Expr) (place : Nat) (text : List Char) (e : Expr) : Prop :=
  ∀ rest, Separate text rest → Stops isAsciiWhitespace rest → follows rest = 0 →
    implies ⟨place, text ++ rest⟩ = .ok (e, ⟨place + text.length, rest⟩)

/-- A closing token ends any text. -/
theorem separate_token (text : List Char) {token : String} (isToken : IsToken token)
    (symbol : Stops inName token.toList) (rest : List Char) :
    Separate text (token.toList ++ rest) :=
  .of_stops (symbol.append rest isToken.nonempty)

theorem ExactClosed.before {place : Nat} {text : List Char} {e : Expr}
    (exact : ExactClosed implies place text e) (token : String) (isToken : IsToken token)
    (symbol : Stops inName token.toList) (rest : List Char)
    (closing : tightness (token.toList ++ rest) = 0) :
    implies ⟨place, text ++ (token.toList ++ rest)⟩ =
      .ok (e, ⟨place + text.length, token.toList ++ rest⟩) := by
  have shown := follows_gap gap_nil isToken rest
  rw [List.nil_append] at shown
  exact exact _ (separate_token text isToken symbol rest) (isToken.stops.append rest isToken.nonempty)
    (shown.trans closing)

/-- What a placed argument needs for the loop over the arguments. -/
structure PlacedArg.Exact (implies : Parser Expr) (arg : PlacedArg) : Prop where
  blank : Gap arg.gap
  visible : Stops isAsciiWhitespace arg.text
  some : arg.text ≠ []
  exact : ExactClosed implies arg.place arg.text arg.expr

/-- The arguments of a call are read one after the other, up to the parenthesis.

Proof: by induction on the arguments, the fuel bounding what is shown of them. -/
theorem arguments_exact (passes : PassesBlanks implies) (rest : List Char) (args : List PlacedArg)
    (some : args ≠ []) (exact : ∀ arg ∈ args, arg.Exact implies) (fuel : Nat) (acc : List Expr)
    (pos : Nat) (aligned : Aligned pos args)
    (enough : (skipWs ⟨pos, placedText args ++ (")".toList ++ rest)⟩).rest.length < fuel) :
    arguments implies fuel acc ⟨pos, placedText args ++ (")".toList ++ rest)⟩ =
      .ok (acc ++ args.map PlacedArg.expr, ⟨pos + (placedText args).length + 1, rest⟩) := by
  induction args generalizing fuel acc pos with
  | nil => exact absurd rfl some
  | cons arg later inductionHypothesis =>
    obtain ⟨fuel, rfl⟩ := Nat.exists_eq_add_one.2 (Nat.zero_lt_of_lt enough)
    have own := exact arg (List.mem_cons_self ..)
    have place : arg.place = pos + arg.gap.length := aligned.1
    cases later with
    | nil =>
      have read := own.exact.before ")" (by decide) (by simp; decide) rest rfl
      rw [place, ← passes.gap pos own.blank (own.visible.append _ own.some)] at read
      have close := eat_here ")" (by decide) (pos + arg.gap.length + arg.text.length) rest
      simp only [placedText, List.append_assoc, List.length_append, ← Nat.add_assoc] at read ⊢
      simp only [arguments, read, bind, Except.bind, eat_skipWs, close, List.map]
      rfl
    | cons next later =>
      have read := own.exact.before "," (by decide) (by simp; decide)
        (placedText (next :: later) ++ (")".toList ++ rest)) rfl
      rw [place, ← passes.gap pos own.blank (own.visible.append _ own.some)] at read
      have shape : placedText (arg :: next :: later) =
          arg.gap ++ (arg.text ++ (",".toList ++ placedText (next :: later))) := rfl
      have noClose := eat_elsewhere "," ")" (by decide) (pos + arg.gap.length + arg.text.length)
        (placedText (next :: later) ++ (")".toList ++ rest)) (by simp)
      have comma := eat_here "," (by decide) (pos + arg.gap.length + arg.text.length)
        (placedText (next :: later) ++ (")".toList ++ rest))
      have further := inductionHypothesis (by simp)
        (fun other member => exact other (List.mem_cons_of_mem _ member)) fuel (acc ++ [arg.expr])
        (pos + arg.gap.length + arg.text.length + 1)
        (by
          have onward := aligned.2
          rw [place] at onward
          exact onward)
        (Nat.lt_of_le_of_lt (skip_length isAsciiWhitespace _) (by
          have shown : skipWs ⟨pos, arg.gap ++ (arg.text ++ (",".toList ++
              (placedText (next :: later) ++ (")".toList ++ rest))))⟩ = _ :=
            skip_gap isAsciiWhitespace pos own.blank (own.visible.append _ own.some)
          rw [shape] at enough
          simp only [List.append_assoc] at enough
          rw [shown] at enough
          simp only [List.length_append] at enough ⊢
          have separator : ",".toList.length = 1 := rfl
          omega))
      rw [shape]
      simp only [List.append_assoc, List.length_append, ← Nat.add_assoc]
      simp only [arguments, read, bind, Except.bind, eat_skipWs, noClose, comma]
      refine further.trans ?_
      simp [Nat.add_assoc]

/-- No argument text begins with a closing parenthesis. -/
theorem placedText_begins {arg : PlacedArg} (later : List PlacedArg) (blank : Gap arg.gap)
    (begins : ∃ c more, arg.text = c :: more ∧ startsExpr c = true) (rest : List Char) :
    Begins (placedText (arg :: later) ++ rest) := by
  obtain ⟨c, more, shape, starts⟩ := begins
  cases later with
  | nil => exact ⟨arg.gap, c, more ++ rest, by simp [placedText, shape], blank, starts⟩
  | cons next later =>
    exact ⟨arg.gap, c, more ++ ',' :: placedText (next :: later) ++ rest,
      by simp [placedText, shape], blank, starts⟩

/-- The arguments of a call, which may be none. -/
theorem callArguments_exact (passes : PassesBlanks implies) {gap : List Char} (blank : Gap gap)
    (rest : List Char) (args : List PlacedArg) (closes : args ≠ [] → gap = [])
    (exact : ∀ arg ∈ args, arg.Exact implies)
    (begins : ∀ arg ∈ args, ∃ c more, arg.text = c :: more ∧ startsExpr c = true) (pos : Nat)
    (aligned : Aligned pos args) :
    callArguments implies ⟨pos, placedText args ++ (gap ++ (")".toList ++ rest))⟩ =
      .ok (args.map PlacedArg.expr,
        ⟨pos + (placedText args).length + gap.length + 1, rest⟩) := by
  cases args with
  | nil =>
    have close := eat_token ")" (by decide) pos blank rest
    simp only [placedText, List.nil_append, callArguments, eat_skipWs, close, List.length_nil,
      Nat.add_zero, List.map]
    rfl
  | cons arg later =>
    obtain rfl := closes (by simp)
    have read := arguments_exact passes rest (arg :: later) (by simp) exact _ [] pos aligned
      (Nat.lt_succ_self _)
    have first := begins arg (List.mem_cons_self ..)
    have noClose : eat ")" ⟨pos, placedText (arg :: later) ++ (")".toList ++ rest)⟩ =
        (false, skipWs ⟨pos, placedText (arg :: later) ++ (")".toList ++ rest)⟩) := by
      have other := (placedText_begins later (exact arg (List.mem_cons_self ..)).blank
        first []).other ")" rfl (by decide) pos (")".toList ++ rest)
      rw [List.append_nil] at other
      exact eat_miss isAsciiWhitespace _ other
    simp only [callArguments, List.nil_append, eat_skipWs, noClose, List.length_nil, Nat.add_zero]
    rw [arguments_skip passes, read, List.nil_append]

/-- A call. -/
theorem call_exact (passes : PassesBlanks implies) {place : Nat} {callee gap gap' : List Char}
    {e : Expr} {args : List PlacedArg} (blanks : Gap gap ∧ Gap gap')
    (closes : args ≠ [] → gap' = [])
    (aligned : Aligned (place + callee.length + gap.length + 1) args)
    (each : ∀ arg ∈ args, arg.Exact implies)
    (begins : ∀ arg ∈ args, ∃ c more, arg.text = c :: more ∧ startsExpr c = true)
    (exact : Exact implies place callee e 7) :
    Exact implies place (callee ++ (gap ++ ('(' :: (placedText args ++ (gap' ++ [')'])))))
      (.call e (args.map PlacedArg.expr) (spanOver e place
        (callee ++ (gap ++ ('(' :: (placedText args ++ (gap' ++ [')']))))))) 7 := by
  refine @ExactPostfix.extend implies place callee gap (placedText args ++ (gap' ++ [')'])) "(" e _
    blanks.1 (by decide) (by simp; decide) exact ?_
  intro fuel rest _
  have read := callArguments_exact passes blanks.2 rest args closes each begins
    (place + callee.length + gap.length + 1) aligned
  have noDot := eat_elsewhere "(" "." (by decide) (place + callee.length + gap.length)
    (placedText args ++ (gap' ++ (")".toList ++ rest))) (by simp)
  have paren := eat_here "(" (by decide) (place + callee.length + gap.length)
    (placedText args ++ (gap' ++ (")".toList ++ rest)))
  have here := skipWs_token "(" (by decide) (place + callee.length + gap.length) gap_nil
    (placedText args ++ (gap' ++ (")".toList ++ rest)))
  simp only [List.nil_append, List.length_nil, Nat.add_zero] at here
  have whole : Passes ⟨place, callee ++ (gap ++ ('(' :: (placedText args ++ (gap' ++ [')'])))) ++ rest⟩
      (callee ++ (gap ++ ('(' :: (placedText args ++ (gap' ++ [')'])))))
      ⟨place + callee.length + gap.length + 1 + (placedText args).length + gap'.length + 1, rest⟩ :=
    ⟨rfl, by
      simp only [List.length_append, List.length_cons, List.length_nil]
      omega⟩
  have shape : placedText args ++ (gap' ++ [')']) ++ rest =
      placedText args ++ (gap' ++ (")".toList ++ rest)) := by simp
  have finish : place + callee.length + gap.length + "(".toList.length +
      (placedText args ++ (gap' ++ [')'])).length =
      place + callee.length + gap.length + 1 + (placedText args).length + gap'.length + 1 := by
    simp only [List.length_append, List.length_cons, List.length_nil]
    change place + callee.length + gap.length + 1 + _ = _
    omega
  rw [← spanFrom_here whole, shape, finish, postfixLoop]
  simp only [here, noDot, paren]
  change ((callArguments implies ⟨place + callee.length + gap.length + 1, _⟩).bind (fun read =>
    postfixLoop implies fuel (.call e read.1 (spanFrom (leftStart e) read.2)) read.2)) = _
  rw [read]
  rfl

/-! ## Indices -/

theorem parseRangeOrExpr_passesBlanks : PassesBlanks (parseRangeOrExpr implies) := by
  intro cursor
  simp only [parseRangeOrExpr, skipWs_idem]

theorem plain_exact {place : Nat} {text : List Char} {e : Expr}
    (visible : Stops isAsciiWhitespace text) (some : text ≠ [])
    (exact : ExactClosed implies place text e) : Exact implies place text e 9 := by
  intro rest separate stops closing single
  have here : skipWs ⟨place, text ++ rest⟩ = ⟨place, text ++ rest⟩ :=
    skipWs_here (visible.append rest some)
  have noDots : eat ".." ⟨place + text.length, rest⟩ = (false, ⟨place + text.length, rest⟩) := by
    refine eat_other ".." (skipWs_here stops) ?_
    rintro ⟨more, rfl⟩
    exact single rfl
  simp only [parseRangeOrExpr, here, exact rest separate stops closing, bind, Except.bind,
    eat_skipWs, noDots]

theorem range_exact (passes : PassesBlanks implies) {place : Nat} {start gap stop : List Char}
    {lo hi : Expr} (blank : Gap gap) (visible : Stops isAsciiWhitespace start) (some : start ≠ [])
    (visibleStop : Stops isAsciiWhitespace stop) (someStop : stop ≠ [])
    (startExact : ExactClosed implies place start lo)
    (stopExact : ExactClosed implies (place + start.length + 2 + gap.length) stop hi) :
    Exact implies place (start ++ ('.' :: '.' :: (gap ++ stop)))
      (.range lo hi (spanAt place (start ++ ('.' :: '.' :: (gap ++ stop))))) 9 := by
  intro rest separate stops closing _
  have shape : start ++ ('.' :: '.' :: (gap ++ stop)) ++ rest =
      start ++ ("..".toList ++ (gap ++ (stop ++ rest))) := by simp
  have here : skipWs ⟨place, start ++ ("..".toList ++ (gap ++ (stop ++ rest)))⟩ =
      ⟨place, start ++ ("..".toList ++ (gap ++ (stop ++ rest)))⟩ :=
    skipWs_here (visible.append _ some)
  have low := startExact.before ".." (by decide) (by simp; decide)
    (gap ++ (stop ++ rest)) rfl
  have dots : eat ".." ⟨place + start.length, "..".toList ++ (gap ++ (stop ++ rest))⟩ =
      (true, ⟨place + start.length + 2, gap ++ (stop ++ rest)⟩) :=
    eat_here ".." (by decide) (place + start.length) (gap ++ (stop ++ rest))
  have ends : Separate stop rest := by
    rw [show start ++ ('.' :: '.' :: (gap ++ stop)) =
      (start ++ ('.' :: '.' :: gap)) ++ stop by simp] at separate
    exact separate.last someStop
  have high := stopExact rest ends stops closing
  rw [← passes.gap _ blank (visibleStop.append rest someStop)] at high
  have length : place + (start ++ ('.' :: '.' :: (gap ++ stop))).length =
      place + start.length + 2 + gap.length + stop.length := by
    simp only [List.length_append, List.length_cons]
    omega
  rw [shape, spanAt, length]
  simp only [parseRangeOrExpr, here, low, bind, Except.bind, eat_skipWs, dots, high, spanFrom]

/-- An index. -/
theorem index_exact {place : Nat} {base gap gap' position : List Char} {e i : Expr}
    (blanks : Gap gap ∧ Gap gap') (visible : Stops isAsciiWhitespace position)
    (some : position ≠ [])
    (inside : Exact implies (place + base.length + gap.length + 1 + gap'.length) position i 9)
    (exact : Exact implies place base e 7) :
    Exact implies place (base ++ (gap ++ ('[' :: (gap' ++ (position ++ [']'])))))
      (.index e i (spanOver e place (base ++ (gap ++ ('[' :: (gap' ++ (position ++ [']']))))))) 7 := by
  refine @ExactPostfix.extend implies place base gap (gap' ++ (position ++ [']'])) "[" e _
    blanks.1 (by decide) (by simp; decide) exact ?_
  intro fuel rest _
  have noDot := eat_elsewhere "[" "." (by decide) (place + base.length + gap.length)
    (gap' ++ (position ++ ("]".toList ++ rest))) (by simp)
  have noParen := eat_elsewhere "[" "(" (by decide) (place + base.length + gap.length)
    (gap' ++ (position ++ ("]".toList ++ rest))) (by simp)
  have bracket : eat "[" ⟨place + base.length + gap.length,
      "[".toList ++ (gap' ++ (position ++ ("]".toList ++ rest)))⟩ =
      (true, ⟨place + base.length + gap.length + 1, gap' ++ (position ++ ("]".toList ++ rest))⟩) :=
    eat_here "[" (by decide) _ _
  have here := skipWs_token "[" (by decide) (place + base.length + gap.length) gap_nil
    (gap' ++ (position ++ ("]".toList ++ rest)))
  simp only [List.nil_append, List.length_nil, Nat.add_zero] at here
  have read := inside ("]".toList ++ rest)
    (separate_token position (by decide) (by simp; decide) rest) (by simp; decide) rfl (by simp)
  rw [← parseRangeOrExpr_passesBlanks.gap _ blanks.2 (visible.append _ some)] at read
  have close := expect_token "]" (by decide)
    (place + base.length + gap.length + 1 + gap'.length + position.length) gap_nil rest
  simp only [List.nil_append, List.length_nil, Nat.add_zero] at close
  have whole : Passes ⟨place, base ++ (gap ++ ('[' :: (gap' ++ (position ++ [']'])))) ++ rest⟩
      (base ++ (gap ++ ('[' :: (gap' ++ (position ++ [']'])))))
      ⟨place + base.length + gap.length + 1 + gap'.length + position.length + "]".toList.length,
        rest⟩ :=
    ⟨rfl, by
      simp only [List.length_append, List.length_cons, List.length_nil]
      change _ + 1 = _
      omega⟩
  have shape : gap' ++ (position ++ [']']) ++ rest =
      gap' ++ (position ++ ("]".toList ++ rest)) := by simp
  have finish : place + base.length + gap.length + "[".toList.length +
      (gap' ++ (position ++ [']'])).length = place + base.length + gap.length + 1 + gap'.length +
        position.length + "]".toList.length := by
    simp only [List.length_append, List.length_cons, List.length_nil]
    change place + base.length + gap.length + 1 + _ = _ + 1
    omega
  rw [← spanFrom_here whole, shape, finish, postfixLoop]
  simp only [here, noDot, noParen, bracket, read, bind, Except.bind, close]

/-! ## Primary expressions -/

/-- No prefix operator begins with another symbol. -/
theorem noPrefixAt_of_first (place : Nat) {c : Char} {more : List Char}
    (visible : isAsciiWhitespace c = false) (other : c ≠ '!' ∧ c ≠ 'n' ∧ c ≠ '-') :
    NoPrefixAt place (c :: more) := by
  intro rest _ lexeme listed
  have here : skipWs ⟨place, c :: more ++ rest⟩ = ⟨place, c :: more ++ rest⟩ :=
    skipWs_here (by rw [List.cons_append, stops_cons]; exact visible)
  simp only [UnaryOp.spellings, List.cons_append, List.nil_append, List.mem_cons,
    List.not_mem_nil, or_false] at listed
  have missed : ¬ lexeme.text.toList <+: (skipWs ⟨place, c :: more ++ rest⟩).rest := by
    rw [here]
    rcases listed with rfl | rfl | rfl
    · simp [Lexeme.text, other.1.symm]
    · simp [Lexeme.text, other.2.1.symm]
    · simp [Lexeme.text, other.2.2.symm]
  rw [lexeme_miss lexeme _ missed, here]

/-- An expression in parentheses. -/
theorem paren_exact (passes : PassesBlanks implies) {place : Nat} {gap inner : List Char} {e : Expr}
    (blank : Gap gap) (visible : Stops isAsciiWhitespace inner) (some : inner ≠ [])
    (exact : ExactClosed implies (place + 1 + gap.length) inner e) :
    Exact implies place ('(' :: (gap ++ (inner ++ [')']))) e 8 := by
  have shape : ∀ rest, '(' :: (gap ++ (inner ++ [')'])) ++ rest =
      "(".toList ++ (gap ++ (inner ++ (")".toList ++ rest))) := fun rest => by simp
  constructor
  · intro rest _
    have here := skipWs_token "(" (by decide) place gap_nil (gap ++ (inner ++ (")".toList ++ rest)))
    simp only [List.nil_append, List.length_nil, Nat.add_zero] at here
    have opened : eat "(" ⟨place, "(".toList ++ (gap ++ (inner ++ (")".toList ++ rest)))⟩ =
        (true, ⟨place + 1, gap ++ (inner ++ (")".toList ++ rest))⟩) :=
      eat_here "(" (by decide) _ _
    have read := exact.before ")" (by decide) (by simp; decide) rest rfl
    rw [← passes.gap _ blank (visible.append _ some)] at read
    have close := expect_token ")" (by decide) (place + 1 + gap.length + inner.length) gap_nil rest
    simp only [List.nil_append, List.length_nil, Nat.add_zero] at close
    have finish : place + ('(' :: (gap ++ (inner ++ [')']))).length =
        place + 1 + gap.length + inner.length + ")".toList.length := by
      simp only [List.length_append, List.length_cons, List.length_nil]
      change _ = _ + 1
      omega
    rw [shape, finish]
    simp only [parsePrimary, here, opened, read, bind, Except.bind, close]
  · exact noPrefixAt_of_first place (by decide) (by decide)

/-- An identifier that is no keyword. -/
theorem ident_exact {place : Nat} {name : List Char} (isName : IsName name)
    (free : String.ofList name ∉ keywords) :
    Exact implies place name (.ident (String.ofList name) (spanAt place name)) 8 := by
  have unlike : ∀ word ∈ keywords, name ≠ word.toList := by
    rintro word listed rfl
    exact free (by simpa using listed)
  obtain ⟨c, first, starts⟩ := isName.1
  have symbols : c ≠ '(' ∧ c ≠ '!' ∧ c ≠ '-' := by
    refine ⟨?_, ?_, ?_⟩ <;> rintro rfl <;> exact absurd starts (by decide)
  have here : ∀ rest, skipWs ⟨place, name ++ rest⟩ = ⟨place, name ++ rest⟩ := fun rest =>
    skipWs_here (isName.stops_blank.append rest isName.nonempty)
  have noWord : ∀ rest, Stops inName rest → ∀ word ∈ keywords,
      word.toList.all inName = true →
      (Lexeme.word word).eat ⟨place, name ++ rest⟩ = (false, ⟨place, name ++ rest⟩) := by
    intro rest ends word listed inside
    have missed := word_other isName ends word inside (unlike word listed) place gap_nil
    simpa only [List.nil_append, List.length_nil, Nat.add_zero] using missed
  constructor
  · intro rest separate
    have ends := separate.stops_of_word isName.2 isName.letter
    have noParen := eat_other "(" (here rest) (not_paren first symbols.1)
    have noTrue := noWord rest ends "true" (by decide) (by decide)
    have noFalse := noWord rest ends "false" (by decide) (by decide)
    have read := parseIdentRaw_name place gap_nil isName ends
    have noDigit : (name ++ rest).head?.any isAsciiDigit = false := by
      rw [List.head?_append, first]
      exact not_digit_of_startsName starts
    have letter : (name ++ rest).head?.any startsName = true := by
      rw [List.head?_append, first]
      exact starts
    simp only [List.nil_append, List.length_nil, Nat.add_zero] at read
    simp only [parsePrimary, here, noParen, noTrue, noFalse, noDigit, letter, read, bind,
      Except.bind, Bool.false_eq_true, if_false, if_true, spanAt, spanFrom]
  · intro rest separate lexeme listed
    have ends := separate.stops_of_word isName.2 isName.letter
    obtain ⟨more, rfl⟩ := List.head?_eq_some_iff.1 first
    simp only [UnaryOp.spellings, List.cons_append, List.nil_append, List.mem_cons,
      List.not_mem_nil, or_false] at listed
    rcases listed with rfl | rfl | rfl
    · rw [lexeme_miss _ _ (by rw [here]; simp [Lexeme.text, symbols.2.1.symm]), here]
    · exact noWord rest ends "not" (by decide) (by decide)
    · rw [lexeme_miss _ _ (by rw [here]; simp [Lexeme.text, symbols.2.2.symm]), here]

/-- An integer literal. -/
theorem int_exact {place : Nat} {digits : List Char} {value : Int64} {number : Nat}
    (numeral : Numeral digits number) (same : value.toInt = number) :
    Exact implies place digits (.int value (spanAt place digits)) 8 := by
  obtain ⟨c, more, shape⟩ := List.exists_cons_of_ne_nil numeral.nonempty
  have digit : isAsciiDigit c = true := numeral.1 c (by rw [shape]; exact List.mem_cons_self ..)
  have unlike : ∀ d : Char, isAsciiDigit d = false → d ≠ c := by
    rintro d other rfl
    rw [digit] at other
    cases other
  have first : digits.head? = some c := by rw [shape]; rfl
  constructor
  · intro rest separate
    have ends := separate.stops_of_digits numeral.1 numeral.nonempty
    have here : skipWs ⟨place, digits ++ rest⟩ = ⟨place, digits ++ rest⟩ :=
      skipWs_here (numeral.stops_blank.append rest numeral.nonempty)
    have noParen := eat_other "(" here (not_paren first (unlike '(' (by decide)).symm)
    have noTrue := lexeme_miss (.word "true") ⟨place, digits ++ rest⟩
      (by rw [here, shape]; simp [Lexeme.text, unlike 't' (by decide)])
    have noFalse := lexeme_miss (.word "false") ⟨place, digits ++ rest⟩
      (by rw [here, shape]; simp [Lexeme.text, unlike 'f' (by decide)])
    have isDigit : (digits ++ rest).head?.any isAsciiDigit = true := by
      rw [List.head?_append, first]
      exact digit
    have taken := span_run isAsciiDigit place numeral.1 ends
    rw [here] at noTrue noFalse
    simp only [parsePrimary, here, noParen, noTrue, noFalse, isDigit, if_true, parseIntLiteral,
      taken, parse_i64_digits numeral same, bind, Except.bind, spanAt, spanFrom]
  · rw [shape]
    exact noPrefixAt_of_first place (not_blank_of_digit digit)
      ⟨(unlike '!' (by decide)).symm, (unlike 'n' (by decide)).symm, (unlike '-' (by decide)).symm⟩

/-- A boolean literal. -/
theorem bool_exact (place : Nat) (value : Bool) :
    Exact implies place (boolWord value).toList
      (.bool value (spanAt place (boolWord value).toList)) 8 := by
  have proper : (Lexeme.word (boolWord value)).Proper := by
    cases value <;> exact ⟨by decide, by decide⟩
  constructor
  · intro rest separate
    have ends : Stops inName rest := separate.stops_of_word
      (List.all_eq_true.1 proper.2) (by cases value <;> exact ⟨_, rfl, by decide⟩)
    have here := skipWs_token (boolWord value) proper.1 place gap_nil rest
    have noParen := eat_elsewhere (boolWord value) "(" proper.1 place rest
      (by cases value <;> simp [boolWord])
    have found := lexeme_hit (.word (boolWord value)) proper place gap_nil (apart_of_stops ends)
    simp only [List.nil_append, List.length_nil, Nat.add_zero, Lexeme.text] at found here
    cases value with
    | true =>
      have eaten : (Lexeme.word "true").eat _ = _ := found
      simp only [parsePrimary, here, noParen, eaten, spanAt, spanFrom]
    | false =>
      have noTrue := lexeme_miss (.word "true") ⟨place, (boolWord false).toList ++ rest⟩
        (by rw [here]; simp [Lexeme.text, boolWord])
      have eaten : (Lexeme.word "false").eat _ = _ := found
      rw [here] at noTrue
      simp only [parsePrimary, here, noParen, noTrue, eaten, spanAt, spanFrom]
  · cases value <;> exact noPrefixAt_of_first place (by decide) (by decide)

end Forms

/-! ## All readings -/

theorem closed_of_exact {place : Nat} {text : List Char} {e : Expr} (fuel : Nat)
    (exact : ∀ less, text.length + 0 / 9 ≤ less → Exact (parseImplies less) place text e 0)
    (enough : text.length < fuel) : ExactClosed (parseImplies fuel) place text e := by
  obtain ⟨less, rfl⟩ := Nat.exists_eq_add_one.2 (Nat.zero_lt_of_lt enough)
  intro rest separate stops closing
  have binary : ExactBinary (parseImplies less) 0 place text e := exact less (by omega)
  exact binary.ends (by decide) rest separate stops (by omega)

theorem placed_length {args : List PlacedArg} {arg : PlacedArg} (member : arg ∈ args) :
    arg.text.length ≤ (placedText args).length := by
  induction args with
  | nil => cases member
  | cons head rest inductionHypothesis =>
    cases rest with
    | nil =>
      rw [List.mem_singleton] at member
      subst member
      simp [placedText]
    | cons next rest =>
      simp only [placedText, List.length_append, List.length_cons]
      rcases List.mem_cons.1 member with rfl | later
      · omega
      · have shorter := inductionHypothesis later
        omega

theorem ReadsAs.visible {strict : Prop} {level place : Nat} {text : List Char} {e : Expr}
    (reads : ReadsAs strict level place text e) : Stops isAsciiWhitespace text := by
  have stops := reads.stops []
  rwa [List.append_nil] at stops

/-- Every reading is what the parser of its level makes of the text.

Proof: by induction on the reading. A text in parentheses, brackets or an argument
list is shorter than the text around it, so the fuel left suffices; what an index
holds is a level of its own and takes one more. -/
theorem ReadsAs.exact {strict : Prop} {level place : Nat} {text : List Char} {e : Expr}
    (reads : ReadsAs strict level place text e) (fuel : Nat)
    (enough : text.length + level / 9 ≤ fuel) :
    Exact (parseImplies fuel) place text e level := by
  induction reads generalizing fuel with
  | ident isName free => exact ident_exact isName free
  | int numeral same => exact int_exact numeral same
  | bool place value => exact bool_exact place value
  | paren blank reads inductionHypothesis =>
    simp only [List.length_append, List.length_cons] at enough
    exact paren_exact (parseImplies_passesBlanks fuel) blank reads.visible reads.nonempty
      (closed_of_exact fuel inductionHypothesis (by omega))
  | primary reads inductionHypothesis =>
    have exact := inductionHypothesis fuel enough
    refine ⟨fun rest separate => ⟨rest.length + 1, Nat.lt_succ_self _, ?_⟩, exact.2⟩
    simp only [parsePostfix, exact.1 rest separate, bind, Except.bind]
  | member blanks isName _ inductionHypothesis =>
    simp only [List.length_append] at enough
    exact member_exact blanks isName (inductionHypothesis fuel (by omega))
  | @call place callee gap gap' e args blanks gaps closes aligned _ each _ calleeHypothesis
      argHypothesis =>
    simp only [List.length_append, List.length_cons] at enough
    have ready : ∀ arg ∈ args, arg.Exact (parseImplies fuel) := fun arg member =>
      ⟨gaps arg member, (each arg member).visible, (each arg member).nonempty,
        closed_of_exact fuel (argHypothesis arg member) (by
          have shorter := placed_length member
          omega)⟩
    exact call_exact (parseImplies_passesBlanks fuel) blanks closes aligned ready
      (fun arg member => (each arg member).begins) (calleeHypothesis fuel (by omega))
  | index blanks _ inside _ baseHypothesis insideHypothesis =>
    simp only [List.length_append, List.length_cons] at enough
    exact index_exact blanks inside.visible inside.nonempty (insideHypothesis fuel (by omega))
      (baseHypothesis fuel (by omega))
  | close blank reads inductionHypothesis =>
    simp only [List.length_append] at enough
    exact close_exact blank reads.visible reads.nonempty (inductionHypothesis fuel (by omega))
  | unary spelled blank apart reads inductionHypothesis =>
    simp only [List.length_append] at enough
    exact unary_exact spelled blank apart reads.visible reads.nonempty
      (inductionHypothesis fuel (by omega))
  | raise binary reads inductionHypothesis =>
    have exact := inductionHypothesis fuel (by omega)
    exact (exact.ends (by omega) reads.visible reads.nonempty).raise binary
  | @binary level place op lexeme left gap right e f listed blank apartLeft apartRight leftReads
      rightReads _ leftHypothesis rightHypothesis =>
    simp only [List.length_append] at enough
    have small : level < 6 := by
      obtain ⟨rfl, _⟩ := listed_spelled listed
      cases op <;> decide
    have leftExact := leftHypothesis fuel (by omega)
    rw [exact_binary _ _ _ small] at leftExact ⊢
    have rightExact := rightHypothesis fuel (by omega)
    exact binary_exact listed blank apartLeft apartRight rightReads.begins leftExact
      (rightExact.ends (by omega) rightReads.visible rightReads.nonempty)
  | plain reads inductionHypothesis =>
    exact plain_exact reads.visible reads.nonempty
      (closed_of_exact fuel inductionHypothesis (by omega))
  | range blank startReads stopReads startHypothesis stopHypothesis =>
    simp only [List.length_append, List.length_cons] at enough
    exact range_exact (parseImplies_passesBlanks fuel) blank startReads.visible
      startReads.nonempty stopReads.visible stopReads.nonempty
      (closed_of_exact fuel startHypothesis (by omega))
      (closed_of_exact fuel stopHypothesis (by omega))

/-- The expression an input reads as is the one the parser returns. -/
theorem reads_parse {strict : Prop} {input : String} {e : Expr}
    (reads : ReadsWhole strict input e) : Expr.parse input = .ok e := by
  obtain ⟨gap, text, shape, blank, reads⟩ := reads
  have total := congrArg List.length shape
  rw [List.length_append] at total
  have closed : ExactClosed (parseImplies (input.toList.length + 1)) gap.length text e :=
    closed_of_exact _ reads.exact (by omega)
  have read := closed [] (.of_stops (stops_nil _)) (stops_nil _) rfl
  rw [List.append_nil] at read
  have passed := (parseImplies_passesBlanks (input.toList.length + 1)).gap 0 blank reads.visible
  rw [Nat.zero_add, read, ← shape] at passed
  have here : skipWs ⟨gap.length + text.length, []⟩ = ⟨gap.length + text.length, []⟩ :=
    skipWs_here (stops_nil isAsciiWhitespace)
  simp only [Expr.parse, passed, bind, Except.bind, here, ne_eq, not_true_eq_false, if_false]

/-- The parser accepts what reads as an expression, and returns that expression. -/
theorem parse_iff_reads (input : String) (tree : Expr) :
    Expr.parse input = .ok tree ↔ ReadsWhole False input tree :=
  ⟨parse_reads, reads_parse⟩

end Semasm.Contract
