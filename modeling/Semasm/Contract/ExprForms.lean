import Semasm.Contract.ExprLevels

/-!
# Reading postfix forms and primary expressions

Postfix forms extend the expression read so far, and primary expressions are read
to their last symbol. Arguments, indices and parentheses hold expressions of the
loosest level, which are read where a closing token follows.
-/

namespace Semasm.Contract

open Library.Scanning ExprParser

section Forms

variable {implies : Parser Expr}

/-- The parser reads the text as the expression where a closing token follows. -/
def ReadsInside (implies : Parser Expr) (text : List Char) (expr : Expr) : Prop :=
  ∀ (pos : Nat) (rest : List Char), follows rest = 0 → Apart text rest →
    ∃ got : Expr, got.erase = expr.erase ∧
      implies ⟨pos, text ++ rest⟩ = .ok (got, skipWs ⟨pos + text.length, rest⟩)

theorem eat_skipWs (token : String) (cursor : Cursor Char) :
    eat token (skipWs cursor) = eat token cursor := eat_skip isAsciiWhitespace cursor

theorem expect_skipWs (token : String) (cursor : Cursor Char) :
    expect token (skipWs cursor) = expect token cursor := by
  simp only [expect, eat_skipWs]

/-- A gap before a token is passed. -/
theorem skipWs_token (token : String) (isToken : IsToken token) (pos : Nat) {gap : List Char}
    (blank : Gap gap) (rest : List Char) :
    skipWs ⟨pos, gap ++ (token.toList ++ rest)⟩ = ⟨pos + gap.length, token.toList ++ rest⟩ :=
  skip_gap isAsciiWhitespace pos blank (isToken.stops.append rest isToken.nonempty)

theorem parseIdentRaw_name (pos : Nat) {gap name rest : List Char} (blank : Gap gap)
    (isName : IsName name) (ends : Stops inName rest) :
    parseIdentRaw ⟨pos, gap ++ (name ++ rest)⟩ =
      .ok (String.ofList name, ⟨pos + gap.length + name.length, rest⟩) := by
  have skipped := skip_gap isAsciiWhitespace pos blank
    (isName.stops_blank.append rest isName.nonempty)
  have taken := span_run inName (pos + gap.length) isName.2 ends
  have starts : (name ++ rest).head?.any startsName = true := by
    obtain ⟨⟨c, first, starts⟩, _⟩ := isName
    rw [List.head?_append, first]
    exact starts
  simp only [parseIdentRaw, skipWs, skipped, starts, if_true, taken]

/-! ## Postfix forms -/

/-- A postfix form: a token that no word runs into, and what the loop makes of it. -/
theorem ReadsPostfix.extend {base gap inner : List Char} {token : String} {e target : Expr}
    (blank : Gap gap) (isToken : IsToken token) (symbol : Stops inName token.toList)
    (reads : ReadsPostfix implies base e)
    (step : ∀ (got : Expr) (pos fuel : Nat) (rest : List Char), got.erase = e.erase →
      Apart (gap ++ (token.toList ++ inner)) rest →
      ∃ got' : Expr, got'.erase = target.erase ∧
        postfixLoop implies (fuel + 1) got ⟨pos, gap ++ (token.toList ++ (inner ++ rest))⟩ =
          postfixLoop implies fuel got'
            ⟨pos + gap.length + token.toList.length + inner.length, rest⟩) :
    ReadsPostfix implies (base ++ (gap ++ (token.toList ++ inner))) target := by
  intro pos rest apart
  obtain ⟨got, fuel, same, enough, read⟩ := reads pos (gap ++ (token.toList ++ (inner ++ rest)))
    (apart_symbol base blank isToken _ symbol)
  rw [skipWs_token token isToken _ blank] at enough
  obtain ⟨fuel, rfl⟩ := Nat.exists_eq_add_one.2 (Nat.zero_lt_of_lt enough)
  obtain ⟨got', same', stepped⟩ := step got (pos + base.length) fuel rest same apart.last
  have visible := List.length_pos_iff.2 isToken.nonempty
  have shorter := skip_length isAsciiWhitespace
    ⟨pos + base.length + gap.length + token.toList.length + inner.length, rest⟩
  dsimp only at shorter
  simp only [List.length_append] at enough
  have place : pos + (base ++ (gap ++ (token.toList ++ inner))).length =
      pos + base.length + gap.length + token.toList.length + inner.length := by
    simp only [List.length_append, Nat.add_assoc]
  refine ⟨got', fuel, same', ?_, ?_⟩
  · rw [place]
    exact Nat.lt_of_le_of_lt shorter (by omega)
  · rw [place, postfixLoop_skip, ← stepped, ← postfixLoop_skip]
    simp only [List.append_assoc]
    exact read

/-- A postfix form puts no prefix operator before its base. -/
theorem NoPrefix.extend {base gap inner : List Char} {token : String} (blank : Gap gap)
    (isToken : IsToken token) (symbol : Stops inName token.toList) (noPrefix : NoPrefix base) :
    NoPrefix (base ++ (gap ++ (token.toList ++ inner))) := by
  intro pos rest _ lexeme listed
  have missed := noPrefix pos (gap ++ (token.toList ++ (inner ++ rest)))
    (apart_symbol base blank isToken _ symbol) lexeme listed
  simpa only [List.append_assoc] using missed

/-- A member access. -/
theorem member_reads {base gap gap' field : List Char} {e : Expr} (span : SourceSpan)
    (blanks : Gap gap ∧ Gap gap') (isName : IsName field) (reads : ReadsPostfix implies base e) :
    ReadsPostfix implies (base ++ (gap ++ (".".toList ++ (gap' ++ field))))
      (.member e (String.ofList field) span) := by
  refine reads.extend blanks.1 (by decide) (by simp; decide) ?_
  intro got pos fuel rest same apart
  have ends : Stops inName rest :=
    (apart.last.last.last).stops_of_word isName.2 isName.nonempty
  have dot := eat_token "." (by decide) (pos + gap.length) gap_nil (gap' ++ (field ++ rest))
  have name := parseIdentRaw_name (pos + gap.length + ".".toList.length) blanks.2 isName ends
  have single : (gap' ++ (field ++ rest)).head? ≠ some '.' := by
    intro first
    cases gap' with
    | nil =>
      obtain ⟨c, more, rfl⟩ := List.exists_cons_of_ne_nil isName.nonempty
      have inside := isName.2 c (List.mem_cons_self ..)
      obtain rfl : c = '.' := by simpa using first
      exact absurd inside (by decide)
    | cons c gap' =>
      have white := blanks.2 c (List.mem_cons_self ..)
      obtain rfl : c = '.' := by simpa using first
      exact absurd white (by decide)
  simp only [List.nil_append, List.length_nil, Nat.add_zero] at dot
  refine ⟨.member got (String.ofList field) (spanFrom (pos + gap.length + ".".toList.length)
    ⟨pos + gap.length + ".".toList.length + gap'.length + field.length, rest⟩),
    by simp only [Expr.erase, same], ?_⟩
  simp only [List.append_assoc, List.length_append, ← Nat.add_assoc]
  rw [postfixLoop]
  simp only [skipWs_token "." (by decide) pos blanks.1, dot, if_neg single, name, bind,
    Except.bind]

/-- At a token, the tokens tried before it are not eaten, and it is. -/
theorem eat_here (token : String) (isToken : IsToken token) (pos : Nat) (rest : List Char) :
    eat token ⟨pos, token.toList ++ rest⟩ = (true, ⟨pos + token.toList.length, rest⟩) := by
  have found := eat_token token isToken pos gap_nil rest
  simpa only [List.nil_append, List.length_nil, Nat.add_zero] using found

theorem eat_elsewhere (token other : String) (isToken : IsToken token) (pos : Nat)
    (rest : List Char) (differs : ¬ other.toList <+: token.toList ++ rest) :
    eat other ⟨pos, token.toList ++ rest⟩ = (false, ⟨pos, token.toList ++ rest⟩) := by
  refine eat_other other ?_ differs
  have skipped := skipWs_token token isToken pos gap_nil rest
  simpa only [List.nil_append, List.length_nil, Nat.add_zero] using skipped

/-- Passing blanks first changes nothing about the arguments. -/
theorem arguments_skip (passes : PassesBlanks implies) (fuel : Nat) (acc : List Expr)
    (cursor : Cursor Char) :
    arguments implies fuel acc (skipWs cursor) = arguments implies fuel acc cursor := by
  cases fuel with
  | zero => rfl
  | succ fuel => simp only [arguments, passes cursor]

/-- What a printed argument needs for the loop over the arguments. -/
structure PrintedArg.Readable (implies : Parser Expr) (arg : PrintedArg) : Prop where
  blank : Gap arg.gap
  begins : Begins arg.text
  reads : ReadsInside implies arg.text arg.expr

/-- The arguments of a call are read one after the other, up to the parenthesis.

Proof: by induction on the arguments, the fuel bounding what is shown of them. -/
theorem arguments_read {gap' : List Char} (blank : Gap gap')
    (rest : List Char) (args : List PrintedArg) (some : args ≠ [])
    (readable : ∀ arg ∈ args, arg.Readable implies) (fuel : Nat) (acc : List Expr) (pos : Nat)
    (enough : (skipWs ⟨pos, argumentsText args ++ (gap' ++ (")".toList ++ rest))⟩).rest.length <
      fuel) :
    ∃ gots : List Expr, eraseAll gots = eraseAll (args.map PrintedArg.expr) ∧
      arguments implies fuel acc ⟨pos, argumentsText args ++ (gap' ++ (")".toList ++ rest))⟩ =
        .ok (acc ++ gots,
          ⟨pos + (argumentsText args).length + gap'.length + ")".toList.length, rest⟩) := by
  induction args generalizing fuel acc pos with
  | nil => exact absurd rfl some
  | cons arg later inductionHypothesis =>
    obtain ⟨fuel, rfl⟩ := Nat.exists_eq_add_one.2 (Nat.zero_lt_of_lt enough)
    have own := readable arg (List.mem_cons_self ..)
    cases later with
    | nil =>
      have gaps : Gap (arg.gap ++ gap') := Gap.append own.blank blank
      obtain ⟨got, same, read⟩ := own.reads pos (arg.gap ++ gap' ++ (")".toList ++ rest))
        (follows_gap gaps (by decide) rest) (apart_symbol _ gaps (by decide) rest (by simp; decide))
      have close := eat_token ")" (by decide) (pos + arg.text.length) gaps rest
      refine ⟨[got], by simp only [List.map, eraseAll, same], ?_⟩
      simp only [argumentsText, List.append_assoc] at read close ⊢
      simp only [arguments, read, bind, Except.bind, eat_skipWs, close, List.length_append,
        Nat.add_assoc]
    | cons next later =>
      obtain ⟨got, same, read⟩ := own.reads pos (arg.gap ++ (",".toList ++
          (argumentsText (next :: later) ++ (gap' ++ (")".toList ++ rest)))))
        (follows_gap own.blank (by decide) _)
        (apart_symbol _ own.blank (by decide) _ (by simp; decide))
      have skipped := skipWs_token "," (by decide) (pos + arg.text.length) own.blank
        (argumentsText (next :: later) ++ (gap' ++ (")".toList ++ rest)))
      have noClose := eat_elsewhere "," ")" (by decide)
        (pos + arg.text.length + arg.gap.length)
        (argumentsText (next :: later) ++ (gap' ++ (")".toList ++ rest))) (by simp)
      have comma := eat_here "," (by decide) (pos + arg.text.length + arg.gap.length)
        (argumentsText (next :: later) ++ (gap' ++ (")".toList ++ rest)))
      have shorter := skip_length isAsciiWhitespace
        ⟨pos + arg.text.length + arg.gap.length + ",".toList.length,
          argumentsText (next :: later) ++ (gap' ++ (")".toList ++ rest))⟩
      obtain ⟨gots, sames, reads⟩ := inductionHypothesis (by simp)
        (fun other member => readable other (List.mem_cons_of_mem _ member)) fuel (acc ++ [got])
        (pos + arg.text.length + arg.gap.length + ",".toList.length)
        (Nat.lt_of_le_of_lt shorter (by
          obtain ⟨gap, c, more, shape, white, starts⟩ := own.begins
          have shown := skip_gap isAsciiWhitespace pos white
            ((stops_cons isAsciiWhitespace c (more ++ (arg.gap ++ (",".toList ++
              (argumentsText (next :: later) ++ (gap' ++ (")".toList ++ rest))))))).2
              (startsExpr_visible starts))
          simp only [argumentsText, shape, List.append_assoc, List.cons_append] at enough
          rw [skipWs, shown] at enough
          simp only [List.length_cons, List.length_append] at enough ⊢
          omega))
      refine ⟨got :: gots, by simp only [List.map, eraseAll, same] at sames ⊢; rw [sames], ?_⟩
      simp only [argumentsText, List.append_assoc] at read ⊢
      simp only [arguments, read, bind, Except.bind, skipped, eat_skipWs, noClose, comma]
      rw [reads]
      simp only [List.append_assoc, List.singleton_append, List.length_append, Nat.add_assoc]

/-- The arguments of a call, which may be none. -/
theorem callArguments_read (passes : PassesBlanks implies) {gap' : List Char} (blank : Gap gap')
    (rest : List Char) (args : List PrintedArg) (readable : ∀ arg ∈ args, arg.Readable implies)
    (pos : Nat) :
    ∃ gots : List Expr, eraseAll gots = eraseAll (args.map PrintedArg.expr) ∧
      callArguments implies ⟨pos, argumentsText args ++ (gap' ++ (")".toList ++ rest))⟩ =
        .ok (gots,
          ⟨pos + (argumentsText args).length + gap'.length + ")".toList.length, rest⟩) := by
  cases args with
  | nil =>
    have close := eat_token ")" (by decide) pos blank rest
    exact ⟨[], rfl, by simp only [argumentsText, List.nil_append, callArguments, eat_skipWs, close,
      List.length_nil, Nat.add_zero]⟩
  | cons arg later =>
    have own := readable arg (List.mem_cons_self ..)
    obtain ⟨gots, sames, reads⟩ := arguments_read blank rest (arg :: later) (by simp)
      readable _ [] pos (Nat.lt_succ_self _)
    have begins : Begins (argumentsText (arg :: later)) := by
      cases later with
      | nil => exact own.begins.append _
      | cons next later => exact own.begins.append _
    have noClose : eat ")" ⟨pos, argumentsText (arg :: later) ++ (gap' ++ (")".toList ++ rest))⟩ =
        (false, skipWs ⟨pos, argumentsText (arg :: later) ++ (gap' ++ (")".toList ++ rest))⟩) :=
      eat_miss isAsciiWhitespace _ (begins.other ")" rfl (by decide) pos _)
    refine ⟨gots, sames, ?_⟩
    simp only [callArguments, eat_skipWs, noClose, arguments_skip passes, reads, List.nil_append]

/-- A call. -/
theorem call_reads (passes : PassesBlanks implies) {callee gap gap' : List Char} {e : Expr}
    (span : SourceSpan) (args : List PrintedArg) (blanks : Gap gap ∧ Gap gap')
    (readable : ∀ arg ∈ args, arg.Readable implies) (reads : ReadsPostfix implies callee e) :
    ReadsPostfix implies
      (callee ++ (gap ++ ("(".toList ++ (argumentsText args ++ (gap' ++ ")".toList)))))
      (.call e (args.map PrintedArg.expr) span) := by
  refine reads.extend blanks.1 (by decide) (by simp; decide) ?_
  intro got pos fuel rest same _
  obtain ⟨gots, sames, read⟩ := callArguments_read passes blanks.2 rest args readable
    (pos + gap.length + "(".toList.length)
  have noDot := eat_elsewhere "(" "." (by decide) (pos + gap.length)
    (argumentsText args ++ (gap' ++ (")".toList ++ rest))) (by simp)
  have paren := eat_here "(" (by decide) (pos + gap.length)
    (argumentsText args ++ (gap' ++ (")".toList ++ rest)))
  refine ⟨.call got gots (spanFrom (leftStart got) ⟨pos + gap.length + "(".toList.length +
    (argumentsText args).length + gap'.length + ")".toList.length, rest⟩),
    by simp only [Expr.erase, same, sames], ?_⟩
  simp only [List.append_assoc, List.length_append, ← Nat.add_assoc]
  rw [postfixLoop]
  simp only [skipWs_token "(" (by decide) pos blanks.1, noDot, paren, read, bind,
    Except.bind]

/-- A bracket and what stands in it, read by the postfix loop. -/
theorem index_step {gap inside gap' : List Char} {i : Expr} (blanks : Gap gap ∧ Gap gap')
    (base : Expr) (pos fuel : Nat) (rest : List Char) (position : Expr)
    (same : position.erase = i.erase)
    (read : parseRangeOrExpr implies ⟨pos + gap.length + "[".toList.length,
        inside ++ (gap' ++ ("]".toList ++ rest))⟩ =
      .ok (position, skipWs ⟨pos + gap.length + "[".toList.length + inside.length,
        gap' ++ ("]".toList ++ rest)⟩)) (e : Expr) (sameBase : base.erase = e.erase)
    (span : SourceSpan) :
    ∃ got' : Expr, got'.erase = (Expr.index e i span).erase ∧
      postfixLoop implies (fuel + 1) base
        ⟨pos, gap ++ ("[".toList ++ ((inside ++ (gap' ++ "]".toList)) ++ rest))⟩ =
      postfixLoop implies fuel got' ⟨pos + gap.length + "[".toList.length +
        (inside ++ (gap' ++ "]".toList)).length, rest⟩ := by
  have noDot := eat_elsewhere "[" "." (by decide) (pos + gap.length)
    (inside ++ (gap' ++ ("]".toList ++ rest))) (by simp)
  have noParen := eat_elsewhere "[" "(" (by decide) (pos + gap.length)
    (inside ++ (gap' ++ ("]".toList ++ rest))) (by simp)
  have bracket := eat_here "[" (by decide) (pos + gap.length)
    (inside ++ (gap' ++ ("]".toList ++ rest)))
  have close := expect_token "]" (by decide)
    (pos + gap.length + "[".toList.length + inside.length) blanks.2 rest
  refine ⟨.index base position (spanFrom (leftStart base) ⟨pos + gap.length + "[".toList.length +
    inside.length + gap'.length + "]".toList.length, rest⟩),
    by simp only [Expr.erase, same, sameBase], ?_⟩
  simp only [List.append_assoc, List.length_append, ← Nat.add_assoc]
  rw [postfixLoop]
  simp only [skipWs_token "[" (by decide) pos blanks.1, noDot, noParen, bracket, read,
    bind, Except.bind, expect_skipWs, close]

/-- An index. -/
theorem index_reads (passes : PassesBlanks implies) {base gap position gap' : List Char}
    {e i : Expr} (span : SourceSpan) (blanks : Gap gap ∧ Gap gap')
    (inside : ReadsInside implies position i) (reads : ReadsPostfix implies base e) :
    ReadsPostfix implies (base ++ (gap ++ ("[".toList ++ (position ++ (gap' ++ "]".toList)))))
      (.index e i span) := by
  refine reads.extend blanks.1 (by decide) (by simp; decide) ?_
  intro got pos fuel rest same _
  obtain ⟨found, sameFound, read⟩ := inside (pos + gap.length + "[".toList.length)
    (gap' ++ ("]".toList ++ rest)) (follows_gap blanks.2 (by decide) rest)
    (apart_symbol _ blanks.2 (by decide) rest (by simp; decide))
  refine index_step blanks got pos fuel rest found sameFound ?_ e same span
  have skipped := skipWs_token "]" (by decide)
    (pos + gap.length + "[".toList.length + position.length) blanks.2 rest
  have noDots := eat_elsewhere "]" ".." (by decide)
    (pos + gap.length + "[".toList.length + position.length + gap'.length) rest (by simp)
  simp only [parseRangeOrExpr, passes _, read, bind, Except.bind, skipped, eat_skipWs, noDots]

/-- A range in an index. -/
theorem indexRange_reads (passes : PassesBlanks implies)
    {base gap start dots stop gap' : List Char} {e lo hi : Expr} (span inner : SourceSpan)
    (blanks : Gap gap ∧ Gap dots ∧ Gap gap') (startReads : ReadsInside implies start lo)
    (stopReads : ReadsInside implies stop hi) (reads : ReadsPostfix implies base e) :
    ReadsPostfix implies (base ++ (gap ++ ("[".toList ++
        (start ++ (dots ++ ("..".toList ++ (stop ++ (gap' ++ "]".toList))))))))
      (.index e (.range lo hi inner) span) := by
  have shape : start ++ (dots ++ ("..".toList ++ (stop ++ (gap' ++ "]".toList)))) =
      (start ++ (dots ++ ("..".toList ++ stop))) ++ (gap' ++ "]".toList) := by
    simp only [List.append_assoc]
  rw [shape]
  refine reads.extend blanks.1 (by decide) (by simp; decide) ?_
  intro got pos fuel rest same _
  obtain ⟨lo', sameLo, readLo⟩ := startReads (pos + gap.length + "[".toList.length)
    (dots ++ ("..".toList ++ (stop ++ (gap' ++ ("]".toList ++ rest)))))
    (follows_gap blanks.2.1 (by decide) _)
    (apart_symbol _ blanks.2.1 (by decide) _ (by simp; decide))
  have eaten := eat_token ".." (by decide)
    (pos + gap.length + "[".toList.length + start.length) blanks.2.1
    (stop ++ (gap' ++ ("]".toList ++ rest)))
  obtain ⟨hi', sameHi, readHi⟩ := stopReads
    (pos + gap.length + "[".toList.length + start.length + dots.length + "..".toList.length)
    (gap' ++ ("]".toList ++ rest)) (follows_gap blanks.2.2 (by decide) rest)
    (apart_symbol _ blanks.2.2 (by decide) rest (by simp; decide))
  refine index_step ⟨blanks.1, blanks.2.2⟩ got pos fuel rest
    (.range lo' hi' (spanFrom (skipWs ⟨pos + gap.length + "[".toList.length, start ++ (dots ++
        ("..".toList ++ (stop ++ (gap' ++ ("]".toList ++ rest)))))⟩).pos
      (skipWs ⟨pos + gap.length + "[".toList.length + start.length + dots.length +
        "..".toList.length + stop.length, gap' ++ ("]".toList ++ rest)⟩)))
    (by simp only [Expr.erase, sameLo, sameHi]) ?_ e same span
  simp only [List.append_assoc, List.length_append, ← Nat.add_assoc]
  simp only [parseRangeOrExpr, passes _, readLo, bind, Except.bind, eat_skipWs, eaten, readHi]

/-! ## Primary expressions -/

/-- An expression in parentheses. -/
theorem paren_reads {gap inner gap' : List Char} {e : Expr} (blanks : Gap gap ∧ Gap gap')
    (inside : ReadsInside implies inner e) :
    ReadsPrimary implies (gap ++ ("(".toList ++ (inner ++ (gap' ++ ")".toList)))) e := by
  intro pos rest _
  obtain ⟨got, same, read⟩ := inside (pos + gap.length + "(".toList.length)
    (gap' ++ (")".toList ++ rest)) (follows_gap blanks.2 (by decide) rest)
    (apart_symbol _ blanks.2 (by decide) rest (by simp; decide))
  have paren := eat_here "(" (by decide) (pos + gap.length)
    (inner ++ (gap' ++ (")".toList ++ rest)))
  have close := expect_token ")" (by decide)
    (pos + gap.length + "(".toList.length + inner.length) blanks.2 rest
  refine ⟨got, same, ?_⟩
  simp only [List.append_assoc, List.length_append, ← Nat.add_assoc]
  simp only [parsePrimary, skipWs_token "(" (by decide) pos blanks.1, paren, read, bind,
    Except.bind, expect_skipWs, close]

/-- A word of word symbols is not taken for another one. -/
theorem word_other {name rest : List Char} (isName : IsName name) (ends : Stops inName rest)
    (word : String) (inside : word.toList.all inName = true) (differs : name ≠ word.toList)
    (pos : Nat) {gap : List Char} (blank : Gap gap) :
    (Lexeme.word word).eat ⟨pos, gap ++ (name ++ rest)⟩ =
      (false, ⟨pos + gap.length, name ++ rest⟩) := by
  have skipped : Cursor.skip isAsciiWhitespace ⟨pos, gap ++ (name ++ rest)⟩ =
      ⟨pos + gap.length, name ++ rest⟩ :=
    skip_gap isAsciiWhitespace pos blank (isName.stops_blank.append rest isName.nonempty)
  simp only [Lexeme.eat, Cursor.eatWord, skipped]
  rw [if_neg]
  rintro ⟨starts, ended⟩
  obtain ⟨more, shape⟩ := List.isPrefixOf_iff_prefix.1 starts
  rw [← shape, List.drop_left] at ended
  have stops : Stops inName more := by
    intro c first
    rw [Option.mem_def] at first
    simpa [first] using ended
  have own := takeWhile_run isName.2 ends
  rw [← shape, takeWhile_run (List.all_eq_true.1 inside) stops] at own
  exact differs own.symm

theorem not_digit_of_startsName {c : Char} (starts : startsName c = true) :
    isAsciiDigit c = false := by
  simp only [startsName, isAsciiAlphabetic, isAsciiDigit, Bool.or_eq_true, Bool.and_eq_true,
    decide_eq_true_eq, beq_iff_eq, Bool.and_eq_false_iff, decide_eq_false_iff_not] at starts ⊢
  rcases starts with letter | rfl
  · omega
  · decide

/-- The first symbol of a name or a numeral is no parenthesis. -/
theorem not_paren {text rest : List Char} {c : Char} (first : text.head? = some c)
    (other : c ≠ '(') : ¬ "(".toList <+: text ++ rest := by
  obtain ⟨more, rfl⟩ := List.head?_eq_some_iff.1 first
  simp [other.symm]

/-- An identifier that is no reserved word. -/
theorem ident_reads {gap name : List Char} (span : SourceSpan) (blank : Gap gap)
    (isName : IsName name) (free : String.ofList name ∉ reserved) :
    ReadsPrimary implies (gap ++ name) (.ident (String.ofList name) span) ∧
      NoPrefix (gap ++ name) := by
  have unlike : ∀ word : String, word ∈ reserved → name ≠ word.toList := by
    rintro word listed rfl
    exact free (by simpa using listed)
  obtain ⟨c, first, starts⟩ := isName.1
  have paren : c ≠ '(' ∧ c ≠ '!' ∧ c ≠ '-' := by
    refine ⟨?_, ?_, ?_⟩ <;> rintro rfl <;> exact absurd starts (by decide)
  constructor
  · intro pos rest apart
    have ends : Stops inName rest := apart.last.stops_of_word isName.2 isName.nonempty
    have skipped : skipWs ⟨pos, gap ++ (name ++ rest)⟩ = ⟨pos + gap.length, name ++ rest⟩ :=
      skip_gap isAsciiWhitespace pos blank (isName.stops_blank.append rest isName.nonempty)
    have here : skipWs ⟨pos + gap.length, name ++ rest⟩ = ⟨pos + gap.length, name ++ rest⟩ := by
      rw [← skipped]
      exact skipWs_idem _
    have noParen := eat_other "(" here (not_paren first paren.1)
    have noTrue := word_other isName ends "true" (by decide) (unlike "true" (by decide))
      (pos + gap.length) gap_nil
    have noFalse := word_other isName ends "false" (by decide) (unlike "false" (by decide))
      (pos + gap.length) gap_nil
    have read := parseIdentRaw_name (pos + gap.length) gap_nil isName ends
    have noDigit : (name ++ rest).head?.any isAsciiDigit = false := by
      rw [List.head?_append, first]
      exact not_digit_of_startsName starts
    have letter : (name ++ rest).head?.any startsName = true := by
      rw [List.head?_append, first]
      exact starts
    simp only [List.nil_append, List.length_nil, Nat.add_zero] at noTrue noFalse read
    refine ⟨.ident (String.ofList name) (spanFrom (pos + gap.length)
      ⟨pos + gap.length + name.length, rest⟩), rfl, ?_⟩
    simp only [List.append_assoc, List.length_append, ← Nat.add_assoc]
    simp only [parsePrimary, skipped, noParen, noTrue, noFalse, noDigit, letter, read, bind,
      Except.bind, Bool.false_eq_true, if_false, if_true]
  · intro pos rest apart lexeme listed
    have ends : Stops inName rest := apart.last.stops_of_word isName.2 isName.nonempty
    have skipped : skipWs ⟨pos, gap ++ (name ++ rest)⟩ = ⟨pos + gap.length, name ++ rest⟩ :=
      skip_gap isAsciiWhitespace pos blank (isName.stops_blank.append rest isName.nonempty)
    obtain ⟨more, rfl⟩ := List.head?_eq_some_iff.1 first
    simp only [UnaryOp.spellings, List.cons_append, List.nil_append, List.mem_cons,
      List.not_mem_nil, or_false] at listed
    rw [List.append_assoc]
    rcases listed with rfl | rfl | rfl
    · exact lexeme_miss _ _ (by rw [skipped]; simp [Lexeme.text, paren.2.1.symm])
    · rw [word_other isName ends "not" (by decide) (unlike "not" (by decide)) pos blank, skipped]
    · exact lexeme_miss _ _ (by rw [skipped]; simp [Lexeme.text, paren.2.2.symm])

/-- No prefix operator begins with another symbol. -/
theorem noPrefix_of_first {gap more : List Char} {c : Char} (blank : Gap gap)
    (visible : isAsciiWhitespace c = false) (other : c ≠ '!' ∧ c ≠ 'n' ∧ c ≠ '-') :
    NoPrefix (gap ++ c :: more) := by
  intro pos rest _ lexeme listed
  have skipped : skipWs ⟨pos, gap ++ c :: (more ++ rest)⟩ = ⟨pos + gap.length, c :: (more ++ rest)⟩ :=
    skip_gap isAsciiWhitespace pos blank ((stops_cons isAsciiWhitespace c (more ++ rest)).2 visible)
  simp only [UnaryOp.spellings, List.cons_append, List.nil_append, List.mem_cons,
    List.not_mem_nil, or_false] at listed
  rw [List.append_assoc, List.cons_append]
  rcases listed with rfl | rfl | rfl
  · exact lexeme_miss _ _ (by rw [skipped]; simp [Lexeme.text, other.1.symm])
  · exact lexeme_miss _ _ (by rw [skipped]; simp [Lexeme.text, other.2.1.symm])
  · exact lexeme_miss _ _ (by rw [skipped]; simp [Lexeme.text, other.2.2.symm])

/-- An integer literal. -/
theorem int_reads {gap digits : List Char} {value : Int64} {number : Nat} (span : SourceSpan)
    (blank : Gap gap) (numeral : Numeral digits number) (same : value.toInt = number) :
    ReadsPrimary implies (gap ++ digits) (.int value span) ∧ NoPrefix (gap ++ digits) := by
  obtain ⟨c, more, shape⟩ := List.exists_cons_of_ne_nil numeral.nonempty
  have digit : isAsciiDigit c = true := numeral.1 c (by rw [shape]; exact List.mem_cons_self ..)
  have first : digits.head? = some c := by rw [shape]; rfl
  constructor
  · intro pos rest apart
    have inside : ∀ d ∈ digits, inName d = true := fun d member => by
      simp [inName, numeral.1 d member]
    have ends : Stops isAsciiDigit rest := by
      intro d next
      have stops := apart.last.stops_of_word inside numeral.nonempty d next
      simp only [inName, Bool.or_eq_false_iff] at stops
      exact stops.1.2
    have skipped : skipWs ⟨pos, gap ++ (digits ++ rest)⟩ = ⟨pos + gap.length, digits ++ rest⟩ :=
      skip_gap isAsciiWhitespace pos blank (numeral.stops_blank.append rest numeral.nonempty)
    have here : skipWs ⟨pos + gap.length, digits ++ rest⟩ = ⟨pos + gap.length, digits ++ rest⟩ := by
      rw [← skipped]
      exact skipWs_idem _
    have unlike : ∀ d : Char, isAsciiDigit d = false → d ≠ c := by
      rintro d other rfl
      rw [digit] at other
      cases other
    have noParen := eat_other "(" here (not_paren first (unlike '(' (by decide)).symm)
    have noTrue := lexeme_miss (.word "true") ⟨pos + gap.length, digits ++ rest⟩
      (by rw [here, shape]; simp [Lexeme.text, unlike 't' (by decide)])
    have noFalse := lexeme_miss (.word "false") ⟨pos + gap.length, digits ++ rest⟩
      (by rw [here, shape]; simp [Lexeme.text, unlike 'f' (by decide)])
    have isDigit : (digits ++ rest).head?.any isAsciiDigit = true := by
      rw [List.head?_append, first]
      exact digit
    have taken := span_run isAsciiDigit (pos + gap.length) numeral.1 ends
    rw [here] at noTrue noFalse
    refine ⟨.int value (spanFrom (pos + gap.length) ⟨pos + gap.length + digits.length, rest⟩), rfl, ?_⟩
    simp only [List.append_assoc, List.length_append, ← Nat.add_assoc]
    simp only [parsePrimary, skipped, noParen, noTrue, noFalse, isDigit, if_true, parseIntLiteral,
      taken, parse_i64_digits numeral same, bind, Except.bind]
  · rw [shape]
    exact noPrefix_of_first blank (not_blank_of_digit digit)
      ⟨by rintro rfl; exact absurd digit (by decide), by rintro rfl; exact absurd digit (by decide),
        by rintro rfl; exact absurd digit (by decide)⟩

/-- A boolean literal. -/
theorem bool_reads {gap : List Char} (value : Bool) (span : SourceSpan) (blank : Gap gap) :
    ReadsPrimary implies (gap ++ (boolWord value).toList) (.bool value span) ∧
      NoPrefix (gap ++ (boolWord value).toList) := by
  constructor
  · intro pos rest apart
    have proper : (Lexeme.word (boolWord value)).Proper := by
      cases value <;> exact ⟨by decide, by decide⟩
    have skipped := skipWs_token (boolWord value) proper.1 pos blank rest
    have noParen := eat_elsewhere (boolWord value) "(" proper.1
      (pos + gap.length) rest (by cases value <;> simp [boolWord])
    have found := lexeme_hit (.word (boolWord value)) proper (pos + gap.length) gap_nil apart.last
    simp only [List.nil_append, List.length_nil, Nat.add_zero, Lexeme.text] at found
    refine ⟨.bool value (spanFrom (pos + gap.length)
      ⟨pos + gap.length + (boolWord value).toList.length, rest⟩), rfl, ?_⟩
    simp only [List.append_assoc, List.length_append, ← Nat.add_assoc]
    cases value with
    | true =>
      have eaten : (Lexeme.word "true").eat _ = _ := found
      simp only [parsePrimary, skipped, noParen, eaten]
    | false =>
      have here : skipWs ⟨pos + gap.length, (boolWord false).toList ++ rest⟩ =
          ⟨pos + gap.length, (boolWord false).toList ++ rest⟩ := by
        rw [← skipped]
        exact skipWs_idem _
      have noTrue := lexeme_miss (.word "true")
        ⟨pos + gap.length, (boolWord false).toList ++ rest⟩
        (by rw [here]; simp [Lexeme.text, boolWord])
      have eaten : (Lexeme.word "false").eat _ = _ := found
      rw [here] at noTrue
      simp only [parsePrimary, skipped, noParen, noTrue, eaten]
  · cases value <;> exact noPrefix_of_first blank (by decide) (by decide)

end Forms

end Semasm.Contract
