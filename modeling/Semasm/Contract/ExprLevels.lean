import Semasm.Contract.ExprPrinting

/-!
# Reading operators

A text is read in the shape it was printed in. For a binary level that means the
loop form: reading a printed expression of the level leaves the loop of the level
running with that expression as its left operand, which is what lets a longer
chain continue. What follows a text matters only through how tightly its first
token binds, so each level needs to know that nothing tighter follows.
-/

namespace Semasm.Contract

open Library.Scanning ExprParser

/-! ## How tightly the next token binds -/

/-- One more than the level of the operator a text begins with, and zero for a
closing token. -/
def tightness : List Char → Nat
  | '.' :: '.' :: _ => 0
  | '.' :: _ => 8
  | c :: _ =>
    if c = '(' ∨ c = '[' then 8
    else if c = '*' ∨ c = '/' then 6
    else if c = '+' ∨ c = '-' then 5
    else if c = '=' ∨ c = '!' ∨ c = '<' ∨ c = '>' then 4
    else if c = '&' ∨ c = 'a' then 3
    else if c = '|' ∨ c = 'o' then 2
    else if c = 'i' then 1
    else 0
  | [] => 0

/-- How tightly the first token after a gap binds. -/
def follows (rest : List Char) : Nat := tightness (rest.dropWhile isAsciiWhitespace)

theorem follows_gap {gap : List Char} (blank : Gap gap) {token : String} (isToken : IsToken token)
    (rest : List Char) : follows (gap ++ (token.toList ++ rest)) = tightness (token.toList ++ rest) := by
  rw [follows, dropWhile_run blank (isToken.stops.append rest isToken.nonempty)]

theorem follows_end {gap : List Char} (blank : Gap gap) : follows gap = 0 := by
  have run := dropWhile_run blank (stops_nil _)
  rw [List.append_nil] at run
  rw [follows, run]
  rfl

/-- The operators of a level. -/
def operators : Nat → List (Lexeme × BinOp)
  | 0 => [(.word "implies", .implies)]
  | 1 => [(.symbol "||", .or), (.word "or", .or)]
  | 2 => [(.symbol "&&", .and), (.word "and", .and)]
  | 3 => [(.symbol "==", .eq), (.symbol "!=", .ne), (.symbol "<=", .le), (.symbol ">=", .ge),
      (.symbol "<", .lt), (.symbol ">", .gt)]
  | 4 => [(.symbol "+", .add), (.symbol "-", .sub)]
  | 5 => [(.symbol "*", .mul), (.symbol "/", .div)]
  | _ => []

/-- The parser of a level. -/
def levelParser (implies : Parser Expr) : Nat → Parser Expr
  | 0 => binaryLevel (operators 0) (parseOr implies)
  | 1 => parseOr implies
  | 2 => parseAnd implies
  | 3 => parseCmp implies
  | 4 => parseAdd implies
  | 5 => parseMul implies
  | 6 => parseUnary implies
  | 7 => parsePostfix implies
  | _ => parsePrimary implies

theorem levelParser_binary (implies : Parser Expr) {level : Nat} (binary : level < 6) :
    levelParser implies level =
      binaryLevel (operators level) (levelParser implies (level + 1)) := by
  interval_cases level <;> rfl

/-- An operator of a level binds as tightly as the level says. -/
theorem tightness_operator {level : Nat} {lexeme : Lexeme} {op : BinOp}
    (listed : (lexeme, op) ∈ operators level) (rest : List Char) :
    tightness (lexeme.text.toList ++ rest) = level + 1 := by
  match level with
  | 0 =>
    simp only [operators, List.mem_cons, Prod.mk.injEq, List.not_mem_nil, or_false] at listed
    obtain ⟨rfl, _⟩ := listed
    rfl
  | 1 | 2 | 4 | 5 =>
    simp only [operators, List.mem_cons, Prod.mk.injEq, List.not_mem_nil, or_false] at listed
    rcases listed with ⟨rfl, _⟩ | ⟨rfl, _⟩ <;> rfl
  | 3 =>
    simp only [operators, List.mem_cons, Prod.mk.injEq, List.not_mem_nil, or_false] at listed
    rcases listed with ⟨rfl, _⟩ | ⟨rfl, _⟩ | ⟨rfl, _⟩ | ⟨rfl, _⟩ | ⟨rfl, _⟩ | ⟨rfl, _⟩ <;> rfl
  | level + 6 => simp [operators] at listed

/-- Every spelling of an operator is listed at its level. -/
theorem spelling_listed {op : BinOp} {lexeme : Lexeme} (spelled : lexeme ∈ op.spellings) :
    (lexeme, op) ∈ operators op.level := by
  cases op <;>
    simp only [BinOp.spellings, List.mem_cons, List.not_mem_nil, or_false] at spelled <;>
    first
      | (subst spelled; simp [operators, BinOp.level])
      | (rcases spelled with rfl | rfl <;> simp [operators, BinOp.level])

/-! ## Reading one lexeme -/

/-- A lexeme whose bytes do not come next is not eaten. -/
theorem lexeme_miss (lexeme : Lexeme) (cursor : Cursor Char)
    (other : ¬ lexeme.text.toList <+: (skipWs cursor).rest) :
    lexeme.eat cursor = (false, skipWs cursor) := by
  cases lexeme with
  | symbol text => exact eat_miss isAsciiWhitespace cursor other
  | word text =>
    simp only [Lexeme.eat, Cursor.eatWord]
    rw [if_neg]
    · rfl
    · rintro ⟨starts, _⟩
      exact other (List.isPrefixOf_iff_prefix.1 starts)

@[simp] theorem lexeme_skip (lexeme : Lexeme) (cursor : Cursor Char) :
    lexeme.eat (skipWs cursor) = lexeme.eat cursor := by
  cases lexeme with
  | symbol text => exact eat_skip isAsciiWhitespace cursor
  | word text => exact eatWord_skip isAsciiWhitespace inName cursor

/-- The bytes of an operator: a token, and of a word if the operator is one. -/
def ExprParser.Lexeme.Proper : Lexeme → Prop
  | .symbol text => IsToken text
  | .word text => IsToken text ∧ text.toList.all inName = true

theorem ExprParser.Lexeme.Proper.isToken {lexeme : Lexeme} (proper : lexeme.Proper) : IsToken lexeme.text := by
  cases lexeme with
  | symbol text => exact proper
  | word text => exact proper.1

theorem spelling_proper {op : BinOp} {lexeme : Lexeme} (spelled : lexeme ∈ op.spellings) :
    lexeme.Proper := by
  cases op <;>
    simp only [BinOp.spellings, List.mem_cons, List.not_mem_nil, or_false] at spelled <;>
    first
      | (subst spelled; simp only [Lexeme.Proper]; decide)
      | (rcases spelled with rfl | rfl <;> simp only [Lexeme.Proper] <;> decide)

theorem unary_proper {op : UnaryOp} {lexeme : Lexeme} (spelled : lexeme ∈ op.spellings) :
    lexeme.Proper := by
  cases op <;>
    simp only [UnaryOp.spellings, List.mem_cons, List.not_mem_nil, or_false] at spelled <;>
    first
      | (subst spelled; simp only [Lexeme.Proper]; decide)
      | (rcases spelled with rfl | rfl <;> simp only [Lexeme.Proper] <;> decide)

/-- A lexeme that comes next, apart from what follows, is eaten. -/
theorem lexeme_hit (lexeme : Lexeme) (proper : lexeme.Proper) (pos : Nat) {gap rest : List Char}
    (blank : Gap gap) (apart : Apart lexeme.text.toList rest) :
    lexeme.eat ⟨pos, gap ++ (lexeme.text.toList ++ rest)⟩ =
      (true, ⟨pos + gap.length + lexeme.text.toList.length, rest⟩) := by
  cases lexeme with
  | symbol text =>
    exact eat_hit isAsciiWhitespace pos rest blank (IsToken.stops proper) (IsToken.nonempty proper)
  | word text =>
    exact eatWord_hit isAsciiWhitespace inName pos blank proper.1.stops proper.1.nonempty
      (apart.stops_of_word (List.all_eq_true.1 proper.2) proper.1.nonempty)

theorem eatOperator_none {entries : List (Lexeme × BinOp)} (some : entries ≠ [])
    (cursor : Cursor Char)
    (others : ∀ entry ∈ entries, ¬ entry.1.text.toList <+: (skipWs cursor).rest) :
    eatOperator entries cursor = (none, skipWs cursor) := by
  induction entries generalizing cursor with
  | nil => exact absurd rfl some
  | cons entry rest inductionHypothesis =>
    have missed := lexeme_miss entry.1 cursor (others entry (List.mem_cons_self ..))
    rw [eatOperator, missed]
    have here : skipWs (skipWs cursor) = skipWs cursor := skip_skip isAsciiWhitespace cursor
    cases rest with
    | nil => rfl
    | cons next rest =>
      have later := inductionHypothesis (by simp) (skipWs cursor) fun other member => by
        rw [here]
        exact others other (List.mem_cons_of_mem _ member)
      rw [here] at later
      exact later

theorem eatOperator_skip {entries : List (Lexeme × BinOp)} (some : entries ≠ [])
    (cursor : Cursor Char) : eatOperator entries (skipWs cursor) = eatOperator entries cursor := by
  cases entries with
  | nil => exact absurd rfl some
  | cons entry rest => simp only [eatOperator, lexeme_skip]

theorem eatOperator_hit (before more : List (Lexeme × BinOp)) (lexeme : Lexeme) (op : BinOp)
    (proper : lexeme.Proper) (pos : Nat) {gap rest : List Char} (blank : Gap gap)
    (apart : Apart lexeme.text.toList rest)
    (others : ∀ entry ∈ before, ¬ entry.1.text.toList <+: lexeme.text.toList ++ rest) :
    eatOperator (before ++ (lexeme, op) :: more) ⟨pos, gap ++ (lexeme.text.toList ++ rest)⟩ =
      (some op, ⟨pos + gap.length + lexeme.text.toList.length, rest⟩) := by
  induction before generalizing pos gap with
  | nil => rw [List.nil_append, eatOperator, lexeme_hit lexeme proper pos blank apart]
  | cons entry before inductionHypothesis =>
    have skipped : skipWs ⟨pos, gap ++ (lexeme.text.toList ++ rest)⟩ =
        ⟨pos + gap.length, lexeme.text.toList ++ rest⟩ :=
      skip_gap isAsciiWhitespace pos blank
        (proper.isToken.stops.append rest proper.isToken.nonempty)
    have missed := lexeme_miss entry.1 ⟨pos, gap ++ (lexeme.text.toList ++ rest)⟩
      (by rw [skipped]; exact others entry (List.mem_cons_self ..))
    have later := inductionHypothesis (pos + gap.length) gap_nil fun other member =>
      others other (List.mem_cons_of_mem _ member)
    rw [List.cons_append, eatOperator, missed, skipped]
    exact later

/-- Where nothing as tight as the level follows, no operator of the level is eaten. -/
theorem operators_none {level : Nat} (binary : level < 6) (cursor : Cursor Char)
    (loose : follows cursor.rest ≤ level) :
    eatOperator (operators level) cursor = (none, skipWs cursor) := by
  refine eatOperator_none (by interval_cases level <;> simp [operators]) cursor ?_
  rintro ⟨lexeme, op⟩ listed ⟨rest, spelled⟩
  have tight := tightness_operator listed rest
  rw [spelled] at tight
  have same : follows cursor.rest = level + 1 := tight
  omega

/-- An operator that comes next is eaten at its level. -/
theorem operators_hit {op : BinOp} {lexeme : Lexeme} (spelled : lexeme ∈ op.spellings) (pos : Nat)
    {gap rest : List Char} (blank : Gap gap) (apart : Apart lexeme.text.toList rest)
    (noEquals : ¬ ['='] <+: rest) :
    eatOperator (operators op.level) ⟨pos, gap ++ (lexeme.text.toList ++ rest)⟩ =
      (some op, ⟨pos + gap.length + lexeme.text.toList.length, rest⟩) := by
  have place : ∃ before more, operators op.level = before ++ (lexeme, op) :: more ∧
      ∀ entry ∈ before, ¬ entry.1.text.toList <+: lexeme.text.toList ++ rest := by
    cases op <;> simp only [BinOp.spellings, List.mem_cons, List.not_mem_nil, or_false] at spelled
    case implies => subst spelled; exact ⟨[], _, rfl, by simp⟩
    case or =>
      rcases spelled with rfl | rfl
      · exact ⟨[], _, rfl, by simp⟩
      · exact ⟨[(.symbol "||", .or)], _, rfl, by simp [Lexeme.text]⟩
    case and =>
      rcases spelled with rfl | rfl
      · exact ⟨[], _, rfl, by simp⟩
      · exact ⟨[(.symbol "&&", .and)], _, rfl, by simp [Lexeme.text]⟩
    case eq => subst spelled; exact ⟨[], _, rfl, by simp⟩
    case ne => subst spelled; exact ⟨(operators 3).take 1, _, rfl, by simp [operators, Lexeme.text]⟩
    case le => subst spelled; exact ⟨(operators 3).take 2, _, rfl, by simp [operators, Lexeme.text]⟩
    case ge => subst spelled; exact ⟨(operators 3).take 3, _, rfl, by simp [operators, Lexeme.text]⟩
    case lt =>
      subst spelled
      exact ⟨(operators 3).take 4, _, rfl, by simpa [operators, Lexeme.text] using noEquals⟩
    case gt =>
      subst spelled
      exact ⟨(operators 3).take 5, _, rfl, by simpa [operators, Lexeme.text] using noEquals⟩
    case add => subst spelled; exact ⟨[], _, rfl, by simp⟩
    case sub => subst spelled; exact ⟨(operators 4).take 1, _, rfl, by simp [operators, Lexeme.text]⟩
    case mul => subst spelled; exact ⟨[], _, rfl, by simp⟩
    case div => subst spelled; exact ⟨(operators 5).take 1, _, rfl, by simp [operators, Lexeme.text]⟩
  obtain ⟨before, more, listed, others⟩ := place
  rw [listed]
  exact eatOperator_hit before more lexeme op (spelling_proper spelled) pos blank apart others

/-! ## What it means to read a printed expression -/

section Reading

variable (implies : Parser Expr)

/-- Where nothing tighter than the level follows, its parser reads the text. -/
def ReadsAt (level : Nat) (text : List Char) (expr : Expr) : Prop :=
  ∀ (pos : Nat) (rest : List Char), follows rest ≤ level → Apart text rest →
    ∃ got : Expr, got.erase = expr.erase ∧
      levelParser implies level ⟨pos, text ++ rest⟩ =
        .ok (got, skipWs ⟨pos + text.length, rest⟩)

/-- The loop form of a binary level: the loop goes on with the expression read. -/
def ReadsBinary (level : Nat) (text : List Char) (expr : Expr) : Prop :=
  ∀ (pos : Nat) (rest : List Char), follows rest ≤ level + 1 → Apart text rest →
    ∃ (got : Expr) (fuel : Nat), got.erase = expr.erase ∧
      (skipWs ⟨pos + text.length, rest⟩).rest.length < fuel ∧
      levelParser implies level ⟨pos, text ++ rest⟩ =
        chain (operators level) (levelParser implies (level + 1)) fuel got
          (skipWs ⟨pos + text.length, rest⟩)

/-- A unary expression is read with any fuel for what it shows. -/
def ReadsUnary (text : List Char) (expr : Expr) : Prop :=
  ∀ (pos fuel : Nat) (rest : List Char), follows rest ≤ 7 → Apart text rest →
    (skipWs ⟨pos, text ++ rest⟩).rest.length < fuel →
    ∃ got : Expr, got.erase = expr.erase ∧
      unary implies fuel ⟨pos, text ++ rest⟩ = .ok (got, skipWs ⟨pos + text.length, rest⟩)

/-- The loop form of the postfix level. -/
def ReadsPostfix (text : List Char) (expr : Expr) : Prop :=
  ∀ (pos : Nat) (rest : List Char), Apart text rest →
    ∃ (got : Expr) (fuel : Nat), got.erase = expr.erase ∧
      (skipWs ⟨pos + text.length, rest⟩).rest.length < fuel ∧
      parsePostfix implies ⟨pos, text ++ rest⟩ =
        postfixLoop implies fuel got (skipWs ⟨pos + text.length, rest⟩)

/-- A primary expression is read to its last symbol. -/
def ReadsPrimary (text : List Char) (expr : Expr) : Prop :=
  ∀ (pos : Nat) (rest : List Char), Apart text rest →
    ∃ got : Expr, got.erase = expr.erase ∧
      parsePrimary implies ⟨pos, text ++ rest⟩ = .ok (got, ⟨pos + text.length, rest⟩)

/-- No prefix operator comes first in the text. -/
def NoPrefix (text : List Char) : Prop :=
  ∀ (pos : Nat) (rest : List Char), Apart text rest →
    ∀ lexeme ∈ UnaryOp.not.spellings ++ UnaryOp.neg.spellings,
      lexeme.eat ⟨pos, text ++ rest⟩ = (false, skipWs ⟨pos, text ++ rest⟩)

/-- The printed text of a level is read in the form of its level. -/
def ReadsLevel (text : List Char) (expr : Expr) : Nat → Prop
  | 8 => ReadsPrimary implies text expr ∧ NoPrefix text
  | 7 => ReadsPostfix implies text expr ∧ NoPrefix text
  | 6 => ReadsUnary implies text expr
  | level => ReadsBinary implies level text expr

variable {implies}

theorem follows_skip (cursor : Cursor Char) : follows (skipWs cursor).rest = follows cursor.rest := by
  have same := congrArg Cursor.rest (skipWs_idem cursor)
  exact congrArg tightness same

/-- The loop of a binary level ends where no operator of the level follows. -/
theorem ReadsBinary.ends {level : Nat} (binary : level < 6) {text : List Char} {expr : Expr}
    (reads : ReadsBinary implies level text expr) : ReadsAt implies level text expr := by
  intro pos rest loose apart
  obtain ⟨got, fuel, same, enough, read⟩ := reads pos rest (by omega) apart
  obtain ⟨fuel, rfl⟩ := Nat.exists_eq_add_one.2 (Nat.zero_lt_of_lt enough)
  have none := operators_none binary (skipWs ⟨pos + text.length, rest⟩)
    (by rw [follows_skip]; exact loose)
  refine ⟨got, same, ?_⟩
  rw [read, chain, none]
  simp only [skipWs_idem]

/-- The postfix loop ends where no postfix form follows. -/
theorem postfixLoop_ends (implies : Parser Expr) (fuel : Nat) (expr : Expr) (cursor : Cursor Char)
    (loose : follows cursor.rest ≤ 7) :
    postfixLoop implies (fuel + 1) expr cursor = .ok (expr, skipWs cursor) := by
  have here := skipWs_idem cursor
  have tight : tightness (skipWs cursor).rest ≤ 7 := by
    rw [← follows_skip] at loose
    have same := congrArg (fun c : Cursor Char => tightness c.rest) here
    exact same ▸ loose
  rw [postfixLoop]
  generalize skipWs cursor = there at here tight ⊢
  obtain ⟨pos, rest⟩ := there
  have paren : ¬ "(".toList <+: rest := by
    rintro ⟨more, rfl⟩
    exact absurd tight (by simp [tightness])
  have bracket : ¬ "[".toList <+: rest := by
    rintro ⟨more, rfl⟩
    exact absurd tight (by simp [tightness])
  have notParen := eat_other "(" here paren
  have notBracket := eat_other "[" here bracket
  by_cases dot : ".".toList <+: rest
  · obtain ⟨more, rfl⟩ := dot
    have eaten := eat_token "." (by decide) pos gap_nil more
    have twice : more.head? = some '.' := by
      cases more with
      | nil => exact absurd tight (by simp [tightness])
      | cons c more =>
        by_contra other
        have single : c ≠ '.' := by simpa using other
        exact absurd tight (by simp [tightness, single])
    simp only [List.nil_append] at eaten
    simp only [eaten, twice, if_true]
  · have notDot := eat_other "." here dot
    simp only [notDot, notParen, notBracket]

/-- Passing blanks first changes nothing about the postfix loop. -/
theorem postfixLoop_skip (fuel : Nat) (expr : Expr) (cursor : Cursor Char) :
    postfixLoop implies fuel expr (skipWs cursor) = postfixLoop implies fuel expr cursor := by
  cases fuel with
  | zero => rfl
  | succ fuel => simp only [postfixLoop, skipWs_idem]

theorem ReadsPostfix.ends {text : List Char} {expr : Expr}
    (reads : ReadsPostfix implies text expr) : ReadsAt implies 7 text expr := by
  intro pos rest loose apart
  obtain ⟨got, fuel, same, enough, read⟩ := reads pos rest apart
  obtain ⟨fuel, rfl⟩ := Nat.exists_eq_add_one.2 (Nat.zero_lt_of_lt enough)
  refine ⟨got, same, ?_⟩
  have ended := postfixLoop_ends implies fuel got ⟨pos + text.length, rest⟩ loose
  rw [← postfixLoop_skip, ← read] at ended
  exact ended

theorem ReadsUnary.ends {text : List Char} {expr : Expr} (reads : ReadsUnary implies text expr) :
    ReadsAt implies 6 text expr := by
  intro pos rest loose apart
  have same : parseUnary implies ⟨pos, text ++ rest⟩ =
      unary implies ((skipWs ⟨pos, text ++ rest⟩).rest.length + 1) ⟨pos, text ++ rest⟩ := by
    simp only [parseUnary, unary, skipWs_idem]
  obtain ⟨got, erased, read⟩ := reads pos _ rest (by omega) apart (Nat.lt_succ_self _)
  exact ⟨got, erased, same.trans read⟩

theorem ReadsLevel.ends {level : Nat} (below : level < 8) {text : List Char} {expr : Expr}
    (reads : ReadsLevel implies text expr level) : ReadsAt implies level text expr := by
  match level, below, reads with
  | 7, _, reads => exact reads.1.ends
  | 6, _, reads => exact ReadsUnary.ends reads
  | 0, _, reads => exact ReadsBinary.ends (by decide) reads
  | 1, _, reads => exact ReadsBinary.ends (by decide) reads
  | 2, _, reads => exact ReadsBinary.ends (by decide) reads
  | 3, _, reads => exact ReadsBinary.ends (by decide) reads
  | 4, _, reads => exact ReadsBinary.ends (by decide) reads
  | 5, _, reads => exact ReadsBinary.ends (by decide) reads

theorem parsePrimary_passesBlanks : PassesBlanks (parsePrimary implies) := by
  intro cursor
  simp only [parsePrimary, skipWs_idem]

theorem parsePostfix_passesBlanks : PassesBlanks (parsePostfix implies) := by
  intro cursor
  simp only [parsePostfix, parsePrimary_passesBlanks cursor]

/-- A text of the next level is one of this level. -/
theorem ReadsLevel.raise {level : Nat} (below : level < 8) {text : List Char} {expr : Expr}
    (reads : ReadsLevel implies text expr (level + 1)) : ReadsLevel implies text expr level := by
  have binary : level < 6 → ReadsAt implies (level + 1) text expr →
      ReadsBinary implies level text expr := by
    intro small ends pos rest loose apart
    obtain ⟨got, same, read⟩ := ends pos rest loose apart
    refine ⟨got, _, same, Nat.lt_succ_self _, ?_⟩
    rw [levelParser_binary implies small]
    simp only [binaryLevel, read, bind, Except.bind]
  match level, below, reads, binary with
  | 7, _, reads, _ =>
    refine ⟨fun pos rest apart => ?_, reads.2⟩
    obtain ⟨got, same, read⟩ := reads.1 pos rest apart
    refine ⟨got, rest.length + 1, same, Nat.lt_succ_of_le (skip_length isAsciiWhitespace _), ?_⟩
    simp only [parsePostfix, read, bind, Except.bind, postfixLoop_skip]
  | 6, _, reads, _ =>
    intro pos fuel rest loose apart enough
    obtain ⟨fuel, rfl⟩ := Nat.exists_eq_add_one.2 (Nat.zero_lt_of_lt enough)
    obtain ⟨got, same, read⟩ := reads.1.ends pos rest loose apart
    refine ⟨got, same, ?_⟩
    have missed := reads.2 pos rest apart
    have bang : eat "!" ⟨pos, text ++ rest⟩ = _ := missed (.symbol "!") (by decide)
    have word := missed (.word "not") (by decide)
    have minus : eat "-" ⟨pos, text ++ rest⟩ = _ := missed (.symbol "-") (by decide)
    have eat_skipWs : ∀ token cursor, eat token (skipWs cursor) = eat token cursor :=
      fun token cursor => eat_skip isAsciiWhitespace cursor
    simp only [unary, eat_skipWs, bang, lexeme_skip, word, minus]
    rw [parsePostfix_passesBlanks]
    exact read
  | 0, _, reads, binary => exact binary (by decide) (ReadsLevel.ends (by decide) reads)
  | 1, _, reads, binary => exact binary (by decide) (ReadsLevel.ends (by decide) reads)
  | 2, _, reads, binary => exact binary (by decide) (ReadsLevel.ends (by decide) reads)
  | 3, _, reads, binary => exact binary (by decide) (ReadsLevel.ends (by decide) reads)
  | 4, _, reads, binary => exact binary (by decide) (ReadsLevel.ends (by decide) reads)
  | 5, _, reads, binary => exact binary (by decide) (ReadsLevel.ends (by decide) reads)

/-- A binary expression continues the loop of its level. -/
theorem binary_reads {op : BinOp} {lexeme : Lexeme} {left gap right : List Char} {e f : Expr}
    (span : SourceSpan) (spelled : lexeme ∈ op.spellings) (blank : Gap gap)
    (apartLeft : Apart left (gap ++ lexeme.text.toList)) (apartRight : Apart lexeme.text.toList right)
    (begins : Begins right) (leftReads : ReadsBinary implies op.level left e)
    (rightReads : ReadsAt implies (op.level + 1) right f) :
    ReadsBinary implies op.level (left ++ (gap ++ (lexeme.text.toList ++ right)))
      (.binary op e f span) := by
  intro pos rest loose apart
  have isToken := (spelling_proper spelled).isToken
  have tight : follows (gap ++ (lexeme.text.toList ++ (right ++ rest))) ≤ op.level + 1 := by
    rw [follows_gap blank isToken, tightness_operator (spelling_listed spelled)]
  have apartFirst : Apart left (gap ++ (lexeme.text.toList ++ (right ++ rest))) := by
    rw [← List.append_assoc]
    exact apartLeft.extend (by simp [isToken.nonempty]) _
  have noEquals : ¬ ['='] <+: right ++ rest := by
    rintro ⟨more, shape⟩
    have other := begins.other "=" rfl (by decide) 0 rest
    have here : skipWs ⟨0, right ++ rest⟩ = ⟨0, right ++ rest⟩ :=
      skip_stopped isAsciiWhitespace (by rw [← shape]; simp; decide)
    rw [here] at other
    exact other ⟨more, shape⟩
  obtain ⟨left', fuel, sameLeft, enough, readLeft⟩ := leftReads pos _ tight apartFirst
  obtain ⟨fuel, rfl⟩ := Nat.exists_eq_add_one.2 (Nat.zero_lt_of_lt enough)
  have found := operators_hit spelled (pos + left.length) blank
    (apartRight.extend begins.nonempty rest) noEquals
  obtain ⟨right', sameRight, readRight⟩ := rightReads
    (pos + left.length + gap.length + lexeme.text.toList.length) rest loose
    (by
      rw [← List.append_assoc, ← List.append_assoc] at apart
      exact apart.last)
  have skipped : skipWs ⟨pos + left.length, gap ++ (lexeme.text.toList ++ (right ++ rest))⟩ = _ :=
    skip_gap isAsciiWhitespace (pos + left.length) blank
      (isToken.stops.append (right ++ rest) isToken.nonempty)
  have visible := List.length_pos_iff.2 isToken.nonempty
  have shorter := skip_length isAsciiWhitespace
    ⟨pos + left.length + gap.length + lexeme.text.toList.length + right.length, rest⟩
  dsimp only at shorter
  have place : pos + (left ++ (gap ++ (lexeme.text.toList ++ right))).length =
      pos + left.length + gap.length + lexeme.text.toList.length + right.length := by
    simp only [List.length_append, Nat.add_assoc]
  refine ⟨.binary op left' right' (spanFrom (leftStart left') (skipWs ⟨pos + left.length +
    gap.length + lexeme.text.toList.length + right.length, rest⟩)), fuel, ?_, ?_, ?_⟩
  · simp only [Expr.erase, sameLeft, sameRight]
  · rw [place]
    rw [skipped] at enough
    simp only [List.length_append] at enough
    exact Nat.lt_of_le_of_lt shorter (by omega)
  · rw [place]
    simp only [List.append_assoc]
    rw [readLeft, chain, eatOperator_skip (by cases op <;> simp [operators, BinOp.level]), found]
    simp only [readRight, bind, Except.bind]

/-- A prefix operator is read, then its operand. -/
theorem unary_reads {op : UnaryOp} {lexeme : Lexeme} {gap operand : List Char} {e : Expr}
    (span : SourceSpan) (spelled : lexeme ∈ op.spellings) (blank : Gap gap)
    (apart : Apart lexeme.text.toList operand) (begins : Begins operand)
    (reads : ReadsUnary implies operand e) :
    ReadsUnary implies (gap ++ (lexeme.text.toList ++ operand)) (.unary op e span) := by
  intro pos fuel rest loose apartRest enough
  have proper := unary_proper spelled
  have skipped : skipWs ⟨pos, gap ++ (lexeme.text.toList ++ (operand ++ rest))⟩ =
      ⟨pos + gap.length, lexeme.text.toList ++ (operand ++ rest)⟩ :=
    skip_gap isAsciiWhitespace pos blank
      (proper.isToken.stops.append (operand ++ rest) proper.isToken.nonempty)
  have found := lexeme_hit lexeme proper (pos + gap.length) gap_nil
    (apart.extend begins.nonempty rest)
  simp only [List.append_assoc] at enough ⊢
  rw [skipped] at enough
  obtain ⟨fuel, rfl⟩ := Nat.exists_eq_add_one.2 (Nat.zero_lt_of_lt enough)
  have visible := List.length_pos_iff.2 proper.isToken.nonempty
  have shorter := skip_length isAsciiWhitespace
    ⟨pos + gap.length + lexeme.text.toList.length, operand ++ rest⟩
  obtain ⟨got, same, read⟩ := reads (pos + gap.length + lexeme.text.toList.length) fuel rest loose
    (by
      rw [← List.append_assoc] at apartRest
      exact apartRest.last)
    (Nat.lt_of_le_of_lt shorter (by
      simp only [List.length_append] at enough ⊢
      omega))
  have place : pos + (gap ++ (lexeme.text.toList ++ operand)).length =
      pos + gap.length + lexeme.text.toList.length + operand.length := by
    simp only [List.length_append, Nat.add_assoc]
  rw [place]
  simp only [List.nil_append, List.length_nil, Nat.add_zero] at found
  refine ⟨.unary op got (spanFrom (pos + gap.length) (skipWs ⟨pos + gap.length +
    lexeme.text.toList.length + operand.length, rest⟩)), by simp only [Expr.erase, same], ?_⟩
  have here : skipWs ⟨pos + gap.length, lexeme.text.toList ++ (operand ++ rest)⟩ =
      ⟨pos + gap.length, lexeme.text.toList ++ (operand ++ rest)⟩ := by
    rw [← skipped]
    exact skipWs_idem _
  have missed : ∀ other : Lexeme, ¬ other.text.toList <+: lexeme.text.toList ++ (operand ++ rest) →
      other.eat ⟨pos + gap.length, lexeme.text.toList ++ (operand ++ rest)⟩ =
        (false, ⟨pos + gap.length, lexeme.text.toList ++ (operand ++ rest)⟩) := by
    intro other differs
    have miss := lexeme_miss other ⟨pos + gap.length, lexeme.text.toList ++ (operand ++ rest)⟩
      (by rw [here]; exact differs)
    rw [miss, here]
  cases op with
  | not =>
    simp only [UnaryOp.spellings, List.mem_cons, List.not_mem_nil, or_false] at spelled
    rcases spelled with rfl | rfl
    · have bang : eat "!" _ = _ := found
      simp only [unary, skipped, bang, read, bind, Except.bind]
    · have noBang : eat "!" _ = _ := missed (.symbol "!") (by simp [Lexeme.text])
      simp only [unary, skipped, noBang, found, read, bind, Except.bind]
  | neg =>
    simp only [UnaryOp.spellings, List.mem_cons, List.not_mem_nil, or_false] at spelled
    subst spelled
    have noBang : eat "!" _ = _ := missed (.symbol "!") (by simp [Lexeme.text])
    have noWord := missed (.word "not") (by simp [Lexeme.text])
    have minus : eat "-" _ = _ := found
    simp only [unary, skipped, noBang, noWord, minus, read, bind, Except.bind]

end Reading

end Semasm.Contract
