import Semasm.Contract.ExprRoundTrip
import Semasm.Contract.ExprSound

/-!
# Every reading is the parser's

What a text reads as is what the parser makes of it, spans included. A text is
followed by something that its last word does not run into and, from the unary
level on, by no blank; a binary or postfix text leaves the loop of its level
running with its expression. The expression of an accepted input is therefore the
only one the input reads as.
-/

namespace Semasm.Contract

open Library.Scanning ExprParser

/-! ## What follows a text -/

theorem Apart.of_gap (left : List Char) {gap : List Char} (blank : Gap gap) (some : gap ≠ [])
    (rest : List Char) : Apart left (gap ++ rest) := by
  obtain ⟨c, more, rfl⟩ := List.exists_cons_of_ne_nil some
  refine apart_of_stops ?_
  rw [List.cons_append, stops_cons, ← Bool.not_eq_true]
  intro inside
  have visible := not_blank_of_inName inside
  rw [blank c (List.mem_cons_self ..)] at visible
  cases visible

/-- A gap may stand between a text and what follows. -/
theorem Separate.of_pad {text gap rest : List Char} (blank : Gap gap)
    (separate : Separate (text ++ gap) rest) : Separate text (gap ++ rest) := by
  rcases List.eq_nil_or_concat gap with rfl | ⟨_, _, shape⟩
  · simpa using separate
  · exact .inl (Apart.of_gap text blank (by simp [shape]) rest)

theorem Separate.extend {left right : List Char} (separate : Separate left right)
    (nonempty : right ≠ []) (rest : List Char) : Separate left (right ++ rest) := by
  rcases separate with apart | ⟨front, digits, shape, some, all, border, stops⟩
  · exact .inl (apart.extend nonempty rest)
  · exact .inr ⟨front, digits, shape, some, all, border, stops.append rest nonempty⟩

/-- The end of a text is the end of its last part. -/
theorem Separate.last {front back rest : List Char} (nonempty : back ≠ [])
    (separate : Separate (front ++ back) rest) : Separate back rest := by
  rcases separate with apart | ⟨before, digits, shape, some, all, border, stops⟩
  · exact .inl apart.last
  · right
    rcases List.append_eq_append_iff.1 shape with ⟨more, rfl, rfl⟩ | ⟨more, rfl, rfl⟩
    · exact ⟨more, digits, rfl, some, all, border.last, stops⟩
    · refine ⟨[], back, rfl, nonempty, fun c member => all c (by simp [member]), ?_, stops⟩
      intro c final
      simp at final

/-- A word that does not begin with a digit ends where no symbol of a name follows. -/
theorem Separate.stops_of_word {word rest : List Char} (separate : Separate word rest)
    (inside : ∀ c ∈ word, inName c = true) (letter : ∃ c ∈ word.head?, isAsciiDigit c = false) :
    Stops inName rest := by
  obtain ⟨c, first, other⟩ := letter
  rcases separate with apart | ⟨front, digits, rfl, some, all, border, _⟩
  · exact apart.stops_of_word inside (by rintro rfl; simp at first)
  · obtain ⟨d, more, rfl⟩ := List.exists_cons_of_ne_nil some
    rcases List.eq_nil_or_concat front with rfl | ⟨before, last, rfl⟩
    · obtain rfl : d = c := by simpa using first
      rw [all d (List.mem_cons_self ..)] at other
      cases other
    · have stops := border last (by simp) (inside last (by simp)) d (by simp)
      rw [inside d (by simp)] at stops
      cases stops

theorem Separate.stops_of_digits {digits rest : List Char} (separate : Separate digits rest)
    (all : ∀ c ∈ digits, isAsciiDigit c = true) (some : digits ≠ []) :
    Stops isAsciiDigit rest := by
  rcases separate with apart | ⟨_, _, _, _, _, _, stops⟩
  · intro c first
    have ends := apart.stops_of_word (fun d member => by simp [inName, all d member]) some c first
    simp only [inName, Bool.or_eq_false_iff] at ends
    exact ends.1.2
  · exact stops

/-- The first symbol of a text is the first symbol of an expression. -/
theorem ReadsAs.begins {strict : Prop} {level place : Nat} {text : List Char} {e : Expr}
    (reads : ReadsAs strict level place text e) :
    ∃ c more, text = c :: more ∧ startsExpr c = true := by
  have extend : ∀ {front : List Char} (back : List Char),
      (∃ c more, front = c :: more ∧ startsExpr c = true) →
      ∃ c more, front ++ back = c :: more ∧ startsExpr c = true := by
    rintro front back ⟨c, more, rfl, starts⟩
    exact ⟨c, more ++ back, rfl, starts⟩
  induction reads with
  | ident isName _ =>
    obtain ⟨⟨c, first, starts⟩, _⟩ := isName
    obtain ⟨more, rfl⟩ := List.head?_eq_some_iff.1 first
    exact ⟨c, more, rfl, startsName_startsExpr starts⟩
  | int numeral _ =>
    obtain ⟨c, more, rfl⟩ := List.exists_cons_of_ne_nil numeral.nonempty
    exact ⟨c, more, rfl, isDigit_startsExpr (numeral.1 c (List.mem_cons_self ..))⟩
  | bool place value => cases value <;> exact ⟨_, _, rfl, by decide⟩
  | paren => exact ⟨'(', _, rfl, by decide⟩
  | primary _ inductionHypothesis => exact inductionHypothesis
  | raise _ _ inductionHypothesis => exact inductionHypothesis
  | plain _ inductionHypothesis => exact inductionHypothesis
  | close _ _ inductionHypothesis => exact extend _ inductionHypothesis
  | member _ _ _ inductionHypothesis => exact extend _ inductionHypothesis
  | call _ _ _ _ _ _ _ inductionHypothesis _ => exact extend _ inductionHypothesis
  | index _ _ _ _ inductionHypothesis _ => exact extend _ inductionHypothesis
  | binary _ _ _ _ _ _ _ inductionHypothesis _ => exact extend _ inductionHypothesis
  | range _ _ _ inductionHypothesis _ => exact extend _ inductionHypothesis
  | @unary _ op lexeme _ _ _ spelled _ _ _ _ =>
    refine extend _ ?_
    cases op <;> simp only [UnaryOp.spellings, List.mem_cons, List.not_mem_nil, or_false] at spelled
    · rcases spelled with rfl | rfl <;> exact ⟨_, _, rfl, by decide⟩
    · subst spelled
      exact ⟨_, _, rfl, by decide⟩

theorem ReadsAs.stops {strict : Prop} {level place : Nat} {text : List Char} {e : Expr}
    (reads : ReadsAs strict level place text e) (rest : List Char) :
    Stops isAsciiWhitespace (text ++ rest) := by
  obtain ⟨c, more, rfl, starts⟩ := reads.begins
  rw [List.cons_append, stops_cons]
  exact startsExpr_visible starts

/-- The operators of a level are those that bind so tightly. -/
theorem listed_spelled {level : Nat} {lexeme : Lexeme} {op : BinOp}
    (listed : (lexeme, op) ∈ operators level) : level = op.level ∧ lexeme ∈ op.spellings := by
  have all : ∀ entry ∈ operators level, level = entry.2.level ∧ entry.1 ∈ entry.2.spellings := by
    match level with
    | 0 | 1 | 2 | 3 | 4 | 5 => decide
    | level + 6 => simp [operators]
  exact all _ listed

/-! ## What it means to read exactly -/

section Exact

variable (implies : Parser Expr)

/-- A prefix operator does not come first, whatever follows the text. -/
def NoPrefixAt (place : Nat) (text : List Char) : Prop :=
  ∀ rest, Separate text rest → ∀ lexeme ∈ UnaryOp.not.spellings ++ UnaryOp.neg.spellings,
    lexeme.eat ⟨place, text ++ rest⟩ = (false, ⟨place, text ++ rest⟩)

/-- A primary expression is read to its last symbol. -/
def ExactPrimary (place : Nat) (text : List Char) (e : Expr) : Prop :=
  ∀ rest, Separate text rest →
    parsePrimary implies ⟨place, text ++ rest⟩ = .ok (e, ⟨place + text.length, rest⟩)

/-- A postfix expression leaves the postfix loop running with it. -/
def ExactPostfix (place : Nat) (text : List Char) (e : Expr) : Prop :=
  ∀ rest, Separate text rest → ∃ fuel, rest.length < fuel ∧
    parsePostfix implies ⟨place, text ++ rest⟩ =
      postfixLoop implies fuel e ⟨place + text.length, rest⟩

/-- A unary expression is read with any fuel for what is shown. -/
def ExactUnary (place : Nat) (text : List Char) (e : Expr) : Prop :=
  ∀ rest fuel, Separate text rest → Stops isAsciiWhitespace rest → follows rest ≤ 7 →
    (text ++ rest).length < fuel →
    unary implies fuel ⟨place, text ++ rest⟩ = .ok (e, ⟨place + text.length, rest⟩)

/-- A binary expression leaves the loop of its level running with it. -/
def ExactBinary (level place : Nat) (text : List Char) (e : Expr) : Prop :=
  ∀ rest, Separate text rest → Stops isAsciiWhitespace rest → follows rest ≤ level + 1 →
    ∃ fuel, rest.length < fuel ∧ levelParser implies level ⟨place, text ++ rest⟩ =
      chain (operators level) (levelParser implies (level + 1)) fuel e ⟨place + text.length, rest⟩

/-- Where nothing tighter than the level follows, its parser reads the text. -/
def ExactAt (level place : Nat) (text : List Char) (e : Expr) : Prop :=
  ∀ rest, Separate text rest → Stops isAsciiWhitespace rest → follows rest ≤ level →
    levelParser implies level ⟨place, text ++ rest⟩ = .ok (e, ⟨place + text.length, rest⟩)

/-- What an index holds is read up to a closing token. -/
def ExactInside (place : Nat) (text : List Char) (e : Expr) : Prop :=
  ∀ rest, Separate text rest → Stops isAsciiWhitespace rest → follows rest = 0 →
    rest.head? ≠ some '.' →
    parseRangeOrExpr implies ⟨place, text ++ rest⟩ = .ok (e, ⟨place + text.length, rest⟩)

/-- A text of a level is read in the form of its level. -/
def Exact (place : Nat) (text : List Char) (e : Expr) : Nat → Prop
  | 9 => ExactInside implies place text e
  | 8 => ExactPrimary implies place text e ∧ NoPrefixAt place text
  | 7 => ExactPostfix implies place text e ∧ NoPrefixAt place text
  | 6 => ExactUnary implies place text e
  | level => ExactBinary implies level place text e

variable {implies}

/-! ## From one level to the next -/

theorem ExactBinary.ends {level place : Nat} (binary : level < 6) {text : List Char} {e : Expr}
    (exact : ExactBinary implies level place text e) : ExactAt implies level place text e := by
  intro rest separate stops loose
  obtain ⟨fuel, enough, read⟩ := exact rest separate stops (by omega)
  obtain ⟨fuel, rfl⟩ := Nat.exists_eq_add_one.2 (Nat.zero_lt_of_lt enough)
  have none := operators_none binary ⟨place + text.length, rest⟩ loose
  rw [read, chain, none, skipWs_here stops]

theorem ExactUnary.ends {place : Nat} {text : List Char} {e : Expr}
    (exact : ExactUnary implies place text e) (visible : Stops isAsciiWhitespace text)
    (some : text ≠ []) : ExactAt implies 6 place text e := by
  intro rest separate stops loose
  have here : skipWs ⟨place, text ++ rest⟩ = ⟨place, text ++ rest⟩ :=
    skipWs_here (visible.append rest some)
  have read := exact rest _ separate stops (by omega) (Nat.lt_succ_self _)
  change parseUnary implies ⟨place, text ++ rest⟩ = _
  simp only [parseUnary, here]
  exact read

theorem Exact.ends {level place : Nat} (small : level ≤ 6) {text : List Char} {e : Expr}
    (exact : Exact implies place text e level) (visible : Stops isAsciiWhitespace text)
    (some : text ≠ []) : ExactAt implies level place text e := by
  match level, small, exact with
  | 6, _, exact => exact ExactUnary.ends exact visible some
  | 0, _, exact => exact ExactBinary.ends (by decide) exact
  | 1, _, exact => exact ExactBinary.ends (by decide) exact
  | 2, _, exact => exact ExactBinary.ends (by decide) exact
  | 3, _, exact => exact ExactBinary.ends (by decide) exact
  | 4, _, exact => exact ExactBinary.ends (by decide) exact
  | 5, _, exact => exact ExactBinary.ends (by decide) exact

theorem exact_binary (place : Nat) (text : List Char) (e : Expr) {level : Nat} (binary : level < 6) :
    Exact implies place text e level = ExactBinary implies level place text e := by
  match level, binary with
  | 0, _ | 1, _ | 2, _ | 3, _ | 4, _ | 5, _ => rfl

/-- A text of the next level is one of this level. -/
theorem ExactAt.raise {level place : Nat} (binary : level < 6) {text : List Char} {e : Expr}
    (exact : ExactAt implies (level + 1) place text e) : Exact implies place text e level := by
  rw [exact_binary place text e binary]
  intro rest separate stops loose
  refine ⟨rest.length + 1, Nat.lt_succ_self _, ?_⟩
  rw [levelParser_binary implies binary]
  simp only [binaryLevel, exact rest separate stops loose, bind, Except.bind]

/-- A postfix expression and the blanks behind it. -/
theorem close_exact {place : Nat} {text gap : List Char} {e : Expr} (blank : Gap gap)
    (visible : Stops isAsciiWhitespace text) (some : text ≠ [])
    (exact : Exact implies place text e 7) : Exact implies place (text ++ gap) e 6 := by
  intro rest fuel separate stops loose enough
  obtain ⟨fuel, rfl⟩ := Nat.exists_eq_add_one.2 (Nat.zero_lt_of_lt enough)
  have apart := separate.of_pad blank
  obtain ⟨more, many, read⟩ := exact.1 (gap ++ rest) apart
  obtain ⟨more, rfl⟩ := Nat.exists_eq_add_one.2 (Nat.zero_lt_of_lt many)
  have missed := exact.2 (gap ++ rest) apart
  have bang : eat "!" ⟨place, text ++ (gap ++ rest)⟩ = _ := missed (.symbol "!") (by decide)
  have word := missed (.word "not") (by decide)
  have minus : eat "-" ⟨place, text ++ (gap ++ rest)⟩ = _ := missed (.symbol "-") (by decide)
  have here : skipWs ⟨place, text ++ (gap ++ rest)⟩ = ⟨place, text ++ (gap ++ rest)⟩ :=
    skipWs_here (visible.append (gap ++ rest) some)
  have passed : skipWs ⟨place + text.length, gap ++ rest⟩ =
      ⟨place + text.length + gap.length, rest⟩ := skip_gap isAsciiWhitespace _ blank stops
  have same : follows (gap ++ rest) = follows rest := by
    have skipped := congrArg (fun cursor : Cursor Char => follows cursor.rest) passed
    rw [← skipped]
    exact (follows_skip ⟨place + text.length, gap ++ rest⟩).symm
  have ended := postfixLoop_ends implies more e ⟨place + text.length, gap ++ rest⟩
    (by rw [same]; exact loose)
  rw [List.append_assoc, List.length_append, ← Nat.add_assoc]
  simp only [unary, here, bang, word, minus, read, ended, passed]

/-- A gap before a text is passed by a parser that passes blanks. -/
theorem PassesBlanks.gap {α : Type} {parser : Parser α} (passes : PassesBlanks parser) (pos : Nat)
    {gap text : List Char} (blank : Gap gap) (visible : Stops isAsciiWhitespace text) :
    parser ⟨pos, gap ++ text⟩ = parser ⟨pos + gap.length, text⟩ := by
  have passed : skipWs ⟨pos, gap ++ text⟩ = ⟨pos + gap.length, text⟩ :=
    skip_gap isAsciiWhitespace pos blank visible
  rw [← passes, passed]

theorem unary_passesBlanks (fuel : Nat) : PassesBlanks (unary implies fuel) := by
  intro cursor
  cases fuel with
  | zero => rfl
  | succ fuel => simp only [unary, skipWs_idem]

theorem levelParser_passesBlanks {level : Nat} (small : level ≤ 6) :
    PassesBlanks (levelParser implies level) := by
  induction distance : 6 - level generalizing level with
  | zero =>
    obtain rfl : level = 6 := by omega
    intro cursor
    change parseUnary implies _ = parseUnary implies _
    simp only [parseUnary, skipWs_idem]
  | succ distance inductionHypothesis =>
    have operand : PassesBlanks (levelParser implies (level + 1)) :=
      inductionHypothesis (by omega) (by omega)
    intro cursor
    rw [levelParser_binary implies (by omega)]
    simp only [binaryLevel, operand cursor]

/-- What may begin an expression does not begin with an equals sign. -/
theorem noEquals {gap text : List Char} (blank : Gap gap) {c : Char} {more : List Char}
    (shape : text = c :: more) (starts : startsExpr c = true) : ¬ ['='] <+: gap ++ text := by
  rintro ⟨rest, same⟩
  cases gap with
  | nil =>
    obtain rfl : '=' = c := by simpa [shape] using congrArg List.head? same
    exact absurd starts (by decide)
  | cons d gap =>
    obtain rfl : '=' = d := by simpa using congrArg List.head? same
    exact absurd (blank _ (List.mem_cons_self ..)) (by decide)

/-- A binary expression continues the loop of its level. -/
theorem binary_exact {level place : Nat} {op : BinOp} {lexeme : Lexeme}
    {left gap right : List Char} {e f : Expr} (listed : (lexeme, op) ∈ operators level)
    (blank : Gap gap) (apartLeft : Separate left lexeme.text.toList)
    (apartRight : Apart lexeme.text.toList (gap ++ right))
    (begins : ∃ c more, right = c :: more ∧ startsExpr c = true)
    (leftExact : ExactBinary implies level place left e)
    (rightExact : ExactAt implies (level + 1)
      (place + left.length + lexeme.text.toList.length + gap.length) right f) :
    ExactBinary implies level place (left ++ (lexeme.text.toList ++ (gap ++ right)))
      (.binary op e f (spanOver e place (left ++ (lexeme.text.toList ++ (gap ++ right))))) := by
  intro rest separate stops loose
  obtain ⟨rfl, spelled⟩ := listed_spelled listed
  have isToken := (spelling_proper spelled).isToken
  obtain ⟨c, more, shape, starts⟩ := begins
  have some : right ≠ [] := by simp [shape]
  have visible : Stops isAsciiWhitespace (right ++ rest) := by
    rw [shape, List.cons_append, stops_cons]
    exact startsExpr_visible starts
  have tight : follows (lexeme.text.toList ++ (gap ++ (right ++ rest))) = op.level + 1 := by
    have shown := follows_gap gap_nil isToken (gap ++ (right ++ rest))
    rw [List.nil_append] at shown
    rw [shown, tightness_operator listed]
  obtain ⟨fuel, enough, read⟩ := leftExact (lexeme.text.toList ++ (gap ++ (right ++ rest)))
    (apartLeft.extend isToken.nonempty _) (isToken.stops.append _ isToken.nonempty) (by omega)
  obtain ⟨fuel, rfl⟩ := Nat.exists_eq_add_one.2 (Nat.zero_lt_of_lt enough)
  have apart : Apart lexeme.text.toList (gap ++ (right ++ rest)) := by
    rw [← List.append_assoc]
    exact apartRight.extend (by simp [some]) rest
  have found := operators_hit spelled (place + left.length) gap_nil apart
    (noEquals blank (by rw [shape, List.cons_append]) starts)
  simp only [List.nil_append, List.length_nil, Nat.add_zero] at found
  have ends : Separate right rest := by
    rw [← List.append_assoc, ← List.append_assoc] at separate
    exact separate.last some
  have operand := rightExact rest ends stops loose
  rw [← (levelParser_passesBlanks (by cases op <;> decide)).gap _ blank visible] at operand
  have length : (left ++ (lexeme.text.toList ++ (gap ++ right))).length =
      left.length + lexeme.text.toList.length + gap.length + right.length := by
    simp only [List.length_append, Nat.add_assoc]
  have whole : Passes ⟨place, left ++ (lexeme.text.toList ++ (gap ++ right)) ++ rest⟩
      (left ++ (lexeme.text.toList ++ (gap ++ right)))
      ⟨place + left.length + lexeme.text.toList.length + gap.length + right.length, rest⟩ :=
    ⟨rfl, by simp only [length, ← Nat.add_assoc]⟩
  have positive := List.length_pos_iff.2 isToken.nonempty
  simp only [List.length_append] at enough
  refine ⟨fuel, by omega, ?_⟩
  rw [← spanFrom_here whole, length]
  simp only [List.append_assoc, ← Nat.add_assoc]
  rw [read, chain, found]
  simp only [operand, bind, Except.bind]

/-- A prefix operator is read, then its operand. -/
theorem unary_exact {place : Nat} {op : UnaryOp} {lexeme : Lexeme} {gap operand : List Char}
    {e : Expr} (spelled : lexeme ∈ op.spellings) (blank : Gap gap)
    (apart : Apart lexeme.text.toList (gap ++ operand))
    (visible : Stops isAsciiWhitespace operand) (some : operand ≠ [])
    (exact : ExactUnary implies (place + lexeme.text.toList.length + gap.length) operand e) :
    ExactUnary implies place (lexeme.text.toList ++ (gap ++ operand))
      (.unary op e (spanAt place (lexeme.text.toList ++ (gap ++ operand)))) := by
  intro rest fuel separate stops loose enough
  obtain ⟨fuel, rfl⟩ := Nat.exists_eq_add_one.2 (Nat.zero_lt_of_lt enough)
  have proper := unary_proper spelled
  have positive := List.length_pos_iff.2 proper.isToken.nonempty
  have ends : Separate operand rest := by
    rw [← List.append_assoc] at separate
    exact separate.last some
  have here : skipWs ⟨place, lexeme.text.toList ++ (gap ++ (operand ++ rest))⟩ =
      ⟨place, lexeme.text.toList ++ (gap ++ (operand ++ rest))⟩ :=
    skipWs_here (proper.isToken.stops.append _ proper.isToken.nonempty)
  have apartRest : Apart lexeme.text.toList (gap ++ (operand ++ rest)) := by
    rw [← List.append_assoc]
    exact apart.extend (by simp [some]) rest
  have found := lexeme_hit lexeme proper place gap_nil apartRest
  simp only [List.nil_append, List.length_nil, Nat.add_zero] at found
  have read := exact rest fuel ends stops loose (by
    simp only [List.length_append] at enough ⊢
    omega)
  rw [← (unary_passesBlanks fuel).gap _ blank (visible.append rest some)] at read
  have missed : ∀ other : Lexeme,
      ¬ other.text.toList <+: lexeme.text.toList ++ (gap ++ (operand ++ rest)) →
      other.eat ⟨place, lexeme.text.toList ++ (gap ++ (operand ++ rest))⟩ =
        (false, ⟨place, lexeme.text.toList ++ (gap ++ (operand ++ rest))⟩) := by
    intro other differs
    rw [lexeme_miss other _ (by rw [here]; exact differs), here]
  have length : (lexeme.text.toList ++ (gap ++ operand)).length =
      lexeme.text.toList.length + gap.length + operand.length := by
    simp only [List.length_append, Nat.add_assoc]
  rw [spanAt, length]
  simp only [List.append_assoc, ← Nat.add_assoc]
  cases op with
  | not =>
    simp only [UnaryOp.spellings, List.mem_cons, List.not_mem_nil, or_false] at spelled
    rcases spelled with rfl | rfl
    · have bang : eat "!" _ = _ := found
      simp only [unary, here, bang, read, bind, Except.bind, spanFrom]
    · have noBang : eat "!" _ = _ := missed (.symbol "!") (by simp [Lexeme.text])
      simp only [unary, here, noBang, found, read, bind, Except.bind, spanFrom]
  | neg =>
    simp only [UnaryOp.spellings, List.mem_cons, List.not_mem_nil, or_false] at spelled
    subst spelled
    have noBang : eat "!" _ = _ := missed (.symbol "!") (by simp [Lexeme.text])
    have noWord := missed (.word "not") (by simp [Lexeme.text])
    have minus : eat "-" _ = _ := found
    simp only [unary, here, noBang, noWord, minus, read, bind, Except.bind, spanFrom]

end Exact

end Semasm.Contract
