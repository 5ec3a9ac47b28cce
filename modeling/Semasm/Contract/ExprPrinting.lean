import Semasm.Contract.ExprParser

/-!
# Printed expressions

What it means for a text to print an expression. Every operator may be written
as a symbol or as a word where it has both, gaps of blanks may stand before every
token, and an expression may be put in parentheses wherever one may stand. A gap
is needed only where two words would run together. The levels are those of the
grammar: a binary operator takes a left operand of its own level and a right
operand of the next one, so it groups to the left.
-/

namespace Semasm.Contract

open Library.Scanning ExprParser

/-- The empty span. -/
def noSpan : SourceSpan := ⟨0, 0⟩

mutual

/-- The expression without its spans. -/
def Expr.erase : Expr → Expr
  | .int value _ => .int value noSpan
  | .bool value _ => .bool value noSpan
  | .ident name _ => .ident name noSpan
  | .member base field _ => .member base.erase field noSpan
  | .call callee args _ => .call callee.erase (eraseAll args) noSpan
  | .range start stop _ => .range start.erase stop.erase noSpan
  | .index base position _ => .index base.erase position.erase noSpan
  | .unary op operand _ => .unary op operand.erase noSpan
  | .binary op left right _ => .binary op left.erase right.erase noSpan

/-- The arguments without their spans. -/
def eraseAll : List Expr → List Expr
  | [] => []
  | arg :: rest => arg.erase :: eraseAll rest

end

theorem eraseAll_eq_map (args : List Expr) : eraseAll args = args.map Expr.erase := by
  induction args with
  | nil => rfl
  | cons arg rest inductionHypothesis => rw [eraseAll, inductionHypothesis, List.map_cons]

/-- The level of a binary operator: implication is the loosest. -/
def BinOp.level : BinOp → Nat
  | .implies => 0
  | .or => 1
  | .and => 2
  | .eq | .ne | .lt | .le | .gt | .ge => 3
  | .add | .sub => 4
  | .mul | .div => 5

/-- The spellings of a binary operator. -/
def BinOp.spellings : BinOp → List Lexeme
  | .implies => [.word "implies"]
  | .or => [.symbol "||", .word "or"]
  | .and => [.symbol "&&", .word "and"]
  | .eq => [.symbol "=="]
  | .ne => [.symbol "!="]
  | .lt => [.symbol "<"]
  | .le => [.symbol "<="]
  | .gt => [.symbol ">"]
  | .ge => [.symbol ">="]
  | .add => [.symbol "+"]
  | .sub => [.symbol "-"]
  | .mul => [.symbol "*"]
  | .div => [.symbol "/"]

/-- The spellings of a unary operator. -/
def UnaryOp.spellings : UnaryOp → List Lexeme
  | .not => [.symbol "!", .word "not"]
  | .neg => [.symbol "-"]

/-- The words that are not identifiers. -/
def reserved : List String := ["implies", "or", "and", "not", "true", "false"]

/-- The word of a boolean literal. -/
def boolWord (value : Bool) : String := if value then "true" else "false"

/-- Two texts side by side do not run a word into another. -/
def Apart (left right : List Char) : Prop :=
  ∀ c ∈ left.getLast?, inName c = true → Stops inName right

/-- A printed argument: its text, the gap after it, and what it prints. -/
structure PrintedArg where
  text : List Char
  gap : List Char
  expr : Expr

/-- Printed arguments, with commas between them. -/
def argumentsText : List PrintedArg → List Char
  | [] => []
  | [arg] => arg.text ++ arg.gap
  | arg :: next :: rest => arg.text ++ (arg.gap ++ (",".toList ++ argumentsText (next :: rest)))

/-- The text prints the expression where an expression of the level may stand. -/
inductive Prints : Nat → List Char → Expr → Prop
  | raise {level : Nat} {text : List Char} {expr : Expr} (below : level < 8)
      (tighter : Prints (level + 1) text expr) : Prints level text expr
  | binary {op : BinOp} {lexeme : Lexeme} {left gap right : List Char} {e f : Expr}
      (span : SourceSpan) (spelled : lexeme ∈ op.spellings) (blank : Gap gap)
      (apartLeft : Apart left (gap ++ lexeme.text.toList))
      (apartRight : Apart lexeme.text.toList right) (leftPrints : Prints op.level left e)
      (rightPrints : Prints (op.level + 1) right f) :
      Prints op.level (left ++ (gap ++ (lexeme.text.toList ++ right))) (.binary op e f span)
  | unary {op : UnaryOp} {lexeme : Lexeme} {gap operand : List Char} {e : Expr}
      (span : SourceSpan) (spelled : lexeme ∈ op.spellings) (blank : Gap gap)
      (apart : Apart lexeme.text.toList operand) (prints : Prints 6 operand e) :
      Prints 6 (gap ++ (lexeme.text.toList ++ operand)) (.unary op e span)
  | member {base gap gap' field : List Char} {e : Expr} (span : SourceSpan)
      (blanks : Gap gap ∧ Gap gap') (isName : IsName field) (prints : Prints 7 base e) :
      Prints 7 (base ++ (gap ++ (".".toList ++ (gap' ++ field))))
        (.member e (String.ofList field) span)
  | call {callee gap gap' : List Char} {e : Expr} (span : SourceSpan) (args : List PrintedArg)
      (blanks : Gap gap ∧ Gap gap') (gaps : ∀ arg ∈ args, Gap arg.gap) (prints : Prints 7 callee e)
      (each : ∀ arg ∈ args, Prints 0 arg.text arg.expr) :
      Prints 7 (callee ++ (gap ++ ("(".toList ++ (argumentsText args ++ (gap' ++ ")".toList)))))
        (.call e (args.map PrintedArg.expr) span)
  | index {base gap position gap' : List Char} {e i : Expr} (span : SourceSpan)
      (blanks : Gap gap ∧ Gap gap') (prints : Prints 7 base e) (inside : Prints 0 position i) :
      Prints 7 (base ++ (gap ++ ("[".toList ++ (position ++ (gap' ++ "]".toList)))))
        (.index e i span)
  | indexRange {base gap start dots stop gap' : List Char} {e lo hi : Expr}
      (span inner : SourceSpan) (blanks : Gap gap ∧ Gap dots ∧ Gap gap') (prints : Prints 7 base e)
      (startPrints : Prints 0 start lo) (stopPrints : Prints 0 stop hi) :
      Prints 7 (base ++ (gap ++ ("[".toList ++
          (start ++ (dots ++ ("..".toList ++ (stop ++ (gap' ++ "]".toList))))))))
        (.index e (.range lo hi inner) span)
  | paren {gap inner gap' : List Char} {e : Expr} (blanks : Gap gap ∧ Gap gap')
      (prints : Prints 0 inner e) :
      Prints 8 (gap ++ ("(".toList ++ (inner ++ (gap' ++ ")".toList)))) e
  | ident {gap name : List Char} (span : SourceSpan) (blank : Gap gap) (isName : IsName name)
      (free : String.ofList name ∉ reserved) :
      Prints 8 (gap ++ name) (.ident (String.ofList name) span)
  | int {gap digits : List Char} {value : Int64} {number : Nat} (span : SourceSpan)
      (blank : Gap gap) (numeral : Numeral digits number) (same : value.toInt = number) :
      Prints 8 (gap ++ digits) (.int value span)
  | bool {gap : List Char} (value : Bool) (span : SourceSpan) (blank : Gap gap) :
      Prints 8 (gap ++ (boolWord value).toList) (.bool value span)

/-- The text prints the expression, up to blanks at its end. -/
def PrintsWhole (input : String) (expr : Expr) : Prop :=
  ∃ text gap, input.toList = text ++ gap ∧ Gap gap ∧ Prints 0 text expr

/-- What may stand at a level may stand at a looser one. -/
theorem Prints.looser {text : List Char} {e : Expr} {most : Nat} (prints : Prints most text e)
    (small : most ≤ 8) (level : Nat) (below : level ≤ most) : Prints level text e := by
  induction gap : most - level generalizing level with
  | zero =>
    obtain rfl : level = most := by omega
    exact prints
  | succ gap inductionHypothesis =>
    exact .raise (by omega) (inductionHypothesis (level + 1) (by omega) (by omega))

/-! ## Where printed texts begin and end -/

/-- The first visible symbol of an expression. -/
def startsExpr (c : Char) : Bool :=
  startsName c || isAsciiDigit c || c == '(' || c == '!' || c == '-'

theorem startsExpr_visible {c : Char} (starts : startsExpr c = true) :
    isAsciiWhitespace c = false := by
  rw [← Bool.not_eq_true]
  intro blank
  simp only [isAsciiWhitespace, Bool.or_eq_true, beq_iff_eq] at blank
  rcases blank with (((rfl | rfl) | rfl) | rfl) | rfl <;> exact absurd starts (by decide)

theorem startsName_startsExpr {c : Char} (starts : startsName c = true) : startsExpr c = true := by
  simp [startsExpr, starts]

theorem isDigit_startsExpr {c : Char} (digit : isAsciiDigit c = true) : startsExpr c = true := by
  simp [startsExpr, digit]

/-- A printed expression shows one of these symbols first. -/
def Begins (text : List Char) : Prop :=
  ∃ gap c more, text = gap ++ c :: more ∧ Gap gap ∧ startsExpr c = true

theorem Begins.append {text : List Char} (begins : Begins text) (rest : List Char) :
    Begins (text ++ rest) := by
  obtain ⟨gap, c, more, rfl, blank, starts⟩ := begins
  exact ⟨gap, c, more ++ rest, by simp, blank, starts⟩

theorem Begins.nonempty {text : List Char} (begins : Begins text) : text ≠ [] := by
  obtain ⟨gap, c, more, rfl, _⟩ := begins
  simp

/-- A symbol that begins no expression does not come next. -/
theorem Begins.other {text : List Char} (begins : Begins text) (token : String) {c : Char}
    {more : List Char} (shape : token.toList = c :: more) (other : startsExpr c = false) (pos : Nat)
    (rest : List Char) : ¬ token.toList <+: (skipWs ⟨pos, text ++ rest⟩).rest := by
  obtain ⟨gap, d, more', rfl, blank, starts⟩ := begins
  have skipped := skip_gap isAsciiWhitespace pos blank
    ((stops_cons isAsciiWhitespace d (more' ++ rest)).2 (startsExpr_visible starts))
  rw [List.append_assoc, List.cons_append, skipWs, skipped, shape]
  simp only [List.cons_prefix_cons, not_and]
  rintro rfl
  rw [starts] at other
  cases other

theorem Prints.begins {level : Nat} {text : List Char} {expr : Expr}
    (prints : Prints level text expr) : Begins text := by
  induction prints with
  | raise _ _ inductionHypothesis => exact inductionHypothesis
  | binary _ _ _ _ _ _ _ inductionHypothesis _ => exact inductionHypothesis.append _
  | @unary op lexeme gap operand _ _ spelled blank _ _ _ =>
    have starts : ∃ c more, lexeme.text.toList = c :: more ∧ startsExpr c = true := by
      cases op <;> simp only [UnaryOp.spellings, List.mem_cons, List.not_mem_nil, or_false] at spelled
      · rcases spelled with rfl | rfl <;> exact ⟨_, _, rfl, by decide⟩
      · subst spelled
        exact ⟨_, _, rfl, by decide⟩
    obtain ⟨c, more, shape, starts⟩ := starts
    exact ⟨gap, c, more ++ operand, by rw [shape, List.cons_append], blank, starts⟩
  | member _ _ _ _ inductionHypothesis => exact inductionHypothesis.append _
  | call _ _ _ _ _ _ inductionHypothesis _ => exact inductionHypothesis.append _
  | index _ _ _ _ inductionHypothesis _ => exact inductionHypothesis.append _
  | indexRange _ _ _ _ _ _ inductionHypothesis _ _ => exact inductionHypothesis.append _
  | @paren gap _ _ _ blanks _ _ => exact ⟨gap, '(', _, rfl, blanks.1, by decide⟩
  | @ident gap name _ blank isName _ =>
    obtain ⟨⟨c, first, starts⟩, _⟩ := isName
    obtain ⟨more, rfl⟩ := List.head?_eq_some_iff.1 first
    exact ⟨gap, c, more, rfl, blank, startsName_startsExpr starts⟩
  | @int gap digits _ _ _ blank numeral _ =>
    obtain ⟨c, more, rfl⟩ := List.exists_cons_of_ne_nil numeral.nonempty
    exact ⟨gap, c, more, rfl, blank, isDigit_startsExpr (numeral.1 c (List.mem_cons_self ..))⟩
  | @bool gap value _ blank =>
    cases value <;> exact ⟨gap, _, _, rfl, blank, by decide⟩

/-- What follows decides nothing more than what it begins with. -/
theorem Apart.extend {left right : List Char} (apart : Apart left right) (nonempty : right ≠ [])
    (rest : List Char) : Apart left (right ++ rest) :=
  fun c last inside => (apart c last inside).append rest nonempty

/-- The end of a text is the end of its last part. -/
theorem Apart.last {front back rest : List Char} (apart : Apart (front ++ back) rest) :
    Apart back rest := by
  intro c last
  refine apart c ?_
  rw [Option.mem_def] at last ⊢
  rw [List.getLast?_append, last, Option.some_or]

theorem apart_of_stops {left right : List Char} (stops : Stops inName right) : Apart left right :=
  fun _ _ _ => stops

/-- A gap and a symbol run no word into another. -/
theorem apart_symbol (left : List Char) {gap : List Char} (blank : Gap gap) {token : String}
    (isToken : IsToken token) (rest : List Char) (other : Stops inName token.toList) :
    Apart left (gap ++ (token.toList ++ rest)) :=
  apart_of_stops (stops_before_token (fun _ => not_blank_of_inName) blank isToken rest other)

/-- A text of word symbols runs into what begins with one. -/
theorem Apart.stops_of_word {word rest : List Char} (apart : Apart word rest)
    (inside : ∀ c ∈ word, inName c = true) (nonempty : word ≠ []) : Stops inName rest := by
  obtain ⟨front, c, rfl⟩ := List.eq_nil_or_concat word |>.resolve_left nonempty
  exact apart c (by simp) (inside c (by simp))

end Semasm.Contract
