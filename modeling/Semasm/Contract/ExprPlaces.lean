import Semasm.Contract.ExprLevels

/-!
# Expressions where they stand

A reading of a text says which tokens it consists of, where each of them stands
and which tree with which spans they make. Blanks before a token belong to no
text; blanks behind an operand belong to it, because the parser passes them
before it sees that the operand is over. The spans are those the parser records:
a call, an index and a binary expression begin where the span of their left part
begins. A strict reading has only left parts whose span begins at their first
symbol.
-/

namespace Semasm.Contract

open Library.Scanning ExprParser

/-- The span of a text at a place. -/
def spanAt (place : Nat) (text : List Char) : SourceSpan :=
  ⟨toU32 place, toU32 (place + text.length)⟩

/-- The span of a text whose left part has a span already. -/
def spanOver (left : Expr) (place : Nat) (text : List Char) : SourceSpan :=
  ⟨left.span.start, toU32 (place + text.length)⟩

/-- A member access stands at the front: its span begins at its field. -/
def Expr.headMember : Expr → Bool
  | .member _ _ _ => true
  | .call callee _ _ => callee.headMember
  | .index base _ _ => base.headMember
  | .binary _ left _ _ => left.headMember
  | _ => false

/-- A left part that begins with neither a member access nor a parenthesis. -/
def Flush (text : List Char) (left : Expr) : Prop :=
  left.headMember = false ∧ text.head? ≠ some '('

/-- The last word of a text does not run into what follows: a name ends where no
symbol of a name follows, a numeral where no digit does. -/
def Separate (left right : List Char) : Prop :=
  Apart left right ∨ ∃ front digits, left = front ++ digits ∧ digits ≠ [] ∧
    (∀ c ∈ digits, isAsciiDigit c = true) ∧ Apart front digits ∧ Stops isAsciiDigit right

/-- An argument where it stands: the gap before it, its place and its text. -/
structure PlacedArg where
  gap : List Char
  place : Nat
  text : List Char
  expr : Expr

/-- Arguments one after the other, with commas between them. -/
def placedText : List PlacedArg → List Char
  | [] => []
  | [arg] => arg.gap ++ arg.text
  | arg :: next :: rest => arg.gap ++ (arg.text ++ (',' :: placedText (next :: rest)))

/-- Every argument stands behind its gap and the comma before it. -/
def Aligned : Nat → List PlacedArg → Prop
  | _, [] => True
  | start, arg :: rest =>
    arg.place = start + arg.gap.length ∧ Aligned (arg.place + arg.text.length + 1) rest

/-- The names a primary expression does not read as identifiers. -/
def keywords : List String := ["true", "false", "not"]

/-- The text reads as the expression, at a level and a place. Level 9 is what an
index may hold, level 8 a primary, level 7 a postfix and level 6 a unary
expression. -/
inductive ReadsAs (strict : Prop) : Nat → Nat → List Char → Expr → Prop
  | ident {place : Nat} {name : List Char} (isName : IsName name)
      (free : String.ofList name ∉ keywords) :
      ReadsAs strict 8 place name (.ident (String.ofList name) (spanAt place name))
  | int {place : Nat} {digits : List Char} {value : Int64} {number : Nat}
      (numeral : Numeral digits number) (same : value.toInt = number) :
      ReadsAs strict 8 place digits (.int value (spanAt place digits))
  | bool (place : Nat) (value : Bool) :
      ReadsAs strict 8 place (boolWord value).toList
        (.bool value (spanAt place (boolWord value).toList))
  | paren {place : Nat} {gap inner : List Char} {e : Expr} (blank : Gap gap)
      (reads : ReadsAs strict 0 (place + 1 + gap.length) inner e) :
      ReadsAs strict 8 place ('(' :: (gap ++ (inner ++ [')']))) e
  | primary {place : Nat} {text : List Char} {e : Expr} (reads : ReadsAs strict 8 place text e) :
      ReadsAs strict 7 place text e
  | member {place : Nat} {base gap gap' field : List Char} {e : Expr}
      (blanks : Gap gap ∧ Gap gap') (isName : IsName field) (reads : ReadsAs strict 7 place base e) :
      ReadsAs strict 7 place (base ++ (gap ++ ('.' :: (gap' ++ field))))
        (.member e (String.ofList field)
          (spanAt (place + base.length + gap.length + 1) (gap' ++ field)))
  | call {place : Nat} {callee gap gap' : List Char} {e : Expr} {args : List PlacedArg}
      (blanks : Gap gap ∧ Gap gap') (gaps : ∀ arg ∈ args, Gap arg.gap)
      (closes : args ≠ [] → gap' = [])
      (aligned : Aligned (place + callee.length + gap.length + 1) args)
      (reads : ReadsAs strict 7 place callee e)
      (each : ∀ arg ∈ args, ReadsAs strict 0 arg.place arg.text arg.expr)
      (flush : strict → Flush callee e) :
      ReadsAs strict 7 place (callee ++ (gap ++ ('(' :: (placedText args ++ (gap' ++ [')'])))))
        (.call e (args.map PlacedArg.expr) (spanOver e place
          (callee ++ (gap ++ ('(' :: (placedText args ++ (gap' ++ [')'])))))))
  | index {place : Nat} {base gap gap' position : List Char} {e i : Expr}
      (blanks : Gap gap ∧ Gap gap') (reads : ReadsAs strict 7 place base e)
      (inside : ReadsAs strict 9 (place + base.length + gap.length + 1 + gap'.length) position i)
      (flush : strict → Flush base e) :
      ReadsAs strict 7 place (base ++ (gap ++ ('[' :: (gap' ++ (position ++ [']'])))))
        (.index e i (spanOver e place (base ++ (gap ++ ('[' :: (gap' ++ (position ++ [']'])))))))
  | close {place : Nat} {text gap : List Char} {e : Expr} (blank : Gap gap)
      (reads : ReadsAs strict 7 place text e) : ReadsAs strict 6 place (text ++ gap) e
  | unary {place : Nat} {op : UnaryOp} {lexeme : Lexeme} {gap operand : List Char} {e : Expr}
      (spelled : lexeme ∈ op.spellings) (blank : Gap gap)
      (apart : Apart lexeme.text.toList (gap ++ operand))
      (reads : ReadsAs strict 6 (place + lexeme.text.toList.length + gap.length) operand e) :
      ReadsAs strict 6 place (lexeme.text.toList ++ (gap ++ operand))
        (.unary op e (spanAt place (lexeme.text.toList ++ (gap ++ operand))))
  | raise {level place : Nat} {text : List Char} {e : Expr} (binary : level < 6)
      (reads : ReadsAs strict (level + 1) place text e) : ReadsAs strict level place text e
  | binary {level place : Nat} {op : BinOp} {lexeme : Lexeme} {left gap right : List Char}
      {e f : Expr} (listed : (lexeme, op) ∈ operators level) (blank : Gap gap)
      (apartLeft : Separate left lexeme.text.toList)
      (apartRight : Apart lexeme.text.toList (gap ++ right))
      (leftReads : ReadsAs strict level place left e)
      (rightReads : ReadsAs strict (level + 1)
        (place + left.length + lexeme.text.toList.length + gap.length) right f)
      (flush : strict → Flush left e) :
      ReadsAs strict level place (left ++ (lexeme.text.toList ++ (gap ++ right)))
        (.binary op e f (spanOver e place (left ++ (lexeme.text.toList ++ (gap ++ right)))))
  | plain {place : Nat} {text : List Char} {e : Expr} (reads : ReadsAs strict 0 place text e) :
      ReadsAs strict 9 place text e
  | range {place : Nat} {start gap stop : List Char} {lo hi : Expr} (blank : Gap gap)
      (startReads : ReadsAs strict 0 place start lo)
      (stopReads : ReadsAs strict 0 (place + start.length + 2 + gap.length) stop hi) :
      ReadsAs strict 9 place (start ++ ('.' :: '.' :: (gap ++ stop)))
        (.range lo hi (spanAt place (start ++ ('.' :: '.' :: (gap ++ stop)))))

/-- The whole input reads as the expression. -/
def ReadsWhole (strict : Prop) (input : String) (expr : Expr) : Prop :=
  ∃ gap text, input.toList = gap ++ text ∧ Gap gap ∧ ReadsAs strict 0 gap.length text expr

end Semasm.Contract
