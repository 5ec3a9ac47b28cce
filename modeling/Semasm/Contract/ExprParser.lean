import Semasm.Contract.Expr
import Semasm.Contract.Lexing

/-!
# The expression parser

`Expr::parse` climbs the precedence levels by recursive descent: each binary
level reads an operand of the next level and then, while one of its operators
comes next, another one, grouping to the left. Postfix forms chain the same way.
The loops carry fuel for what remains of the text, and the recursion through
parentheses, arguments and indices carries fuel for the whole text.
-/

namespace Semasm.Contract

open Library.Scanning

/-- The span of a node. -/
def Expr.span : Expr → SourceSpan
  | .int _ span | .bool _ span | .ident _ span | .member _ _ span | .call _ _ span
  | .range _ _ span | .index _ _ span | .unary _ _ span | .binary _ _ _ span => span

namespace ExprParser

/-- `left_start`. -/
def leftStart (expr : Expr) : Nat := expr.span.start.toNat

/-- `span_from`. -/
def spanFrom (start : Nat) (cursor : Cursor Char) : SourceSpan := ⟨toU32 start, toU32 cursor.pos⟩

/-- `String::from_utf8_lossy` on a number of bytes: a character cut off is replaced. -/
def lossyPrefix : Nat → List Char → List Char
  | 0, _ => []
  | _, [] => []
  | budget, c :: rest =>
    if c.utf8Size ≤ budget then c :: lossyPrefix (budget - c.utf8Size) rest else ['\ufffd']

/-- `snippet`. -/
def snippet (cursor : Cursor Char) : String := String.ofList (lossyPrefix 16 cursor.rest)

/-- How an operator is written: as a symbol, or as a word that ends there. -/
inductive Lexeme where
  | symbol (text : String)
  | word (text : String)
deriving DecidableEq

/-- The bytes of a lexeme. -/
def Lexeme.text : Lexeme → String
  | .symbol text | .word text => text

/-- `eat_op` for a symbol, `eat_kw` for a word. -/
def Lexeme.eat : Lexeme → Cursor Char → Bool × Cursor Char
  | .symbol text, cursor => cursor.eat isAsciiWhitespace text.toList
  | .word text, cursor => cursor.eatWord isAsciiWhitespace inName text.toList

/-- Try the operators of a level in turn. -/
def eatOperator : List (Lexeme × BinOp) → Cursor Char → Option BinOp × Cursor Char
  | [], cursor => (none, cursor)
  | (lexeme, op) :: rest, cursor =>
    match lexeme.eat cursor with
    | (true, after) => (some op, after)
    | (false, after) => eatOperator rest after

/-- The loop of a binary level, after its first operand. -/
def chain (operators : List (Lexeme × BinOp)) (operand : Parser Expr) : Nat → Expr → Parser Expr
  | 0, _, _ => .error ""
  | fuel + 1, left, cursor =>
    match eatOperator operators cursor with
    | (none, after) => .ok (left, after)
    | (some op, after) => do
      let (right, ended) ← operand after
      chain operators operand fuel (.binary op left right (spanFrom (leftStart left) ended)) ended

/-- A binary level: operands of the next level, grouped to the left. -/
def binaryLevel (operators : List (Lexeme × BinOp)) (operand : Parser Expr)
    (cursor : Cursor Char) : Except String (Expr × Cursor Char) := do
  let (left, cursor) ← operand cursor
  chain operators operand (cursor.rest.length + 1) left cursor

/-- `parse_ident_raw`. -/
def parseIdentRaw (cursor : Cursor Char) : Except String (String × Cursor Char) :=
  let cursor := skipWs cursor
  if cursor.rest.head?.any startsName then
    let (name, after) := cursor.span inName
    .ok (String.ofList name, after)
  else .error s!"expected identifier at byte {cursor.pos}"

/-- `parse_int_literal`. -/
def parseIntLiteral (cursor : Cursor Char) : Except String (Int64 × Cursor Char) :=
  let (digits, after) := cursor.span isAsciiDigit
  match Text.parseI64 10 digits with
  | some value => .ok (value, after)
  | none => .error s!"invalid integer at byte {cursor.pos}"

section Levels

variable (parseImplies : Parser Expr)

/-- `parse_primary`. -/
def parsePrimary (cursor : Cursor Char) : Except String (Expr × Cursor Char) :=
  let cursor := skipWs cursor
  let start := cursor.pos
  match eat "(" cursor with
  | (true, after) => do
    let (expr, after) ← parseImplies after
    let after ← expect ")" after
    .ok (expr, after)
  | (false, cursor) =>
  match (Lexeme.word "true").eat cursor with
  | (true, after) => .ok (.bool true (spanFrom start after), after)
  | (false, cursor) =>
  match (Lexeme.word "false").eat cursor with
  | (true, after) => .ok (.bool false (spanFrom start after), after)
  | (false, cursor) =>
  if cursor.rest.head?.any isAsciiDigit then do
    let (value, after) ← parseIntLiteral cursor
    .ok (.int value (spanFrom start after), after)
  else if cursor.rest.head?.any startsName then do
    let (name, after) ← parseIdentRaw cursor
    .ok (.ident name (spanFrom start after), after)
  else .error s!"invalid expression at byte {start} near `{snippet cursor}`"

/-- The arguments of a call after its parenthesis, when there are any. -/
def arguments : Nat → List Expr → Cursor Char → Except String (List Expr × Cursor Char)
  | 0, _, _ => .error ""
  | fuel + 1, args, cursor => do
    let (arg, cursor) ← parseImplies cursor
    match eat ")" (skipWs cursor) with
    | (true, after) => .ok (args ++ [arg], after)
    | (false, cursor) =>
      match eat "," cursor with
      | (true, after) => arguments fuel (args ++ [arg]) after
      | (false, cursor) => .error s!"expected `,` or `)` in call at byte {cursor.pos}"

/-- The arguments of a call. -/
def callArguments (cursor : Cursor Char) : Except String (List Expr × Cursor Char) :=
  match eat ")" (skipWs cursor) with
  | (true, after) => .ok ([], after)
  | (false, cursor) => arguments parseImplies (cursor.rest.length + 1) [] cursor

/-- `parse_range_or_expr`. -/
def parseRangeOrExpr (cursor : Cursor Char) : Except String (Expr × Cursor Char) := do
  let cursor := skipWs cursor
  let startPos := cursor.pos
  let (start, cursor) ← parseImplies cursor
  match eat ".." (skipWs cursor) with
  | (true, after) => do
    let (stop, ended) ← parseImplies after
    .ok (.range start stop (spanFrom startPos ended), ended)
  | (false, cursor) => .ok (start, cursor)

/-- The loop of `parse_postfix`. A dot before another dot belongs to a range and
is left where it is. -/
def postfixLoop : Nat → Expr → Parser Expr
  | 0, _, _ => .error ""
  | fuel + 1, expr, cursor =>
    let cursor := skipWs cursor
    match eat "." cursor with
    | (true, after) =>
      if after.rest.head? = some '.' then .ok (expr, cursor)
      else do
        let (field, ended) ← parseIdentRaw after
        postfixLoop fuel (.member expr field (spanFrom after.pos ended)) ended
    | (false, cursor) =>
    match eat "(" cursor with
    | (true, after) => do
      let (args, ended) ← callArguments parseImplies after
      postfixLoop fuel (.call expr args (spanFrom (leftStart expr) ended)) ended
    | (false, cursor) =>
    match eat "[" cursor with
    | (true, after) => do
      let (index, ended) ← parseRangeOrExpr parseImplies after
      let ended ← expect "]" ended
      postfixLoop fuel (.index expr index (spanFrom (leftStart expr) ended)) ended
    | (false, cursor) => .ok (expr, cursor)

/-- `parse_postfix`. -/
def parsePostfix (cursor : Cursor Char) : Except String (Expr × Cursor Char) := do
  let (expr, cursor) ← parsePrimary parseImplies cursor
  postfixLoop parseImplies (cursor.rest.length + 1) expr cursor

/-- `parse_unary`, with fuel for its own nesting. -/
def unary : Nat → Parser Expr
  | 0, _ => .error ""
  | fuel + 1, cursor =>
    let cursor := skipWs cursor
    let start := cursor.pos
    let prefixed (op : UnaryOp) (after : Cursor Char) : Except String (Expr × Cursor Char) := do
      let (expr, ended) ← unary fuel after
      .ok (.unary op expr (spanFrom start ended), ended)
    match eat "!" cursor with
    | (true, after) => prefixed .not after
    | (false, cursor) =>
    match (Lexeme.word "not").eat cursor with
    | (true, after) => prefixed .not after
    | (false, cursor) =>
    match eat "-" cursor with
    | (true, after) => prefixed .neg after
    | (false, cursor) => parsePostfix parseImplies cursor

/-- `parse_unary`. -/
def parseUnary (cursor : Cursor Char) : Except String (Expr × Cursor Char) :=
  let cursor := skipWs cursor
  unary parseImplies (cursor.rest.length + 1) cursor

/-- `parse_mul`. -/
def parseMul : Parser Expr :=
  binaryLevel [(.symbol "*", .mul), (.symbol "/", .div)] (parseUnary parseImplies)

/-- `parse_add`. -/
def parseAdd : Parser Expr :=
  binaryLevel [(.symbol "+", .add), (.symbol "-", .sub)] (parseMul parseImplies)

/-- `parse_cmp`. -/
def parseCmp : Parser Expr :=
  binaryLevel [(.symbol "==", .eq), (.symbol "!=", .ne), (.symbol "<=", .le), (.symbol ">=", .ge),
    (.symbol "<", .lt), (.symbol ">", .gt)] (parseAdd parseImplies)

/-- `parse_and`. -/
def parseAnd : Parser Expr :=
  binaryLevel [(.symbol "&&", .and), (.word "and", .and)] (parseCmp parseImplies)

/-- `parse_or`. -/
def parseOr : Parser Expr :=
  binaryLevel [(.symbol "||", .or), (.word "or", .or)] (parseAnd parseImplies)

end Levels

/-- `parse_implies`, with fuel for the nesting of parentheses. -/
def parseImplies : Nat → Parser Expr
  | 0, _ => .error ""
  | fuel + 1, cursor => binaryLevel [(.word "implies", .implies)] (parseOr (parseImplies fuel)) cursor

end ExprParser

open ExprParser in
/-- `Expr::parse`. -/
def Expr.parse (input : String) : Except String Expr := do
  let (expr, cursor) ← parseImplies (input.toList.length + 1) ⟨0, input.toList⟩
  let cursor := skipWs cursor
  if cursor.rest ≠ [] then
    .error s!"trailing junk in expression at byte {cursor.pos} near `{snippet cursor}`"
  else .ok expr

end Semasm.Contract
