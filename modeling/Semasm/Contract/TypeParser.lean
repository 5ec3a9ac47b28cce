import Semasm.Contract.Checked
import Semasm.Contract.Lexing

/-!
# The semantic type parser

`SemType::parse` tries its keywords one after the other and falls back to an
integer width. A composite reads its delimiters as tokens of their own, and
blanks may stand before every token, but a token is only a list of bytes: nothing
asks that the keyword `const` end where it ends, and a width is read by its value.
-/

namespace Semasm.Contract

open Library.Scanning

namespace TypeParser

/-- Try tokens in turn, each with what the parser does after it. -/
def tryEach (otherwise : Parser SemType) :
    List (String × Parser SemType) → Parser SemType
  | [], cursor => otherwise cursor
  | (token, action) :: rest, cursor =>
    match eat token cursor with
    | (true, after) => action after
    | (false, after) => tryEach otherwise rest after

/-- `parse_digits`. -/
def parseDigits (cursor : Cursor Char) : Except String (UInt64 × Cursor Char) :=
  let (digits, after) := cursor.span isAsciiDigit
  if digits = [] then .error s!"expected digits at byte {cursor.pos}"
  else
    match Text.parseU64 10 digits with
    | some value => .ok (value, after)
    | none => .error s!"invalid number at byte {cursor.pos}"

/-- The widths an integer type may have. -/
def widths : List UInt64 := [8, 16, 32, 64, 128]

/-- `parse_int_width`, after its letter. -/
def parseWidth (signed : Bool) (start : Nat) (cursor : Cursor Char) : Except String (SemType × Cursor Char) := do
  let (bits, cursor) ← parseDigits cursor
  if bits ∈ widths then
    .ok (if signed then .int bits.toUInt16 else .uint bits.toUInt16, cursor)
  else
    .error s!"invalid integer width {bits} at byte {start}: allowed 8, 16, 32, 64, 128"

/-- The refusal of `parse_int_width`. -/
def unknownType (start : Nat) : String :=
  s!"unknown semantic type near byte {start}: expected bool, status, integer width, ptr, " ++
    "slice, array, or opaque"

/-- `parse_int_width`. -/
def parseIntWidth (cursor : Cursor Char) : Except String (SemType × Cursor Char) :=
  tryEach (fun _ => .error (unknownType cursor.pos))
    [("u", parseWidth false cursor.pos), ("i", parseWidth true cursor.pos)] cursor

section Composites

variable (parseType : Parser SemType)

/-- `parse_ptr`. -/
def parsePtr (cursor : Cursor Char) : Except String (SemType × Cursor Char) := do
  let cursor ← expect "<" cursor
  let (isConst, cursor) := eat "const" (skipWs cursor)
  let (inner, cursor) ← parseType (if isConst then skipWs cursor else cursor)
  let cursor ← expect ">" cursor
  .ok (.ptr inner isConst, cursor)

/-- `parse_slice`. -/
def parseSlice (cursor : Cursor Char) : Except String (SemType × Cursor Char) := do
  let cursor ← expect "<" cursor
  let (inner, cursor) ← parseType cursor
  let cursor ← expect ">" cursor
  .ok (.slice inner, cursor)

/-- `parse_array`. -/
def parseArray (cursor : Cursor Char) : Except String (SemType × Cursor Char) := do
  let cursor ← expect "<" cursor
  let (inner, cursor) ← parseType cursor
  let cursor ← expect "," cursor
  let (len, cursor) ← parseDigits (skipWs cursor)
  let cursor ← expect ">" cursor
  .ok (.array inner len, cursor)

end Composites

/-- `parse_opaque`. -/
def parseOpaque (cursor : Cursor Char) : Except String (SemType × Cursor Char) := do
  let cursor ← expect "<" cursor
  let cursor := skipWs cursor
  if cursor.rest.head?.any startsName then
    let (name, cursor) := cursor.span inName
    let cursor ← expect ">" cursor
    .ok (.named (String.ofList name), cursor)
  else .error s!"expected opaque name at byte {cursor.pos}"

/-- The keywords of `parse_type`, in the order it tries them. -/
def keywords (parseType : Parser SemType) :
    List (String × Parser SemType) :=
  [("ptr", parsePtr parseType), ("slice", parseSlice parseType), ("array", parseArray parseType),
    ("opaque", parseOpaque), ("bool", fun cursor => .ok (.bool, cursor)),
    ("status", fun cursor => .ok (.status, cursor)),
    ("usize", fun cursor => .ok (.usize, cursor)), ("isize", fun cursor => .ok (.isize, cursor))]

/-- `parse_type`, with fuel for the nesting. -/
def parseType : Nat → Parser SemType
  | 0, _ => .error ""
  | fuel + 1, cursor => tryEach parseIntWidth (keywords (parseType fuel)) (skipWs cursor)

end TypeParser

open TypeParser in
/-- `SemType::parse`. -/
def SemType.parse (input : String) : Except String (SemType × SourceSpan) := do
  let (ty, cursor) ← parseType (input.toList.length + 1) ⟨0, input.toList⟩
  let cursor := skipWs cursor
  if cursor.rest ≠ [] then .error s!"trailing junk in type starting at byte {cursor.pos}"
  else .ok (ty, ⟨0, toU32 input.utf8ByteSize⟩)

/-- The text that documents a type. -/
def SemType.render : SemType → String
  | .bool => "bool"
  | .status => "status"
  | .uint bits => "u" ++ toString bits
  | .int bits => "i" ++ toString bits
  | .usize => "usize"
  | .isize => "isize"
  | .ptr inner false => "ptr<" ++ inner.render ++ ">"
  | .ptr inner true => "ptr<const " ++ inner.render ++ ">"
  | .slice inner => "slice<" ++ inner.render ++ ">"
  | .array inner len => "array<" ++ inner.render ++ ", " ++ toString len ++ ">"
  | .named name => "opaque<" ++ name ++ ">"

/-- The types of the documented grammar: an integer has one of the five widths,
and an opaque type is called by a name. -/
def SemType.WellFormed : SemType → Prop
  | .bool | .status | .usize | .isize => True
  | .uint bits | .int bits => bits.toUInt64 ∈ TypeParser.widths
  | .ptr inner _ | .slice inner | .array inner _ => inner.WellFormed
  | .named name => IsName name.toList

example : (SemType.parse " ptr<const ptr <u8>>").toOption.map Prod.fst =
    some (.ptr (.ptr (.uint 8) false) true) := by decide +kernel

end Semasm.Contract
