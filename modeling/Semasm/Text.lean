import Mathlib.Algebra.Ring.Nat

/-!
# The string operations of the source

Rust strings are read here as their lists of characters. Each operation follows
the documented behaviour of the standard-library function it is named for:
trimming removes Unicode white space, ASCII case folding leaves other letters
alone, and number parsing accepts one sign, needs a digit and refuses a value
outside the type.
-/

namespace Semasm.Text

/-- The characters with the Unicode `White_Space` property. -/
def isWhitespace (c : Char) : Bool :=
  let code := c.toNat
  (9 ≤ code && code ≤ 13) || code == 32 || code == 0x85 || code == 0xA0 || code == 0x1680 ||
    (0x2000 ≤ code && code ≤ 0x200A) || code == 0x2028 || code == 0x2029 || code == 0x202F ||
    code == 0x205F || code == 0x3000

/-- `str::to_ascii_lowercase`. -/
def asciiLower (text : String) : String := String.ofList (text.toList.map Char.toLower)

/-- `str::trim`, on characters. -/
def trimChars (text : List Char) : List Char :=
  ((text.dropWhile isWhitespace).reverse.dropWhile isWhitespace).reverse

/-- `str::trim`. -/
def trim (text : String) : String := String.ofList (trimChars text.toList)

/-- `str::strip_prefix`, on characters. -/
def stripPrefix : List Char → List Char → Option (List Char)
  | [], text => some text
  | _ :: _, [] => none
  | expected :: rest, c :: text => if expected = c then stripPrefix rest text else none

/-- `str::starts_with`. -/
def startsWith (text start : String) : Bool := start.toList.isPrefixOf text.toList

/-- `str::ends_with`. -/
def endsWith (text ending : String) : Bool := ending.toList.isSuffixOf text.toList

/-- Occurrence of a list of characters at some position. -/
def occursIn (needle : List Char) : List Char → Bool
  | [] => needle.isEmpty
  | c :: text => needle.isPrefixOf (c :: text) || occursIn needle text

/-- `str::contains` with a string pattern. -/
def contains (text needle : String) : Bool := occursIn needle.toList text.toList

/-- The value of an ASCII digit in a radix of at most sixteen. -/
def digitValue (radix : Nat) (c : Char) : Option Nat :=
  let code := c.toNat
  let value :=
    if 48 ≤ code ∧ code ≤ 57 then some (code - 48)
    else if 97 ≤ code ∧ code ≤ 102 then some (code - 87)
    else if 65 ≤ code ∧ code ≤ 70 then some (code - 55)
    else none
  value.filter (· < radix)

/-- Fold digits onto an accumulated value. -/
def foldDigits (radix : Nat) : Nat → List Char → Option Nat
  | value, [] => some value
  | value, c :: rest =>
    match digitValue radix c with
    | some digit => foldDigits radix (value * radix + digit) rest
    | none => none

/-- A nonempty string of digits as a natural number. -/
def parseDigits (radix : Nat) : List Char → Option Nat
  | [] => none
  | c :: rest => foldDigits radix 0 (c :: rest)

/-- `u64::from_str_radix`: one plus sign is accepted. -/
def parseU64 (radix : Nat) (text : List Char) : Option UInt64 :=
  let digits := match text with
    | '+' :: rest => rest
    | other => other
  match parseDigits radix digits with
  | some value => if value < 2 ^ 64 then some (UInt64.ofNat value) else none
  | none => none

/-- `i64::from_str_radix`: one sign of either kind is accepted. -/
def parseI64 (radix : Nat) (text : List Char) : Option Int64 :=
  match text with
  | '-' :: rest =>
    match parseDigits radix rest with
    | some value => if value ≤ 2 ^ 63 then some (Int64.ofInt (-value)) else none
    | none => none
  | '+' :: rest =>
    match parseDigits radix rest with
    | some value => if value < 2 ^ 63 then some (Int64.ofInt value) else none
    | none => none
  | other =>
    match parseDigits radix other with
    | some value => if value < 2 ^ 63 then some (Int64.ofInt value) else none
    | none => none

/-- `str::parse::<u8>`: one plus sign is accepted. -/
def parseU8 (text : List Char) : Option UInt8 :=
  let digits := match text with
    | '+' :: rest => rest
    | other => other
  match parseDigits 10 digits with
  | some value => if value < 2 ^ 8 then some (UInt8.ofNat value) else none
  | none => none

/-- `str::split_whitespace`. -/
def splitWhitespace (text : List Char) : List (List Char) :=
  (text.splitOnP isWhitespace).filter (fun part => !part.isEmpty)

/-- What follows the first occurrence of a list of characters. -/
def afterFirst (needle : List Char) : List Char → Option (List Char)
  | [] => if needle.isEmpty then some [] else none
  | c :: text =>
    match stripPrefix needle (c :: text) with
    | some rest => some rest
    | none => afterFirst needle text

/-- What comes before the last occurrence of a character. -/
def beforeLast (stop : Char) (text : List Char) : Option (List Char) :=
  if stop ∈ text then some ((text.reverse.dropWhile (fun c => c != stop)).drop 1).reverse else none

/-- `str::strip_suffix` of one character. -/
def stripSuffix (stop : Char) (text : List Char) : Option (List Char) :=
  if text.getLast? = some stop then some text.dropLast else none

/-- `str::split_once` at a character. -/
def splitOnce (stop : Char) (text : List Char) : Option (List Char × List Char) :=
  if stop ∈ text then
    some (text.takeWhile (fun c => c != stop), (text.dropWhile (fun c => c != stop)).drop 1)
  else none

/-- `u8::is_ascii_digit` for every byte of the text. -/
def allAsciiDigits (text : List Char) : Bool := text.all (fun c => 48 ≤ c.toNat && c.toNat ≤ 57)

/-- Strip a text from the front a number of times at most. -/
def stripPrefixes (start : List Char) : Nat → List Char → List Char
  | 0, text => text
  | times + 1, text =>
    match stripPrefix start text with
    | some rest => stripPrefixes start times rest
    | none => text

/-- `str::trim_start_matches` with a string pattern. -/
def trimStartMatches (start text : List Char) : List Char := stripPrefixes start text.length text

/-- `str::trim_start_matches` with a character. -/
def trimStartChar (c : Char) (text : List Char) : List Char := text.dropWhile (· == c)

/-- `str::trim_end_matches` with a character. -/
def trimEndChar (c : Char) (text : List Char) : List Char :=
  (text.reverse.dropWhile (· == c)).reverse

/-- The `{:+}` rendering of a signed integer. -/
def signed (value : Int) : String := if 0 ≤ value then s!"+{value}" else s!"{value}"

example : asciiLower "Mov" = "mov" := by decide

example : parseI64 10 "-12".toList = some (-12) := by decide

end Semasm.Text
