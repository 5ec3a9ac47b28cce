import Mathlib.Tactic.ByContra
import Mathlib.Tactic.IntervalCases
import Mathlib.Tactic.Tauto
import Semasm.Library.Scanning
import Semasm.Text

/-!
# The symbols of contract texts

The two hand-written parsers of the contract crate read bytes and accept ASCII
only outside of names they never see, so they are read here over characters: a
character outside ASCII belongs to no class and matches no token. Numbers are
the decimal numerals of the standard library without their sign.
-/

namespace Semasm.Contract

open Library.Scanning

/-- `u8::is_ascii_whitespace`. -/
def isAsciiWhitespace (c : Char) : Bool :=
  c == ' ' || c == '\t' || c == '\n' || c == '\x0c' || c == '\r'

/-- `u8::is_ascii_digit`. -/
def isAsciiDigit (c : Char) : Bool := 48 ≤ c.toNat && c.toNat ≤ 57

/-- `u8::is_ascii_alphabetic`. -/
def isAsciiAlphabetic (c : Char) : Bool :=
  (65 ≤ c.toNat && c.toNat ≤ 90) || (97 ≤ c.toNat && c.toNat ≤ 122)

/-- The first byte of a name: a letter or an underscore. -/
def startsName (c : Char) : Bool := isAsciiAlphabetic c || c == '_'

/-- A byte of a name: `is_ascii_alphanumeric` or an underscore. -/
def inName (c : Char) : Bool := isAsciiAlphabetic c || isAsciiDigit c || c == '_'

/-- A gap between two tokens. -/
def Gap (text : List Char) : Prop := ∀ c ∈ text, isAsciiWhitespace c = true

@[simp] theorem gap_nil : Gap [] := by simp [Gap]

/-- A name: a first byte and bytes of a name. -/
def IsName (text : List Char) : Prop :=
  (∃ c ∈ text.head?, startsName c = true) ∧ ∀ c ∈ text, inName c = true

/-- A decimal numeral of a number, leading zeros allowed. -/
def Numeral (digits : List Char) (value : Nat) : Prop :=
  (∀ c ∈ digits, isAsciiDigit c = true) ∧ Text.parseDigits 10 digits = some value

/-- A computation that succeeds did so in both its parts. -/
theorem ok_of_bind {ε α β : Type} {first : Except ε α} {second : α → Except ε β} {result : β}
    (succeeds : (first >>= second) = .ok result) :
    ∃ value, first = .ok value ∧ second value = .ok result := by
  cases first with
  | error message => exact absurd succeeds (by simp [bind, Except.bind])
  | ok value => exact ⟨value, rfl, succeeds⟩

/-- A digit is no blank. -/
theorem not_blank_of_digit {c : Char} (digit : isAsciiDigit c = true) :
    isAsciiWhitespace c = false := by
  by_contra blank
  simp only [isAsciiWhitespace, Bool.not_eq_false, Bool.or_eq_true, beq_iff_eq] at blank
  rcases blank with (((rfl | rfl) | rfl) | rfl) | rfl <;> exact absurd digit (by decide)

/-- A byte of a name is no blank. -/
theorem not_blank_of_inName {c : Char} (inside : inName c = true) :
    isAsciiWhitespace c = false := by
  by_contra blank
  simp only [isAsciiWhitespace, Bool.not_eq_false, Bool.or_eq_true, beq_iff_eq] at blank
  rcases blank with (((rfl | rfl) | rfl) | rfl) | rfl <;> exact absurd inside (by decide)

theorem Numeral.nonempty {digits : List Char} {value : Nat} (numeral : Numeral digits value) :
    digits ≠ [] := by
  rintro rfl
  exact absurd numeral.2 (by simp [Text.parseDigits])

theorem Numeral.stops_blank {digits : List Char} {value : Nat} (numeral : Numeral digits value) :
    Stops isAsciiWhitespace digits :=
  fun c first => not_blank_of_digit (numeral.1 c (List.mem_of_mem_head? first))

theorem IsName.nonempty {name : List Char} (named : IsName name) : name ≠ [] := by
  rintro rfl
  simp [IsName] at named

theorem IsName.stops_blank {name : List Char} (named : IsName name) :
    Stops isAsciiWhitespace name :=
  fun c first => not_blank_of_inName (named.2 c (List.mem_of_mem_head? first))

/-- Digits carry no sign. -/
theorem no_sign {digits : List Char} (all : ∀ c ∈ digits, isAsciiDigit c = true) {c : Char}
    {rest : List Char} (shape : digits = c :: rest) (sign : c = '+' ∨ c = '-') : False := by
  have digit : isAsciiDigit c = true := all c (by simp [shape])
  rcases sign with rfl | rfl <;> exact absurd digit (by decide)

/-- `u64::from_str` on digits reads their numeral. -/
theorem parse_u64_digits {digits : List Char} (all : ∀ c ∈ digits, isAsciiDigit c = true)
    (value : UInt64) :
    Text.parseU64 10 digits = some value ↔ Numeral digits value.toNat := by
  have unsigned : Text.parseU64 10 digits =
      (Text.parseDigits 10 digits).bind
        (fun value => if value < 2 ^ 64 then some (UInt64.ofNat value) else none) := by
    unfold Text.parseU64
    split
    next rest => exact (no_sign all rfl (.inl rfl)).elim
    next =>
      cases parsed : Text.parseDigits 10 digits with
      | none => simp only [parsed, Option.bind_none]
      | some number => simp only [parsed, Option.bind_some]
  rw [unsigned]
  constructor
  · intro read
    obtain ⟨number, spelled, kept⟩ := Option.bind_eq_some_iff.mp read
    refine ⟨all, ?_⟩
    split at kept
    next small =>
      obtain rfl := Option.some.inj kept
      rw [spelled, UInt64.toNat_ofNat_of_lt' small]
    next => exact absurd kept (by simp)
  · rintro ⟨_, spelled⟩
    rw [spelled]
    simp only [Option.bind_some, value.toNat_lt, if_pos, UInt64.ofNat_toNat]

/-- `i64::from_str` on digits reads their numeral. -/
theorem parse_i64_digits {digits : List Char} {value : Int64} {number : Nat}
    (numeral : Numeral digits number) (same : value.toInt = number) :
    Text.parseI64 10 digits = some value := by
  have small : number < 2 ^ 63 := by
    have bound := value.toInt_lt
    omega
  have converted : Int64.ofInt number = value := by rw [← same, Int64.ofInt_toInt]
  unfold Text.parseI64
  split
  next rest => exact (no_sign numeral.1 rfl (.inr rfl)).elim
  next rest => exact (no_sign numeral.1 rfl (.inl rfl)).elim
  next => simp only [numeral.2, small, if_pos, converted]

/-- Digits fold onto one after the other. -/
theorem foldDigits_append (radix value : Nat) (digits more : List Char) :
    Text.foldDigits radix value (digits ++ more) =
      (Text.foldDigits radix value digits).bind (fun middle => Text.foldDigits radix middle more) := by
  induction digits generalizing value with
  | nil => rfl
  | cons c rest inductionHypothesis =>
    simp only [List.cons_append, Text.foldDigits]
    cases Text.digitValue radix c with
    | none => rfl
    | some digit => exact inductionHypothesis _

/-- The digit character of a number below ten is read as that number. -/
theorem digitValue_digitChar {n : Nat} (small : n < 10) :
    Text.digitValue 10 (Nat.digitChar n) = some n ∧ isAsciiDigit (Nat.digitChar n) = true := by
  interval_cases n <;> exact ⟨by decide, by decide⟩

/-- The decimal digits of a number are a numeral of it. -/
theorem numeral_toDigits (n : Nat) : Numeral (Nat.toDigits 10 n) n := by
  induction n using Nat.strongRecOn with
  | ind n inductionHypothesis =>
    rcases Nat.lt_or_ge n 10 with small | large
    · rw [Nat.toDigits_of_lt_base small]
      obtain ⟨read, digit⟩ := digitValue_digitChar small
      exact ⟨by simpa using digit, by simp [Text.parseDigits, Text.foldDigits, read]⟩
    · have split := Nat.toDigits_of_base_le (b := 10) (by decide) large
      obtain ⟨digits, spelled⟩ := inductionHypothesis (n / 10) (by omega)
      obtain ⟨read, digit⟩ := digitValue_digitChar (Nat.mod_lt n (y := 10) (by decide))
      rw [split]
      refine ⟨fun c member => ?_, ?_⟩
      · rcases List.mem_append.1 member with front | last
        · exact digits c front
        · rw [List.mem_singleton.1 last]
          exact digit
      · have folded : Text.foldDigits 10 0 (Nat.toDigits 10 (n / 10)) = some (n / 10) := by
          cases shape : Nat.toDigits 10 (n / 10) with
          | nil => exact absurd spelled (by simp [shape, Text.parseDigits])
          | cons c rest => simpa [shape, Text.parseDigits] using spelled
        have whole : Text.foldDigits 10 0 (Nat.toDigits 10 (n / 10) ++ [Nat.digitChar (n % 10)]) =
            some n := by
          rw [foldDigits_append, folded]
          simp only [Option.bind_some, Text.foldDigits, read, Option.some.injEq]
          omega
        cases shape : Nat.toDigits 10 (n / 10) ++ [Nat.digitChar (n % 10)] with
        | nil => simp at shape
        | cons c rest => simpa [Text.parseDigits, ← shape] using whole

/-! ## Reading one token -/

/-- A parser returns a value and where it stopped, or a message. -/
abbrev Parser (α : Type) := Cursor Char → Except String (α × Cursor Char)

/-- `skip_ws`. -/
def skipWs (cursor : Cursor Char) : Cursor Char := cursor.skip isAsciiWhitespace

/-- `eat`. -/
def eat (token : String) (cursor : Cursor Char) : Bool × Cursor Char :=
  cursor.eat isAsciiWhitespace token.toList

/-- Blanks are passed once. -/
theorem skipWs_idem (cursor : Cursor Char) : skipWs (skipWs cursor) = skipWs cursor :=
  skip_skip isAsciiWhitespace cursor

/-- The parser passes blanks before it reads. -/
def PassesBlanks {α : Type} (parser : Parser α) : Prop :=
  ∀ cursor, parser (skipWs cursor) = parser cursor

/-- `expect`. -/
def expect (token : String) (cursor : Cursor Char) : Except String (Cursor Char) :=
  match eat token cursor with
  | (true, after) => .ok after
  | (false, after) => .error s!"expected `{token}` at byte {after.pos}"

/-- A token of the grammar: not empty, and no blank at its start. -/
def IsToken (token : String) : Prop :=
  token.toList.head?.any (fun c => !isAsciiWhitespace c) = true

instance (token : String) : Decidable (IsToken token) :=
  inferInstanceAs (Decidable (_ = true))

theorem IsToken.nonempty {token : String} (isToken : IsToken token) : token.toList ≠ [] := by
  intro empty
  simp [IsToken, empty] at isToken

theorem IsToken.stops {token : String} (isToken : IsToken token) :
    Stops isAsciiWhitespace token.toList := by
  intro c first
  rw [Option.mem_def] at first
  simpa [IsToken, first] using isToken

theorem eat_token (token : String) (isToken : IsToken token) (pos : Nat) {gap : List Char}
    (blank : Gap gap) (rest : List Char) :
    eat token ⟨pos, gap ++ (token.toList ++ rest)⟩ =
      (true, ⟨pos + gap.length + token.toList.length, rest⟩) :=
  eat_hit isAsciiWhitespace pos rest blank isToken.stops isToken.nonempty

/-- At a token, another token is not eaten and nothing is passed. -/
theorem eat_other (token : String) {cursor : Cursor Char} (here : skipWs cursor = cursor)
    (other : ¬ token.toList <+: cursor.rest) : eat token cursor = (false, cursor) := by
  have there : (cursor.skip isAsciiWhitespace).rest = cursor.rest := congrArg Cursor.rest here
  rw [eat, eat_miss isAsciiWhitespace cursor (there ▸ other)]
  exact congrArg _ here

theorem expect_token (token : String) (isToken : IsToken token) (pos : Nat) {gap : List Char}
    (blank : Gap gap) (rest : List Char) :
    expect token ⟨pos, gap ++ (token.toList ++ rest)⟩ =
      .ok ⟨pos + gap.length + token.toList.length, rest⟩ := by
  simp only [expect, eat_token token isToken pos blank rest]

theorem expect_sound {token : String} {cursor after : Cursor Char}
    (found : expect token cursor = .ok after) :
    ∃ gap, Gap gap ∧ cursor.rest = gap ++ (token.toList ++ after.rest) := by
  unfold expect at found
  split at found
  next there eaten =>
    obtain rfl := Except.ok.inj found
    obtain ⟨gap, split, blank, _⟩ := eat_true isAsciiWhitespace eaten
    exact ⟨gap, blank, split⟩
  next => exact absurd found (by simp)

theorem Gap.append {gap more : List Char} (first : Gap gap) (second : Gap more) :
    Gap (gap ++ more) := by
  intro c member
  rcases List.mem_append.1 member with front | back
  · exact first c front
  · exact second c back

/-- Nothing that is no blank comes first in a gap before a token that does not begin with it. -/
theorem stops_before_token {kind : Char → Bool}
    (visible : ∀ c, kind c = true → isAsciiWhitespace c = false) {gap : List Char} (blank : Gap gap)
    {token : String} (isToken : IsToken token) (rest : List Char)
    (other : Stops kind token.toList) : Stops kind (gap ++ (token.toList ++ rest)) := by
  cases gap with
  | nil => exact other.append rest isToken.nonempty
  | cons c gap =>
    rw [List.cons_append, stops_cons, ← Bool.not_eq_true]
    intro found
    have blank : isAsciiWhitespace c = true := blank c (List.mem_cons_self ..)
    rw [visible c found] at blank
    exact absurd blank (by decide)

/-- Where a name starts, the longest run of its symbols is a name. -/
theorem name_run {text : List Char} (starts : text.head?.any startsName = true) :
    IsName (text.takeWhile inName) := by
  cases text with
  | nil => exact absurd starts (by decide)
  | cons c text =>
    have letter : startsName c = true := by simpa using starts
    have inside : inName c = true := by
      simp only [startsName, inName, Bool.or_eq_true] at letter ⊢
      tauto
    refine ⟨⟨c, by simp [inside], letter⟩, fun _ member => List.mem_takeWhile_imp member⟩

/-- `u32::try_from`, saturating. -/
def toU32 (offset : Nat) : UInt32 := if offset < 2 ^ 32 then UInt32.ofNat offset else 4294967295

end Semasm.Contract
