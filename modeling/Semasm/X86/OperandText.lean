import Semasm.Text.Words
import Semasm.X86.Lower
import Mathlib.Tactic.SplitIfs

/-!
# The notation of memory operands

A memory operand in the notation of the disassembler: a size prefix, a segment
override, and between brackets a base, an index with its scale and a signed
displacement. Without a size prefix the lowering reads the whole text and refuses what
it does not understand. With one it reads what stands between the brackets only, and
takes an address of zero for what it does not understand there.
-/

namespace Semasm.X86

open Decode

/-- The word before `ptr`. -/
inductive SizeWord where
  | byte | word | dword | qword | fword | tbyte | xmmword | ymmword | zmmword
deriving DecidableEq, Repr

namespace SizeWord

/-- The word as it is printed. -/
def text : SizeWord → String
  | .byte => "byte"
  | .word => "word"
  | .dword => "dword"
  | .qword => "qword"
  | .fword => "fword"
  | .tbyte => "tbyte"
  | .xmmword => "xmmword"
  | .ymmword => "ymmword"
  | .zmmword => "zmmword"

/-- The operand width of the word, if there is one. -/
def width? : SizeWord → Option Width
  | .byte => some .b8
  | .word => some .b16
  | .dword => some .b32
  | .qword => some .b64
  | .fword | .tbyte | .xmmword | .ymmword | .zmmword => none

end SizeWord

/-- The segment registers. -/
inductive SegmentName where
  | cs | ds | es | fs | gs | ss
deriving DecidableEq, Repr

/-- The name of a segment register. -/
def SegmentName.text : SegmentName → List Char
  | .cs => ['c', 's']
  | .ds => ['d', 's']
  | .es => ['e', 's']
  | .fs => ['f', 's']
  | .gs => ['g', 's']
  | .ss => ['s', 's']

/-- The views of the register file that have a name. -/
inductive NamedView where
  | low (cell : Gp) (width : Width)
  | high (cell : Gp) (early : cell ∈ [Gp.rax, Gp.rbx, Gp.rcx, Gp.rdx])
  | rip
deriving DecidableEq, Repr

namespace NamedView

/-- The 16-bit name of one of the first eight cells, the 64-bit name of the others. -/
def stem : Gp → List Char
  | .rax => ['a', 'x']
  | .rbx => ['b', 'x']
  | .rcx => ['c', 'x']
  | .rdx => ['d', 'x']
  | .rsi => ['s', 'i']
  | .rdi => ['d', 'i']
  | .rsp => ['s', 'p']
  | .rbp => ['b', 'p']
  | .r8 => ['r', '8']
  | .r9 => ['r', '9']
  | .r10 => ['r', '1', '0']
  | .r11 => ['r', '1', '1']
  | .r12 => ['r', '1', '2']
  | .r13 => ['r', '1', '3']
  | .r14 => ['r', '1', '4']
  | .r15 => ['r', '1', '5']

/-- The cell is one of the eight that have numbers for names. -/
def numbered (cell : Gp) : Bool := (stem cell).head? == some 'r'

/-- The cell is one of the four whose two low bytes have names. -/
def lettered (cell : Gp) : Bool := (stem cell).getLast? == some 'x'

/-- The name of a view. -/
def text : NamedView → List Char
  | .low cell .b64 => if numbered cell then stem cell else 'r' :: stem cell
  | .low cell .b32 => if numbered cell then stem cell ++ ['d'] else 'e' :: stem cell
  | .low cell .b16 => if numbered cell then stem cell ++ ['w'] else stem cell
  | .low cell .b8 =>
    if numbered cell then stem cell ++ ['b']
    else if lettered cell then (stem cell).take 1 ++ ['l'] else stem cell ++ ['l']
  | .high cell _ => (stem cell).take 1 ++ ['h']
  | .rip => ['r', 'i', 'p']

/-- The view. -/
def register : NamedView → Register
  | .low cell width => ⟨.gp cell, width, false⟩
  | .high cell _ => ⟨.gp cell, .b8, true⟩
  | .rip => ⟨.rip, .b64, false⟩

end NamedView

/-- The characters of register names. -/
def nameChar (c : Char) : Bool := ('a' ≤ c && c ≤ 'z') || ('0' ≤ c && c ≤ '9')

/-- A name outside the register file of the lowering. -/
structure OtherName where
  text : List Char
  letter : ∃ first rest, text = first :: rest ∧ 'a' ≤ first ∧ first ≤ 'z'
  plain : ∀ c ∈ text, nameChar c = true
  unnamed : ∀ view : NamedView, view.text ≠ text
  noSize : ∀ size : SizeWord, size.text.toList ≠ text

/-- A name where a register is expected. -/
inductive AddressName where
  | view (view : NamedView)
  | other (name : OtherName)

namespace AddressName

/-- The name as it is printed. -/
def text : AddressName → List Char
  | .view named => named.text
  | .other name => name.text

/-- The register of a name. -/
def register? : AddressName → Option Register
  | .view named => some named.register
  | .other _ => none

end AddressName

/-- The scales of an index. -/
inductive Scale where
  | one | two | four | eight
deriving DecidableEq, Repr

namespace Scale

/-- The factor. -/
def value : Scale → UInt8
  | .one => 1
  | .two => 2
  | .four => 4
  | .eight => 8

/-- The digit of the factor. -/
def digit : Scale → Char
  | .one => '1'
  | .two => '2'
  | .four => '4'
  | .eight => '8'

end Scale

/-- A displacement with its sign, in decimal or hexadecimal. -/
structure DispText where
  negative : Bool
  hexadecimal : Bool
  magnitude : Nat
  bounded : magnitude < 2 ^ 64
deriving DecidableEq, Repr

namespace DispText

variable (disp : DispText)

/-- The number without its sign. -/
def text : List Char :=
  if disp.hexadecimal then '0' :: 'x' :: Nat.toDigits 16 disp.magnitude
  else Nat.toDigits 10 disp.magnitude

/-- The sign as a word of its own. -/
def sign : List Char := if disp.negative then ['-'] else ['+']

/-- The 64-bit displacement. -/
def value : Int64 := Int64.ofInt (if disp.negative then -disp.magnitude else disp.magnitude)

end DispText

/-- A memory operand in the notation of the disassembler. An index without a written
scale follows a base, and a number that stands alone has no sign. -/
structure MemoryText where
  size : Option SizeWord
  segment : Option SegmentName
  base : Option AddressName
  index : Option (AddressName × Option Scale)
  disp : Option DispText
  afterBase : ∀ part ∈ index, part.2 = none → base.isSome = true
  afterRegister : ∀ part ∈ disp, part.negative = true → base.isSome = true ∨ index.isSome = true

namespace MemoryText

variable (memory : MemoryText)

/-- The index as it is printed. -/
def indexText : AddressName × Option Scale → List Char
  | (name, some scale) => name.text ++ ['*', scale.digit]
  | (name, none) => name.text

/-- A part with the word that joins it to what stands before it. -/
def joined (first : Bool) (sign part : List Char) : List (List Char) :=
  if first then [part] else [sign, part]

/-- The words of the index. -/
def indexWords : List (List Char) :=
  match memory.index with
  | some part => joined memory.base.isNone ['+'] (indexText part)
  | none => []

/-- The words of the displacement. -/
def dispWords : List (List Char) :=
  match memory.disp with
  | some part => joined (memory.base.isNone && memory.index.isNone) part.sign part.text
  | none => []

/-- The words between the brackets. -/
def words : List (List Char) :=
  (memory.base.map AddressName.text).toList ++ memory.indexWords ++ memory.dispWords

/-- The text between the brackets. -/
def body : List Char := [' '].intercalate memory.words

/-- The size prefix. -/
def sizeText : List Char :=
  match memory.size with
  | some size => size.text.toList ++ [' ', 'p', 't', 'r', ' ']
  | none => []

/-- The segment override. -/
def segmentText : List Char :=
  match memory.segment with
  | some segment => segment.text ++ [':']
  | none => []

/-- The text behind the size prefix. -/
def addressText : List Char := memory.segmentText ++ '[' :: memory.body ++ [']']

/-- The operand text. -/
def raw : String := String.ofList (memory.sizeText ++ memory.addressText)

/-- The registers of the address are all named registers. -/
def Named : Prop :=
  (∀ name ∈ memory.base, name.register?.isSome = true) ∧
    ∀ part ∈ memory.index, part.1.register?.isSome = true

instance : Decidable memory.Named := by
  unfold Named
  infer_instance

/-- The written displacement is below `2 ^ 63`. -/
def Small : Prop := ∀ part ∈ memory.disp, part.magnitude < 2 ^ 63

instance : Decidable memory.Small := by
  unfold Small
  infer_instance

/-- Nothing but the parts of a memory operand: no segment, registers for names and a
width for the size prefix. -/
def Understood : Prop :=
  memory.segment = none ∧ memory.Named ∧ ∀ size ∈ memory.size, size.width?.isSome = true

/-- The width of the size prefix, that of a full register without one. -/
def width : Width :=
  match memory.size with
  | some size => size.width?.getD .b64
  | none => .b64

/-- The components of the text. -/
def components : MemOperand where
  base := memory.base.bind AddressName.register?
  index := memory.index.bind (fun part => part.1.register?)
  scale := (memory.index.bind (fun part => part.2.map Scale.value)).getD 1
  disp := (memory.disp.map DispText.value).getD 0
  width := memory.width

/-- An operand with the text, of an instruction that is supported and whose other operands
are understood, is lowered to the components of the text, and the instruction is
refused where the text has a part that these do not hold. -/
def Preserved : Prop :=
  ∀ (instr : PhysicalInstruction) (position : Nat),
    (supportedKind (Text.asciiLower instr.mnemonic)).isSome = true →
    instr.operands[position]? = some memory.raw →
    (∀ other ∈ instr.operands, other ≠ memory.raw → (lowerOperand other).isSome = true) →
    (memory.Understood → ∃ lowered, lower instr = .lowered lowered ∧
      lowered.operands[position]? = some (.mem memory.components)) ∧
    (¬ memory.Understood → lower instr = .unsupported instr.mnemonic)

/-- The texts that are read rightly. Without a size prefix the displacement has to be
below `2 ^ 63`. With a prefix that gives a width there is no segment besides and every
name is a register. With another prefix there is something else that is not read. -/
def ReadRightly : Prop :=
  match memory.size with
  | none => memory.segment = none → memory.Named → memory.Small
  | some size =>
    if size.width?.isSome then memory.segment = none ∧ memory.Named ∧ memory.Small
    else ¬ (memory.segment = none ∧ memory.Named ∧ memory.Small)

end MemoryText

example : MemoryText.raw ⟨some .dword, none, some (.view (.low .rdi .b64)),
      some (.view (.low .rcx .b64), some .four), some ⟨true, true, 16, by decide⟩, by simp,
      by simp⟩ = "dword ptr [rdi + rcx*4 - 0x10]" := by
  decide +kernel

/-! ## Names -/

/-- Every view is found under its name. -/
theorem parseReg_text (view : NamedView) : parseReg view.text = some view.register := by
  cases view with
  | low cell width => cases cell <;> cases width <;> decide
  | high cell early => revert early; cases cell <;> decide
  | rip => decide

/-- The view of a register, if it has a name. -/
def NamedView.ofRegister : Register → Option NamedView
  | ⟨.gp cell, width, false⟩ => some (.low cell width)
  | ⟨.gp cell, .b8, true⟩ =>
    if early : cell ∈ [Gp.rax, Gp.rbx, Gp.rcx, Gp.rdx] then some (.high cell early) else none
  | ⟨.rip, .b64, false⟩ => some .rip
  | _ => none

/-- Only the names of views are found. -/
theorem exists_view_of_parseReg {name : List Char} {register : Register}
    (found : parseReg name = some register) : ∃ view : NamedView, view.text = name := by
  have listed : registerNames.all (fun entry =>
      (NamedView.ofRegister entry.2).any (fun view => view.text == entry.1.toList)) = true := by
    decide +kernel
  obtain ⟨entry, match_, -⟩ := Option.map_eq_some_iff.mp found
  have same : entry.1.toList = name := by simpa using List.find?_some match_
  have known := List.all_eq_true.mp listed entry (List.mem_of_find?_eq_some match_)
  cases shape : NamedView.ofRegister entry.2 with
  | none => simp [shape] at known
  | some view => exact ⟨view, by simpa [shape, same] using known⟩

/-- A name character is a letter or a digit and nothing else. -/
theorem nameChar_plain {c : Char} (named : nameChar c = true) :
    Text.isWhitespace c = false ∧ c ≠ '[' ∧ c ≠ ']' ∧ c ≠ '*' ∧ c ≠ '+' ∧ c ≠ '-' := by
  have range : (97 ≤ c.toNat ∧ c.toNat ≤ 122) ∨ (48 ≤ c.toNat ∧ c.toNat ≤ 57) := by
    simpa [nameChar, Char.le_def, UInt32.le_iff_toNat_le] using named
  have apart (other : Char) (outside : ¬ ((97 ≤ other.toNat ∧ other.toNat ≤ 122) ∨
      (48 ≤ other.toNat ∧ other.toNat ≤ 57))) : c ≠ other := fun same => outside (same ▸ range)
  refine ⟨?_, apart _ (by decide), apart _ (by decide), apart _ (by decide), apart _ (by decide),
    apart _ (by decide)⟩
  unfold Text.isWhitespace
  simp only [Bool.or_eq_false_iff, Bool.and_eq_false_iff, decide_eq_false_iff_not, beq_eq_false_iff_ne]
  omega

/-- A name begins with a letter and has letters and digits only. -/
theorem AddressName.text_plain (name : AddressName) :
    (∃ first rest, name.text = first :: rest ∧ 'a' ≤ first ∧ first ≤ 'z') ∧
      ∀ c ∈ name.text, nameChar c = true := by
  cases name with
  | view named =>
    cases named with
    | low cell width =>
      have spelled : (NamedView.text (.low cell width)).all nameChar = true := by
        cases cell <;> cases width <;> decide
      refine ⟨?_, List.all_eq_true.mp spelled⟩
      cases cell <;> cases width <;> exact ⟨_, _, rfl, by decide⟩
    | high cell early =>
      have letter : ∃ first, (NamedView.stem cell).take 1 = [first] ∧ 'a' ≤ first ∧ first ≤ 'z' := by
        cases cell <;> exact ⟨_, rfl, by decide⟩
      obtain ⟨first, one, least, most⟩ := letter
      have text : AddressName.text (.view (.high cell early)) = [first, 'h'] := by
        change (NamedView.stem cell).take 1 ++ ['h'] = _
        rw [one, List.singleton_append]
      have named : nameChar first = true := by simp [nameChar, least, most]
      have byte : nameChar 'h' = true := by decide
      rw [text]
      exact ⟨⟨first, ['h'], rfl, least, most⟩, by simp [named, byte]⟩
    | rip => exact ⟨⟨_, _, rfl, by decide⟩,
        List.all_eq_true.mp (by decide : NamedView.rip.text.all nameChar = true)⟩
  | other name => exact ⟨name.letter, name.plain⟩

/-- A name is looked up to its register. -/
theorem AddressName.parseReg_text (name : AddressName) : parseReg name.text = name.register? := by
  cases name with
  | view named => exact X86.parseReg_text named
  | other name =>
    cases found : parseReg name.text with
    | none => exact found
    | some register =>
      obtain ⟨view, same⟩ := exists_view_of_parseReg found
      exact absurd same (name.unnamed view)

/-! ## Words of an address -/

/-- A name is no sign and has no star. -/
theorem AddressName.text_word (name : AddressName) :
    name.text ≠ ['+'] ∧ name.text ≠ ['-'] ∧ '*' ∉ name.text ∧ Text.Solid name.text := by
  obtain ⟨⟨first, rest, shape, -⟩, plain⟩ := name.text_plain
  have apart (c : Char) (other : nameChar c = false) : c ∉ name.text := by
    intro member
    simp [plain c member] at other
  refine ⟨?_, ?_, apart '*' (by decide), by simp [shape], fun c member =>
    (nameChar_plain (plain c member)).1⟩
  · intro same
    exact apart '+' (by decide) (same ▸ List.mem_singleton_self _)
  · intro same
    exact apart '-' (by decide) (same ▸ List.mem_singleton_self _)

/-- A name is no number. -/
theorem AddressName.text_noNumber (name : AddressName) :
    parseHex name.text = none ∧ Text.parseI64 10 name.text = none := by
  obtain ⟨⟨first, rest, shape, least, most⟩, -⟩ := name.text_plain
  have letter : 97 ≤ first.toNat := by
    simpa [Char.le_def, UInt32.le_iff_toNat_le] using least
  have zero : first ≠ '0' := by
    rintro rfl
    exact absurd letter (by decide)
  rw [shape]
  refine ⟨?_, Text.parseI64_letter first rest letter⟩
  unfold parseHex
  split
  next same => exact absurd (List.cons.inj same).1 zero
  next same => exact absurd (List.cons.inj same).1 zero
  next => rfl

/-- The base register, or a register that stands where there already is a base. -/
theorem term_name (terms : MemoryTerms) (name : AddressName) :
    terms.term name.text = name.register?.map (fun register =>
      if terms.base.isNone then { terms with base := some register, neg := false }
      else { terms with index := some register, neg := false }) := by
  obtain ⟨plus, minus, star, -⟩ := name.text_word
  obtain ⟨noHex, noNumber⟩ := name.text_noNumber
  rw [MemoryTerms.term, if_neg plus, if_neg minus, Text.splitOnce_notMem '*' _ star]
  simp only [name.parseReg_text]
  cases found : name.register? with
  | some register => cases base : terms.base <;> simp
  | none => simp [noHex, noNumber]

/-- A register with its scale. -/
theorem term_scaled (terms : MemoryTerms) (name : AddressName) (scale : Scale) :
    terms.term (name.text ++ ['*', scale.digit]) = name.register?.map (fun register =>
      { terms with index := some register, scale := scale.value, neg := false }) := by
  obtain ⟨-, -, star, solid⟩ := name.text_word
  have factor : Text.parseU8 (Text.trimChars [scale.digit]) = some scale.value := by
    cases scale <;> decide
  have long (sign : Char) : name.text ++ ['*', scale.digit] ≠ [sign] := by
    intro same
    have count := congrArg List.length same
    simp at count
  rw [MemoryTerms.term, if_neg (long '+'), if_neg (long '-'), Text.splitOnce_append '*' _ _ star]
  simp only [Text.trimChars_solid _ solid, name.parseReg_text, factor]
  cases name.register? <;> rfl

/-- The digits of a displacement are letters and digits, and the first one is a digit. -/
theorem DispText.text_plain (disp : DispText) :
    (∃ first rest, disp.text = first :: rest ∧ first.toNat < 97 ∧ first ≠ '+' ∧ first ≠ '-') ∧
      ∀ c ∈ disp.text, nameChar c = true := by
  have hex : ∀ digit < 16, nameChar (Nat.digitChar digit) = true := by decide
  have decimal : ∀ digit < 10, (Nat.digitChar digit).toNat < 97 ∧ Nat.digitChar digit ≠ '+' ∧
      Nat.digitChar digit ≠ '-' := by decide
  unfold DispText.text
  split_ifs
  · refine ⟨⟨'0', _, rfl, by decide⟩, ?_⟩
    intro c member
    rw [List.mem_cons, List.mem_cons] at member
    rcases member with rfl | rfl | later
    · decide
    · decide
    · obtain ⟨digit, small, rfl⟩ := Text.mem_toDigits 16 _ (by decide) c later
      exact hex digit small
  · refine ⟨?_, ?_⟩
    · cases shape : Nat.toDigits 10 disp.magnitude with
      | nil => exact absurd shape Nat.toDigits_ne_nil
      | cons first rest =>
        obtain ⟨digit, small, same⟩ := Text.mem_toDigits 10 disp.magnitude (by decide) first
          (by simp [shape])
        exact ⟨first, rest, rfl, same ▸ decimal digit small⟩
    · intro c member
      obtain ⟨digit, small, rfl⟩ := Text.mem_toDigits 10 _ (by decide) c member
      exact hex digit (by omega)

/-- A displacement is read as its magnitude. -/
theorem DispText.parse_text (disp : DispText) :
    (parseHex disp.text).orElse (fun _ => Text.parseI64 10 disp.text) =
      if disp.magnitude < 2 ^ 63 then some (Int64.ofInt disp.magnitude) else none := by
  unfold DispText.text
  split_ifs with hexadecimal small small
  · have read := Text.parseI64_toDigits 16 disp.magnitude (by decide) (by decide)
    rw [if_pos small] at read
    simp [parseHex, read]
  · have read := Text.parseI64_toDigits 16 disp.magnitude (by decide) (by decide)
    rw [if_neg small] at read
    have mixed : Text.parseI64 10 ('0' :: 'x' :: Nat.toDigits 16 disp.magnitude) = none := rfl
    simp [parseHex, read, mixed]
  all_goals
    have read := Text.parseI64_toDigits 10 disp.magnitude (by decide) (by decide)
    have letters : ∀ digit < 10, Nat.digitChar digit ≠ 'x' ∧ Nat.digitChar digit ≠ 'X' := by
      decide
    have noHex : parseHex (Nat.toDigits 10 disp.magnitude) = none := by
      have plain := Text.mem_toDigits 10 disp.magnitude (by decide)
      unfold parseHex
      split
      next digits shape =>
        obtain ⟨digit, small, same⟩ := plain 'x' (by simp [shape])
        exact absurd same.symm (letters digit small).1
      next digits shape =>
        obtain ⟨digit, small, same⟩ := plain 'X' (by simp [shape])
        exact absurd same.symm (letters digit small).2
      next => rfl
    simp only [noHex, Option.orElse_none, read, small, if_true, if_false]

/-- A displacement is added with the sign before it. -/
theorem term_disp (terms : MemoryTerms) (disp : DispText) :
    terms.term disp.text =
      if disp.magnitude < 2 ^ 63 then
        some { terms with
          disp := terms.disp + (if terms.neg then -1 else 1) * Int64.ofInt disp.magnitude
          neg := false }
      else none := by
  obtain ⟨⟨first, rest, shape, low, plus, minus⟩, plain⟩ := disp.text_plain
  have star : '*' ∉ disp.text := fun member => (nameChar_plain (plain '*' member)).2.2.2.1 rfl
  have noName : parseReg disp.text = none := by
    cases found : parseReg disp.text with
    | none => rfl
    | some register =>
      obtain ⟨view, same⟩ := exists_view_of_parseReg found
      obtain ⟨⟨letter, others, begins, least, -⟩, -⟩ := (AddressName.view view).text_plain
      have code : 97 ≤ letter.toNat := by
        simpa [Char.le_def, UInt32.le_iff_toNat_le] using least
      have equal : letter = first := by
        have lists : letter :: others = first :: rest := by rw [← shape, ← same, ← begins]; rfl
        exact (List.cons.inj lists).1
      rw [equal] at code
      omega
  have notPlus : disp.text ≠ ['+'] := by
    rw [shape]
    exact fun same => plus (List.cons.inj same).1
  have notMinus : disp.text ≠ ['-'] := by
    rw [shape]
    exact fun same => minus (List.cons.inj same).1
  rw [MemoryTerms.term, if_neg notPlus, if_neg notMinus, Text.splitOnce_notMem '*' _ star]
  simp only [noName, disp.parse_text]
  split_ifs <;> rfl

/-! ## The address between the brackets -/

/-- A word of an address: it is a word without brackets and no size word. -/
def AddressWord (word : List Char) : Prop :=
  Text.Solid word ∧ '[' ∉ word ∧ ']' ∉ word ∧ ∀ size : SizeWord, size.text.toList ≠ word

/-- Size words are made of letters and name no register. -/
theorem SizeWord.text_plain (size : SizeWord) :
    (size.text.toList.all fun c => 97 ≤ c.toNat && c != 'p' && !Text.isWhitespace c) = true ∧
      parseReg size.text.toList = none ∧ size.text.toList ≠ [] := by
  cases size <;> decide

/-- A text of letters and digits that begins like no size word. -/
theorem addressWord_of_nameChar (word : List Char) (filled : word ≠ [])
    (plain : ∀ c ∈ word, nameChar c = true) (noSize : ∀ size : SizeWord, size.text.toList ≠ word) :
    AddressWord word :=
  ⟨⟨filled, fun c inside => (nameChar_plain (plain c inside)).1⟩,
    fun inside => (nameChar_plain (plain _ inside)).2.1 rfl,
    fun inside => (nameChar_plain (plain _ inside)).2.2.1 rfl, noSize⟩

/-- Names are words of an address. -/
theorem AddressName.addressWord (name : AddressName) : AddressWord name.text := by
  obtain ⟨⟨first, rest, shape, -⟩, plain⟩ := name.text_plain
  refine addressWord_of_nameChar name.text (by simp [shape]) plain fun size => ?_
  cases name with
  | view named =>
    intro same
    have found := X86.parseReg_text named
    have missing := size.text_plain.2.1
    rw [same] at missing
    exact absurd (missing.symm.trans found) (by simp)
  | other name => exact name.noSize size

/-- Numbers are words of an address. -/
theorem DispText.addressWord (disp : DispText) : AddressWord disp.text := by
  obtain ⟨⟨first, rest, shape, low, -⟩, plain⟩ := disp.text_plain
  refine addressWord_of_nameChar disp.text (by simp [shape]) plain fun size same => ?_
  have letters := List.all_eq_true.mp size.text_plain.1 first (by simp [same, shape])
  simp only [Bool.and_eq_true, decide_eq_true_eq] at letters
  omega

/-- An index with its scale is a word of an address. -/
theorem MemoryText.addressWord_indexText (part : AddressName × Option Scale) :
    AddressWord (indexText part) := by
  obtain ⟨name, written⟩ := part
  cases written with
  | none => exact name.addressWord
  | some scale =>
    obtain ⟨⟨filled, solid⟩, opening, closing, -⟩ := name.addressWord
    have factor : Text.isWhitespace scale.digit = false ∧ scale.digit ≠ '[' ∧
        scale.digit ≠ ']' := by
      cases scale <;> decide
    have star : Text.isWhitespace '*' = false := by decide
    refine ⟨⟨by simp [indexText], ?_⟩, ?_, ?_, fun size same => ?_⟩
    · intro c member
      simp only [indexText, List.mem_append, List.mem_cons, List.not_mem_nil, or_false] at member
      rcases member with inside | rfl | rfl
      · exact solid c inside
      · exact star
      · exact factor.1
    · simp [indexText, opening, factor.2.1.symm]
    · simp [indexText, closing, factor.2.2.symm]
    · have letters := List.all_eq_true.mp size.text_plain.1 '*' (by simp [same, indexText])
      simp at letters

/-- Every word of an address is one. -/
theorem MemoryText.words_plain (memory : MemoryText) (word : List Char)
    (member : word ∈ memory.words) : AddressWord word := by
  have signs : AddressWord ['+'] ∧ AddressWord ['-'] := by
    have solid (c : Char) (plain : Text.isWhitespace c = false) : Text.Solid [c] :=
      ⟨by simp, by simpa using plain⟩
    refine ⟨⟨solid '+' (by decide), by decide, by decide, ?_⟩,
      ⟨solid '-' (by decide), by decide, by decide, ?_⟩⟩ <;>
      intro size <;> cases size <;> decide
  have joinedPlain (first : Bool) (sign part : List Char) (signWord : AddressWord sign)
      (partWord : AddressWord part) (inside : word ∈ joined first sign part) :
      AddressWord word := by
    cases first <;> simp only [joined, if_true, Bool.false_eq_true, if_false, List.mem_cons,
      List.not_mem_nil, or_false] at inside
    · rcases inside with rfl | rfl
      · exact signWord
      · exact partWord
    · exact inside ▸ partWord
  unfold words at member
  rw [List.mem_append, List.mem_append] at member
  rcases member with (base | index) | disp
  · simp only [Option.mem_toList, Option.map_eq_some_iff] at base
    obtain ⟨name, -, rfl⟩ := base
    exact name.addressWord
  · unfold indexWords at index
    split at index
    next part shape => exact joinedPlain _ _ _ signs.1 (addressWord_indexText part) index
    next => cases index
  · unfold dispWords at disp
    split at disp
    next part shape =>
      refine joinedPlain _ _ _ ?_ part.addressWord disp
      unfold DispText.sign
      split_ifs
      · exact signs.2
      · exact signs.1
    next => cases disp

/-- A part is read with the sign before it. -/
theorem foldlM_joined (terms : MemoryTerms) (first negative : Bool) (part : List Char)
    (positive : terms.neg = false) :
    (MemoryText.joined first (if negative then ['-'] else ['+']) part).foldlM MemoryTerms.term
        terms = MemoryTerms.term { terms with neg := !first && negative } part := by
  have same : { terms with neg := false } = terms := by rw [← positive]
  have plus : terms.term ['+'] = some { terms with neg := false } := if_pos rfl
  have minus : terms.term ['-'] = some { terms with neg := true } := by
    rw [MemoryTerms.term, if_neg (by decide), if_pos rfl]
  cases first <;> cases negative <;> simp [MemoryText.joined, plus, minus, same]

/-- The signed magnitude is the displacement. -/
theorem DispText.signed_value (disp : DispText) :
    (0 : Int64) + (if disp.negative then -1 else 1) * Int64.ofInt disp.magnitude = disp.value := by
  unfold DispText.value
  cases disp.negative
  · simp
  · rw [if_pos rfl, if_pos rfl, Int64.zero_add, ← Int64.neg_eq_neg_one_mul, Int64.ofInt_neg]

/-- The index is read behind a base, or in its place. -/
theorem MemoryText.foldlM_indexWords (memory : MemoryText) (terms : MemoryTerms)
    (positive : terms.neg = false) (based : terms.base.isNone = memory.base.isNone)
    (noIndex : terms.index = none) (one : terms.scale = 1) :
    memory.indexWords.foldlM MemoryTerms.term terms =
      if ∀ part ∈ memory.index, part.1.register?.isSome = true then
        some { terms with
          index := memory.components.index
          scale := memory.components.scale }
      else none := by
  have afterBase := memory.afterBase
  unfold indexWords components
  cases shape : memory.index with
  | none => simp [← noIndex, ← one]
  | some part =>
    obtain ⟨name, written⟩ := part
    have step := foldlM_joined terms memory.base.isNone false (indexText (name, written)) positive
    rw [if_neg (by simp)] at step
    simp only [step]
    cases written with
    | some scale =>
      rw [indexText, term_scaled]
      cases found : name.register? <;> simp [positive, found]
    | none =>
      have placed : memory.base.isNone = false := by
        rw [Option.isNone_eq_false_iff]
        exact afterBase (name, none) shape rfl
      rw [indexText, term_name]
      cases found : name.register? <;> simp [positive, found, based, placed, ← one]

/-- The displacement is read last. -/
theorem MemoryText.foldlM_dispWords (memory : MemoryText) (terms : MemoryTerms)
    (positive : terms.neg = false) (start : terms.disp = 0) :
    memory.dispWords.foldlM MemoryTerms.term terms =
      if memory.Small then some { terms with disp := memory.components.disp } else none := by
  have afterRegister := memory.afterRegister
  have components : memory.components.disp = (memory.disp.map DispText.value).getD 0 := rfl
  unfold dispWords Small
  rw [components]
  rcases Option.eq_none_or_eq_some memory.disp with shape | ⟨part, shape⟩
  · simp [shape, ← start]
  · have step := foldlM_joined terms (memory.base.isNone && memory.index.isNone) part.negative
      part.text positive
    have sign : (!(memory.base.isNone && memory.index.isNone) && part.negative) =
        part.negative := by
      cases negative : part.negative with
      | false => simp
      | true =>
        rcases afterRegister part shape negative with base | index
        · simp [base]
        · simp [index]
    simp only [shape, DispText.sign, step, sign, term_disp, start, part.signed_value, positive]
    simp

/-- The words of an address are read one after the other. -/
theorem MemoryText.foldlM_words (memory : MemoryText) :
    memory.words.foldlM MemoryTerms.term ⟨none, none, 1, 0, false⟩ =
      if memory.Named ∧ memory.Small then
        some ⟨memory.components.base, memory.components.index, memory.components.scale,
          memory.components.disp, false⟩
      else none := by
  unfold words
  rw [List.append_assoc, List.foldlM_append]
  have tail (terms : MemoryTerms) (positive : terms.neg = false)
      (based : terms.base.isNone = memory.base.isNone) (noIndex : terms.index = none)
      (one : terms.scale = 1) (start : terms.disp = 0) :
      (memory.indexWords ++ memory.dispWords).foldlM MemoryTerms.term terms =
        if (∀ part ∈ memory.index, part.1.register?.isSome = true) ∧ memory.Small then
          some ⟨terms.base, memory.components.index, memory.components.scale,
            memory.components.disp, false⟩
        else none := by
    rw [List.foldlM_append, memory.foldlM_indexWords terms positive based noIndex one]
    by_cases known : ∀ part ∈ memory.index, part.1.register?.isSome = true
    · rw [if_pos known, Option.bind_eq_bind, Option.bind_some,
        memory.foldlM_dispWords { terms with
          index := memory.components.index
          scale := memory.components.scale } positive start]
      by_cases small : memory.Small
      · rw [if_pos small, if_pos ⟨known, small⟩, positive]
      · rw [if_neg small, if_neg fun both => small both.2]
    · rw [if_neg known, if_neg fun both => known both.1]
      rfl
  have components : memory.components.base = memory.base.bind AddressName.register? := rfl
  rcases Option.eq_none_or_eq_some memory.base with shape | ⟨name, shape⟩
  · have named : (∀ part ∈ memory.index, part.1.register?.isSome = true) ↔ memory.Named := by
      simp [Named, shape]
    have read := tail ⟨none, none, 1, 0, false⟩ rfl (by rw [shape]; rfl) rfl rfl rfl
    simp only [named] at read
    simpa [shape, components] using read
  · have named : memory.Named ↔ name.register?.isSome = true ∧
        ∀ part ∈ memory.index, part.1.register?.isSome = true := by
      simp [Named, shape]
    simp only [shape, Option.map_some, Option.toList_some, List.foldlM_cons, List.foldlM_nil,
      term_name, components, Option.bind_some]
    cases found : name.register? with
    | none =>
      rw [if_neg]
      · rfl
      · rintro ⟨known, -⟩
        simpa [found] using (named.mp known).1
    | some register =>
      have rest : (∀ part ∈ memory.index, part.1.register?.isSome = true) ↔ memory.Named := by
        rw [named, found]
        simp
      have read := tail ⟨some register, none, 1, 0, false⟩ rfl (by rw [shape]; rfl) rfl rfl rfl
      simp only [rest] at read
      simpa using read

/-- What stands between the brackets is parsed to the components. -/
theorem MemoryText.parseMemory_body (memory : MemoryText) :
    parseMemory memory.body =
      if memory.Named ∧ memory.Small then some { memory.components with width := .b64 }
      else none := by
  have solid := fun word member => (memory.words_plain word member).1
  have split := Text.splitWhitespace_intercalate memory.words solid
  unfold parseMemory MemoryText.body
  rw [split]
  extract_lets tokens opened closed
  have openedWords : opened = memory.words := by
    dsimp only [opened, tokens]
    split
    next first rest shape =>
      have bracket := (memory.words_plain ('[' :: first) (by simp [shape])).2.1
      exact absurd List.mem_cons_self bracket
    next => rfl
  have closedWords : closed = memory.words := by
    dsimp only [closed]
    rw [openedWords]
    split
    next last shape =>
      have kept := Text.stripSuffix_notMem ']' last
        (memory.words_plain last (List.mem_of_getLast? shape)).2.2.1
      rw [kept, Option.getD_none]
      exact List.dropLast_append_getLast? last shape
    next => rfl
  rw [closedWords, memory.foldlM_words]
  split_ifs <;> rfl

end Semasm.X86
