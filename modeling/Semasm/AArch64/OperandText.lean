import Semasm.AArch64.Machine
import Mathlib.Data.Nat.Digits.Defs
import Mathlib.Tactic.SplitIfs

/-!
# Operand text through decoding and lowering

The notation of a load or store has commas between the brackets. The decoder splits the
operand text at every comma and the lowering parses each part alone, so what reaches the
memory operand is the base register; index, shift and displacement stand in parts that
do not begin with a bracket and are no memory. The width of a bracketed part is the
default width of the mnemonic, which is that of a full register.
-/

namespace Semasm.AArch64

open Decode

/-- The digits of a number in a base above one. -/
def digits (base number : Nat) : List Char :=
  if number = 0 then ['0'] else (Nat.digits base number).reverse.map Nat.digitChar

/-- An immediate as the disassembler prints it, in decimal or hexadecimal. -/
def immediateText (hexadecimal : Bool) (value : Int64) : List Char :=
  '#' :: (if value.toInt < 0 then ['-'] else []) ++
    (if hexadecimal then "0x".toList ++ digits 16 value.toInt.natAbs
      else digits 10 value.toInt.natAbs)

/-- The name of a 64-bit register. -/
def registerText : Storage → List Char
  | .gp .zr => "xzr".toList
  | .gp cell => 'x' :: digits 10 (Gp.all.idxOf cell)
  | .sp => "sp".toList
  | .nzcv => "nzcv".toList

/-- What stands after the base register. -/
inductive AddressForm where
  | base
  | disp (value : Int64)
  | index (register : Gp)
  | shifted (register : Gp) (shift : Nat)
  | pre (value : Int64)
  | post (value : Int64)
deriving DecidableEq, Repr

/-- A load or store in the notation of the disassembler: a supported mnemonic, a data
register, and an address on a general-purpose register or the stack pointer. -/
structure AccessText where
  mnemonic : String
  supported : mnemonic ∈ ["ldr", "ldrb", "ldrh", "ldrsb", "ldrsh", "ldrsw", "str", "strb", "strh"]
  target : Gp
  narrow : Bool
  base : Storage
  addressable : base ≠ .nzcv ∧ base ≠ .gp .zr
  form : AddressForm
  hexadecimal : Bool

namespace AccessText

variable (access : AccessText)

/-- The name of the data register, in its 32-bit or 64-bit view. -/
def targetText : List Char :=
  if access.narrow then 'w' :: (registerText (.gp access.target)).tail
  else registerText (.gp access.target)

/-- The parts of the operand text between its commas. -/
def parts : List (List Char) :=
  let opened := " [".toList ++ registerText access.base
  access.targetText ::
    match access.form with
    | .base => [opened ++ [']']]
    | .disp value => [opened, ' ' :: immediateText access.hexadecimal value ++ [']']]
    | .index register => [opened, ' ' :: registerText (.gp register) ++ [']']]
    | .shifted register shift =>
      [opened, ' ' :: registerText (.gp register), " lsl #".toList ++ digits 10 shift ++ [']']]
    | .pre value => [opened, ' ' :: immediateText access.hexadecimal value ++ "]!".toList]
    | .post value => [opened ++ [']'], ' ' :: immediateText access.hexadecimal value]

/-- The operand text. -/
def opStr : String := String.ofList ([','].intercalate access.parts)

/-- The instruction as the disassembler returns it. -/
def raw : RawInstruction := ⟨0, [], some access.mnemonic, some access.opStr, none⟩

/-- The written displacement, or the one that is added before the access. -/
def displacement (written : Bool) : Int64 :=
  match access.form with
  | .disp value | .pre value => value
  | .post value => if written then value else 0
  | .base | .index _ | .shifted _ _ => 0

/-- The index register. -/
def indexRegister : Option Gp :=
  match access.form with
  | .index register | .shifted register _ => some register
  | .base | .disp _ | .pre _ | .post _ => none

/-- The factor of the index register. -/
def factor : Int :=
  match access.form with
  | .shifted _ shift => 2 ^ shift
  | .base | .disp _ | .index _ | .pre _ | .post _ => 1

/-- Bytes of the access. -/
def bytes : Nat :=
  match Op.ofMnemonic access.mnemonic with
  | some (.load (some count) _) | some (.store (some count)) => count
  | _ => if access.narrow then 4 else 8

end AccessText

example : AccessText.opStr ⟨"ldr", by decide, .x0, true, .gp .x1, by decide, .shifted .x2 3, false⟩ =
    "w0, [x1, x2, lsl #3]" := by decide +kernel

/-- The memory part of an operand. -/
def Operand.mem? : Operand → Option MemOperand
  | .mem operand => some operand
  | _ => none

/-- The lowered instruction has one memory operand, and it is the one of the text. -/
def AccessText.Survives (access : AccessText) (written : Bool) : Prop :=
  ∃ instr mem, lower (normalise access.raw) = .lowered instr ∧
    instr.operands.filterMap Operand.mem? = [mem] ∧ mem.base = some ⟨access.base, .b64, false⟩ ∧
    mem.index = access.indexRegister.map Gp.full ∧ mem.scale.toInt = access.factor ∧
    mem.disp = access.displacement written ∧ mem.width.bits = 8 * access.bytes

/-- A digit is neither a comma nor white space nor a bracket. -/
theorem digitChar_plain :
    ∀ digit < 16, Nat.digitChar digit ≠ ',' ∧ Text.isWhitespace (Nat.digitChar digit) = false ∧
      Nat.digitChar digit ≠ '[' := by
  decide

/-- The characters of a number are digits. -/
theorem mem_digits (base number : Nat) (c : Char) (least : 1 < base) (most : base ≤ 16)
    (member : c ∈ digits base number) : ∃ digit < 16, c = Nat.digitChar digit := by
  unfold digits at member
  split_ifs at member
  · rw [List.mem_singleton] at member
    exact ⟨0, by decide, by rw [member]; rfl⟩
  · obtain ⟨digit, listed, rfl⟩ := List.mem_map.mp member
    have below := Nat.digits_lt_base least (List.mem_reverse.mp listed)
    exact ⟨digit, by omega, rfl⟩

/-- Numbers have no comma. -/
theorem comma_notMem_digits (base number : Nat) (least : 1 < base) (most : base ≤ 16) :
    ',' ∉ digits base number := by
  intro member
  obtain ⟨digit, small, same⟩ := mem_digits base number ',' least most member
  exact (digitChar_plain digit small).1 same.symm

/-- Immediates have no comma. -/
theorem comma_notMem_immediateText (hexadecimal : Bool) (value : Int64) :
    ',' ∉ immediateText hexadecimal value := by
  have decimal := comma_notMem_digits 10 value.toInt.natAbs (by decide) (by decide)
  have hex := comma_notMem_digits 16 value.toInt.natAbs (by decide) (by decide)
  unfold immediateText
  split_ifs <;> simp [decimal, hex]

/-- Register names begin with a letter and have no comma. -/
theorem registerText_plain (storage : Storage) :
    ',' ∉ registerText storage ∧ ∃ first rest, registerText storage = first :: rest ∧
      Text.isWhitespace first = false ∧ first ≠ '[' := by
  cases storage with
  | gp cell => cases cell <;> exact ⟨by decide, _, _, rfl, by decide, by decide⟩
  | sp => exact ⟨by decide, _, _, rfl, by decide, by decide⟩
  | nzcv => exact ⟨by decide, _, _, rfl, by decide, by decide⟩

/-- The data register begins with a letter and has no comma. -/
theorem AccessText.targetText_plain (access : AccessText) :
    ',' ∉ access.targetText ∧ ∃ first rest, access.targetText = first :: rest ∧
      Text.isWhitespace first = false ∧ first ≠ '[' := by
  have full := registerText_plain (.gp access.target)
  unfold targetText
  split_ifs
  · refine ⟨?_, 'w', _, rfl, by decide, by decide⟩
    intro member
    rcases List.mem_cons.mp member with letter | digit
    · exact absurd letter (by decide)
    · exact full.1 (List.mem_of_mem_tail digit)
  · exact full

/-- No part of the operand text has a comma. -/
theorem AccessText.comma_notMem_parts (access : AccessText) :
    ∀ part ∈ access.parts, ',' ∉ part := by
  have target := access.targetText_plain.1
  have base := (registerText_plain access.base).1
  have immediate := comma_notMem_immediateText access.hexadecimal
  have register := fun cell => (registerText_plain (.gp cell)).1
  have shift := fun amount => comma_notMem_digits 10 amount (by decide) (by decide)
  unfold parts
  cases access.form <;> simp [target, base, immediate, register, shift]

/-- The decoder hands the parts of the operand text on, each trimmed. -/
theorem AccessText.splitOperands_opStr (access : AccessText) :
    splitOperands access.opStr =
      access.parts.map (fun part => String.ofList (Text.trimChars part)) := by
  have split := List.splitOn_intercalate ',' access.comma_notMem_parts (by simp [parts])
  have text : access.opStr.toList = [','].intercalate access.parts := String.toList_ofList
  obtain ⟨_, first, rest, same, _⟩ := access.targetText_plain
  have filled : access.opStr.isEmpty = false := by
    rw [Bool.eq_false_iff, ne_eq, String.isEmpty_iff]
    intro empty
    rw [← text, empty] at split
    have blank : [] = access.targetText := (List.cons.inj split).1
    rw [same] at blank
    cases blank
  rw [splitOperands, filled, if_neg (by simp), text, split]

/-- What begins with a character that is not white space begins so when trimmed. -/
theorem head_trimChars (first : Char) (rest : List Char) (solid : Text.isWhitespace first = false) :
    (Text.trimChars (first :: rest)).head? = some first := by
  unfold Text.trimChars
  rw [List.dropWhile_cons_of_neg (by simp [solid]), List.head?_reverse, List.reverse_cons]
  cases inner : rest.reverse.dropWhile Text.isWhitespace with
  | nil => simp [List.dropWhile_append, inner, solid]
  | cons last front =>
    rw [List.dropWhile_append, inner]
    simp only [List.isEmpty_cons, Bool.false_eq_true, if_false]
    exact List.getLast?_concat

/-- A part that does not begin with a bracket is not parsed as memory. -/
theorem parseOneOperand_not_mem (part : List Char) (first : Char) (rest : List Char)
    (begins : part = first :: rest ∨ part = ' ' :: first :: rest)
    (solid : Text.isWhitespace first = false) (other : first ≠ '[') (width : Width) :
    (parseOneOperand (String.ofList (Text.trimChars part)) width).bind Operand.mem? = none := by
  have trimmed : Text.trimChars part = Text.trimChars (first :: rest) := by
    rcases begins with rfl | rfl
    · rfl
    · unfold Text.trimChars
      rw [List.dropWhile_cons_of_pos (by decide)]
  have head : (Text.trimChars (Text.trimChars part)).head? = some first := by
    rw [trimmed]
    obtain ⟨tail, shape⟩ := List.head?_eq_some_iff.mp (head_trimChars first rest solid)
    rw [shape]
    exact head_trimChars first tail solid
  have bracket : ¬ some first = some '[' := fun same => other (Option.some.inj same)
  unfold parseOneOperand
  simp only [String.toList_ofList, head, if_neg bracket]
  split_ifs
  · rfl
  · split
    · rfl
    · cases parseRegister (Text.trimChars (Text.trimChars part)) width <;> rfl

/-- What a bracketed base register is parsed to, closed or cut off at a comma. -/
def baseOnly (base : Storage) : MemOperand := ⟨some ⟨base, .b64, false⟩, none, 1, 0, .b64⟩

theorem parseOneOperand_bracket (base : Storage) (addressable : base ≠ .nzcv ∧ base ≠ .gp .zr)
    (part : List Char) (bracketed : ∃ closed ∈ ([[], [']']] : List (List Char)),
      part = " [".toList ++ registerText base ++ closed) :
    parseOneOperand (String.ofList (Text.trimChars part)) .b64 = some (.mem (baseOnly base)) ∧
      Text.startsWith (String.ofList (Text.trimChars part)) "[" = true := by
  obtain ⟨rest, closed, rfl⟩ := bracketed
  simp only [List.mem_cons, List.not_mem_nil, or_false] at closed
  cases base with
  | gp cell =>
    cases cell with
    | zr => exact absurd rfl addressable.2
    | _ => rcases closed with rfl | rfl <;> decide +kernel
  | sp => rcases closed with rfl | rfl <;> decide +kernel
  | nzcv => exact absurd rfl addressable.1

/-- Only the second part of the operand text is bracketed. -/
theorem AccessText.parts_shape (access : AccessText) :
    ∃ bracketed others, access.parts = access.targetText :: bracketed :: others ∧
      (∃ closed ∈ ([[], [']']] : List (List Char)),
        bracketed = " [".toList ++ registerText access.base ++ closed) ∧
      ∀ part ∈ others, ∃ first rest, part = ' ' :: first :: rest ∧
        Text.isWhitespace first = false ∧ first ≠ '[' := by
  have immediate : ∀ value ending, ∃ first rest,
      ' ' :: immediateText access.hexadecimal value ++ ending = ' ' :: first :: rest ∧
        Text.isWhitespace first = false ∧ first ≠ '[' :=
    fun value ending => ⟨'#', _, rfl, by decide, by decide⟩
  have register : ∀ cell ending, ∃ first rest,
      ' ' :: registerText (.gp cell) ++ ending = ' ' :: first :: rest ∧
        Text.isWhitespace first = false ∧ first ≠ '[' := by
    intro cell ending
    obtain ⟨_, first, rest, same, plain⟩ := registerText_plain (.gp cell)
    exact ⟨first, rest ++ ending, by rw [same]; rfl, plain⟩
  unfold parts
  cases access.form with
  | base => exact ⟨_, [], rfl, ⟨[']'], by simp, rfl⟩, by simp⟩
  | disp value =>
    refine ⟨_, [_], rfl, ⟨[], by simp, by rw [List.append_nil]⟩, fun part member => ?_⟩
    rw [List.mem_singleton.mp member]
    exact immediate value [']']
  | index cell =>
    refine ⟨_, [_], rfl, ⟨[], by simp, by rw [List.append_nil]⟩, fun part member => ?_⟩
    rw [List.mem_singleton.mp member]
    exact register cell [']']
  | shifted cell shift =>
    refine ⟨_, [_, _], rfl, ⟨[], by simp, by rw [List.append_nil]⟩, fun part member => ?_⟩
    rcases List.mem_cons.mp member with same | last
    · have plain := register cell []
      rw [List.append_nil] at plain
      rw [same]
      exact plain
    · rw [List.mem_singleton.mp last]
      exact ⟨'l', _, rfl, by decide, by decide⟩
  | pre value =>
    refine ⟨_, [_], rfl, ⟨[], by simp, by rw [List.append_nil]⟩, fun part member => ?_⟩
    rw [List.mem_singleton.mp member]
    exact immediate value "]!".toList
  | post value =>
    refine ⟨_, [_], rfl, ⟨[']'], by simp, rfl⟩, fun part member => ?_⟩
    have plain := immediate value []
    rw [List.append_nil] at plain
    rw [List.mem_singleton.mp member]
    exact plain

/-- The memory operand that one part of the operand text gives. -/
def partMemory (part : List Char) : Option MemOperand :=
  (parseOneOperand (String.ofList (Text.trimChars part)) .b64).bind Operand.mem?

/-- Parts are parsed one by one. -/
theorem parseOperands_filterMap_mem (parts : List (List Char)) :
    (parseOperands (parts.map (fun part => String.ofList (Text.trimChars part))) .b64).filterMap
      Operand.mem? = parts.filterMap partMemory := by
  have pointwise : partMemory = fun part =>
      (parseOneOperand (String.ofList (Text.trimChars part)) .b64).bind Operand.mem? := by
    funext part
    rw [partMemory]
  rw [pointwise, parseOperands, List.filterMap_map, List.filterMap_filterMap]
  simp only [Function.comp_apply]

/-- The parsed operands have one memory operand: the base register alone. -/
theorem AccessText.parseOperands_mem (access : AccessText) :
    (parseOperands (splitOperands access.opStr) .b64).filterMap Operand.mem? =
        [baseOnly access.base] ∧
      (splitOperands access.opStr).any (fun operand => Text.startsWith operand "[") = true := by
  obtain ⟨bracketed, others, shape, opened, plain⟩ := access.parts_shape
  obtain ⟨parsed, bracket⟩ :=
    parseOneOperand_bracket access.base access.addressable bracketed opened
  have memory : partMemory bracketed = some (baseOnly access.base) := by
    rw [partMemory, parsed]
    rfl
  obtain ⟨_, first, rest, target, solid, other⟩ := access.targetText_plain
  have register : partMemory access.targetText = none :=
    parseOneOperand_not_mem access.targetText first rest (Or.inl target) solid other .b64
  have rest : others.filterMap partMemory = [] := by
    rw [List.filterMap_eq_nil_iff]
    intro part member
    obtain ⟨first, rest, same, solid, other⟩ := plain part member
    exact parseOneOperand_not_mem part first rest (Or.inr same) solid other .b64
  rw [access.splitOperands_opStr, shape]
  constructor
  · rw [parseOperands_filterMap_mem, List.filterMap_cons_none register,
      List.filterMap_cons_some memory, rest]
  · simp only [List.map_cons, List.any_cons, bracket, Bool.true_or, Bool.or_true]

/-- A load or store is lowered with its base register as the whole address. -/
theorem AccessText.lower_access (access : AccessText) :
    ∃ instr, lower (normalise access.raw) = .lowered instr ∧
      instr.operands.filterMap Operand.mem? = [baseOnly access.base] := by
  have table : ∀ mnemonic ∈ ["ldr", "ldrb", "ldrh", "ldrsb", "ldrsh", "ldrsw", "str", "strb", "strh"],
      splitMnemonic mnemonic = (mnemonic, "") ∧ Text.startsWith mnemonic "w" = false ∧
        mnemonic ≠ "movz" ∧
        (classify mnemonic = some .load ∨ classify mnemonic = some .store) := by
    decide +kernel
  obtain ⟨split, letter, other, kind⟩ := table access.mnemonic access.supported
  obtain ⟨memory, bracket⟩ := access.parseOperands_mem
  have mnemonic : (normalise access.raw).mnemonic = access.mnemonic := rfl
  have operands : (normalise access.raw).operands = splitOperands access.opStr := rfl
  unfold lower
  rw [mnemonic, operands, split]
  simp only [letter, other, bracket, Bool.false_eq_true, false_and, or_self, if_false, Bool.true_eq_false,
    and_false]
  rcases kind with load | store
  · rw [load]
    exact ⟨_, rfl, memory⟩
  · rw [store]
    exact ⟨_, rfl, memory⟩

/-- A load or store keeps its address and width through decoding and lowering exactly when
the base register is the whole address and the access has the width of a full register.

Proof: the bracket-aware parts are cut at their commas, so the memory operand is the base
register with no index, the factor one, no displacement and the default width. -/
theorem AccessText.survives_iff (access : AccessText) (written : Bool) :
    access.Survives written ↔
      access.indexRegister = none ∧ access.displacement written = 0 ∧ access.bytes = 8 := by
  obtain ⟨instr, lowered, memory⟩ := access.lower_access
  have unscaled : access.indexRegister = none → access.factor = 1 := by
    unfold indexRegister factor
    cases access.form <;> simp
  constructor
  · rintro ⟨other, mem, again, one, _, index, _, disp, width⟩
    rw [lowered] at again
    cases again
    rw [memory] at one
    cases one
    refine ⟨?_, disp.symm, ?_⟩
    · simpa [baseOnly] using index.symm
    · have bits : 64 = 8 * access.bytes := width
      omega
  · rintro ⟨index, disp, bytes⟩
    refine ⟨instr, baseOnly access.base, lowered, memory, rfl, ?_, ?_, ?_, ?_⟩
    · rw [index]
      rfl
    · rw [unscaled index]
      rfl
    · rw [disp]
      rfl
    · rw [bytes]
      rfl

/-- A load of a full register eight bytes behind its base. -/
def displacedLoad : AccessText where
  mnemonic := "ldr"
  supported := by decide
  target := .x0
  narrow := false
  base := .gp .x1
  addressable := by decide
  form := .disp 8
  hexadecimal := false

/-- The displacement of a plain load is lost. -/
theorem displacedLoad_loses_displacement :
    displacedLoad.opStr = "x0, [x1, #8]" ∧ ∀ written, ¬ displacedLoad.Survives written := by
  refine ⟨by decide +kernel, fun written survives => ?_⟩
  obtain ⟨instr, mem, lowered, memory, _, _, _, disp, _⟩ := survives
  have same : lower (normalise displacedLoad.raw) = .lowered ⟨"ldr", .load, .b64, none,
      [.reg Gp.x0.full, .mem (baseOnly (.gp .x1))]⟩ := by decide +kernel
  rw [same] at lowered
  cases lowered
  cases memory
  cases disp

end Semasm.AArch64
