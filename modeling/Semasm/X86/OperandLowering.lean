import Semasm.X86.OperandText

/-!
# What an operand text is lowered to

The two paths of the lowering on a memory operand. The text without a size prefix is
parsed as a whole. A text with a prefix that gives a width is cut at the first opening
and the last closing bracket: what stands before it is lost, and an address that cannot
be parsed becomes the address zero.
-/

namespace Semasm.X86

open Decode

/-- A size word is only found where a size word stands. -/
theorem prefixWidth_eq_none (token : List Char)
    (noSize : ∀ size : SizeWord, size.text.toList ≠ token) :
    prefixWidth (String.ofList token) = none := by
  have apart (size : SizeWord) : String.ofList token ≠ size.text := by
    intro same
    exact noSize size (by rw [← same, String.toList_ofList])
  unfold prefixWidth
  split
  next same => exact absurd same (apart .byte)
  next same => exact absurd same (apart .word)
  next same => exact absurd same (apart .dword)
  next same => exact absurd same (apart .qword)
  next => rfl

/-- A word with a bracket is no size word. -/
theorem SizeWord.text_ne_of_bracket (size : SizeWord) (token : List Char)
    (bracket : '[' ∈ token ∨ ']' ∈ token) : size.text.toList ≠ token := by
  intro same
  have letters := List.all_eq_true.mp size.text_plain.1
  rw [same] at letters
  rcases bracket with opening | closing
  · exact absurd (letters '[' opening) (by decide)
  · exact absurd (letters ']' closing) (by decide)

/-- The parts of words that are joined and closed with a bracket. -/
theorem splitWhitespace_closed (words : List (List Char)) (solid : ∀ word ∈ words, Text.Solid word) :
    ∀ token ∈ Text.splitWhitespace ([' '].intercalate words ++ [']']),
      token ∈ words ∨ ']' ∈ token := by
  induction words with
  | nil => decide
  | cons word rest inductionHypothesis =>
    intro token member
    have here := solid word List.mem_cons_self
    cases rest with
    | nil =>
      have closed : Text.Solid (word ++ [']']) :=
        ⟨by simp, fun c inside => by
          rcases List.mem_append.mp inside with front | last
          · exact here.2 c front
          · rw [List.mem_singleton.mp last]
            decide⟩
      have text : [' '].intercalate [word] ++ [']'] = word ++ [']'] := by simp [List.intercalate]
      rw [text, Text.splitWhitespace_word _ closed, List.mem_singleton] at member
      right
      simp [member]
    | cons next others =>
      have text : [' '].intercalate (word :: next :: others) ++ [']'] =
          word ++ ' ' :: ([' '].intercalate (next :: others) ++ [']']) := by
        simp [List.intercalate, List.intersperse]
      rw [text, Text.splitWhitespace_append, Text.splitWhitespace_word word here,
        List.singleton_append, List.mem_cons] at member
      rcases member with rfl | later
      · exact .inl List.mem_cons_self
      · rcases inductionHypothesis (fun other inside => solid other (List.mem_cons_of_mem _ inside))
          token later with listed | closing
        · exact .inl (List.mem_cons_of_mem _ listed)
        · exact .inr closing

/-- The parts of a bracketed text behind a text without blanks. -/
theorem splitWhitespace_bracketed (front : List Char) (words : List (List Char))
    (plain : ∀ c ∈ front, Text.isWhitespace c = false) (solid : ∀ word ∈ words, Text.Solid word) :
    ∀ token ∈ Text.splitWhitespace (front ++ '[' :: [' '].intercalate words ++ [']']),
      token ∈ words ∨ '[' ∈ token ∨ ']' ∈ token := by
  have opened (text : List Char) (clear : ∀ c ∈ text, Text.isWhitespace c = false) :
      Text.Solid (front ++ '[' :: text) := by
    refine ⟨by simp, fun c inside => ?_⟩
    rcases List.mem_append.mp inside with before | after
    · exact plain c before
    · rcases List.mem_cons.mp after with rfl | later
      · decide
      · exact clear c later
  intro token member
  cases words with
  | nil =>
    have text : front ++ '[' :: [' '].intercalate [] ++ [']'] = front ++ '[' :: [']'] := by
      simp [List.intercalate]
    have closing : ∀ c ∈ [']'], Text.isWhitespace c = false := by
      simpa using (by decide : Text.isWhitespace ']' = false)
    rw [text, Text.splitWhitespace_word _ (opened [']'] closing), List.mem_singleton] at member
    exact .inr (.inl (by simp [member]))
  | cons word rest =>
    have here := solid word List.mem_cons_self
    cases rest with
    | nil =>
      have text : front ++ '[' :: [' '].intercalate [word] ++ [']'] =
          front ++ '[' :: (word ++ [']']) := by
        simp [List.intercalate]
      have closing : ∀ c ∈ word ++ [']'], Text.isWhitespace c = false := by
        intro c inside
        rcases List.mem_append.mp inside with before | last
        · exact here.2 c before
        · rw [List.mem_singleton.mp last]
          decide
      rw [text, Text.splitWhitespace_word _ (opened _ closing), List.mem_singleton] at member
      exact .inr (.inl (by simp [member]))
    | cons next others =>
      have text : front ++ '[' :: [' '].intercalate (word :: next :: others) ++ [']'] =
          (front ++ '[' :: word) ++ ' ' :: ([' '].intercalate (next :: others) ++ [']']) := by
        simp [List.intercalate, List.intersperse]
      rw [text, Text.splitWhitespace_append, Text.splitWhitespace_word _ (opened word here.2),
        List.singleton_append, List.mem_cons] at member
      rcases member with rfl | later
      · exact .inr (.inl (by simp))
      · rcases splitWhitespace_closed (next :: others)
          (fun other inside => solid other (List.mem_cons_of_mem _ inside)) token later with
          listed | closing
        · exact .inl (List.mem_cons_of_mem _ listed)
        · exact .inr (.inr closing)

/-! ## The text behind the size prefix -/

/-- A segment override begins with a letter and has neither blank, bracket nor `p`. -/
theorem MemoryText.segmentText_plain (memory : MemoryText) :
    (memory.segmentText.all fun c => !Text.isWhitespace c && c != '[' && c != 'p') = true ∧
      (memory.segment ≠ none → ∃ first rest, memory.segmentText = first :: rest ∧
        97 ≤ first.toNat) := by
  unfold segmentText
  rcases Option.eq_none_or_eq_some memory.segment with none_ | ⟨segment, some_⟩
  · simp [none_]
  · rw [some_]
    cases segment <;> exact ⟨by decide, fun _ => ⟨_, _, rfl, by decide⟩⟩

/-- The text between the brackets has none. -/
theorem MemoryText.bracket_notMem_body (memory : MemoryText) : '[' ∉ memory.body := by
  intro member
  rcases Text.mem_intercalate member with blank | ⟨word, listed, inside⟩
  · exact absurd blank (by decide)
  · exact (memory.words_plain word listed).2.1 inside

/-- No part of the text behind the prefix is a size word. -/
theorem MemoryText.findSome_addressText (memory : MemoryText) :
    ((Text.splitWhitespace memory.addressText).map String.ofList).findSome? prefixWidth = none := by
  have plain := List.all_eq_true.mp memory.segmentText_plain.1
  have clear : ∀ c ∈ memory.segmentText, Text.isWhitespace c = false := by
    intro c member
    have all := plain c member
    simp only [Bool.and_eq_true, Bool.not_eq_true'] at all
    exact all.1.1
  rw [List.findSome?_eq_none_iff]
  intro token member
  obtain ⟨part, listed, rfl⟩ := List.mem_map.mp member
  apply prefixWidth_eq_none
  rcases splitWhitespace_bracketed memory.segmentText memory.words clear
    (fun word inside => (memory.words_plain word inside).1) part listed with word | bracket
  · exact (memory.words_plain part word).2.2.2
  · exact fun size => size.text_ne_of_bracket part bracket

/-- The whole text is bracketed where there is no segment. -/
theorem MemoryText.bracketed_addressText (memory : MemoryText) :
    bracketed memory.addressText = if memory.segment = none then some memory.body else none := by
  rcases Option.eq_none_or_eq_some memory.segment with none_ | ⟨segment, some_⟩
  · have text : memory.addressText = '[' :: (memory.body ++ [']']) := by
      simp [addressText, segmentText, none_]
    rw [if_pos none_, text, bracketed, Text.stripSuffix_concat]
  · have other : memory.segment ≠ none := by simp [some_]
    obtain ⟨first, rest, shape, letter⟩ := memory.segmentText_plain.2 other
    rw [if_neg other, addressText, shape, List.cons_append, List.cons_append]
    unfold bracketed
    split
    next inner same =>
      rw [(List.cons.inj same).1] at letter
      exact absurd letter (by decide)
    next => rfl

/-- A text that begins with a letter and has a bracket is neither number nor register. -/
theorem parseReg_of_letter (first : Char) (rest : List Char) (letter : 97 ≤ first.toNat)
    (bracket : '[' ∈ first :: rest) :
    bracketed (first :: rest) = none ∧ parseHex (first :: rest) = none ∧
      Text.parseI64 10 (first :: rest) = none ∧ parseReg (first :: rest) = none := by
  have apart (c : Char) (low : c.toNat < 97) : first ≠ c := by
    intro same
    rw [same] at letter
    omega
  refine ⟨?_, ?_, Text.parseI64_letter first rest letter, ?_⟩
  · unfold bracketed
    split
    next inner same => exact absurd (List.cons.inj same).1 (apart '[' (by decide))
    next => rfl
  · unfold parseHex
    split
    next same => exact absurd (List.cons.inj same).1 (apart '0' (by decide))
    next same => exact absurd (List.cons.inj same).1 (apart '0' (by decide))
    next => rfl
  · cases found : parseReg (first :: rest) with
    | none => rfl
    | some register =>
      obtain ⟨view, same⟩ := exists_view_of_parseReg found
      have plain := (AddressName.view view).text_plain.2
      change ∀ c ∈ view.text, nameChar c = true at plain
      rw [same] at plain
      exact absurd rfl (nameChar_plain (plain '[' bracket)).2.1

/-- What the path without a width returns: the components, or nothing. -/
def MemoryText.plainOperand (memory : MemoryText) : Option Operand :=
  if memory.segment = none ∧ memory.Named ∧ memory.Small then
    some (.mem { memory.components with width := .b64 })
  else none

/-- The text has no blank at either end. -/
theorem MemoryText.trimChars_addressText (memory : MemoryText) :
    Text.trimChars memory.addressText = memory.addressText := by
  have plain := List.all_eq_true.mp memory.segmentText_plain.1
  apply Text.trimChars_of_ends
  · intro c first
    unfold addressText at first
    cases shape : memory.segmentText with
    | nil =>
      rw [shape] at first
      cases first
      decide
    | cons letter rest =>
      have all := plain letter (by simp [shape])
      rw [shape] at first
      cases first
      simp only [Bool.and_eq_true, Bool.not_eq_true'] at all
      exact all.1.1
  · intro c last
    rw [addressText, List.getLast?_concat] at last
    cases last
    decide

/-- The components of the body, when there is a body to parse. -/
theorem MemoryText.map_parseMemory (memory : MemoryText) (alone : memory.segment = none) :
    (parseMemory memory.body).map Operand.mem = memory.plainOperand := by
  rw [memory.parseMemory_body, plainOperand]
  by_cases read : memory.Named ∧ memory.Small
  · rw [if_pos read, if_pos ⟨alone, read⟩]
    rfl
  · rw [if_neg read, if_neg fun all => read all.2]
    rfl

/-- The address alone is parsed to its components, and is refused with a segment. -/
theorem MemoryText.parseOperand_addressText (memory : MemoryText) :
    parseOperand memory.addressText = memory.plainOperand := by
  have plain := List.all_eq_true.mp memory.segmentText_plain.1
  have prefixed : (Text.afterFirst "ptr".toList memory.addressText).bind
      (fun rest => bracketed (Text.trimChars rest)) = none := by
    have front : 'p' ∉ memory.segmentText ++ ['['] := by
      intro member
      rcases List.mem_append.mp member with inside | bracket
      · exact absurd (plain 'p' inside) (by simp)
      · exact absurd (List.mem_singleton.mp bracket) (by decide)
    have text : memory.addressText = (memory.segmentText ++ ['[']) ++ (memory.body ++ [']']) := by
      simp [addressText]
    have skipped := Text.afterFirst_skip 'p' ['t', 'r'] _ (memory.body ++ [']']) front
    rw [← text] at skipped
    change (Text.afterFirst ['p', 't', 'r'] memory.addressText).bind _ = none
    rw [skipped]
    cases found : Text.afterFirst ['p', 't', 'r'] (memory.body ++ [']']) with
    | none => rfl
    | some rest =>
      have clear : '[' ∉ Text.trimChars rest := by
        intro member
        have inside := (Text.afterFirst_suffix _ _ _ found).mem (Text.mem_of_mem_trimChars member)
        rcases List.mem_append.mp inside with body | closing
        · exact memory.bracket_notMem_body body
        · exact absurd (List.mem_singleton.mp closing) (by decide)
      rw [Option.bind_some]
      unfold bracketed
      split
      next inner same => exact absurd (same ▸ List.mem_cons_self) clear
      next => rfl
  unfold parseOperand
  simp only [memory.trimChars_addressText, prefixed, Option.orElse_none,
    memory.bracketed_addressText]
  by_cases alone : memory.segment = none
  · rw [if_pos alone]
    exact memory.map_parseMemory alone
  · obtain ⟨first, rest, shape, letter⟩ := memory.segmentText_plain.2 alone
    have text : memory.addressText = first :: (rest ++ '[' :: memory.body ++ [']']) := by
      simp [addressText, shape]
    obtain ⟨-, noHex, noNumber, noRegister⟩ := parseReg_of_letter first
      (rest ++ '[' :: memory.body ++ [']']) letter (by simp)
    rw [if_neg alone, text]
    simp only [noHex, noNumber, noRegister, Option.orElse_none]
    rw [plainOperand, if_neg fun all => alone all.1]
    rfl

/-- Behind a size prefix it is the same, where the prefix gives no width. -/
theorem MemoryText.parseOperand_prefixed (memory : MemoryText) (size : SizeWord)
    (sized : memory.size = some size) :
    parseOperand (memory.sizeText ++ memory.addressText) = memory.plainOperand := by
  have letters := List.all_eq_true.mp size.text_plain.1
  have front : 'p' ∉ size.text.toList ++ [' '] := by
    intro member
    rcases List.mem_append.mp member with inside | blank
    · exact absurd (letters 'p' inside) (by simp)
    · exact absurd (List.mem_singleton.mp blank) (by decide)
  have text : memory.sizeText ++ memory.addressText =
      (size.text.toList ++ [' ']) ++ (['p', 't', 'r'] ++ ' ' :: memory.addressText) := by
    simp [sizeText, sized]
  obtain ⟨first, others, begins⟩ := List.exists_cons_of_ne_nil size.text_plain.2.2
  have letter := letters first (by simp [begins])
  simp only [Bool.and_eq_true, decide_eq_true_eq, Bool.not_eq_true'] at letter
  have trimmed : Text.trimChars (memory.sizeText ++ memory.addressText) =
      memory.sizeText ++ memory.addressText := by
    apply Text.trimChars_of_ends
    · intro c start
      rw [text, begins] at start
      cases start
      exact letter.2
    · intro c last
      rw [addressText, ← List.append_assoc, List.getLast?_concat] at last
      cases last
      decide
  have after : Text.afterFirst "ptr".toList (memory.sizeText ++ memory.addressText) =
      some (' ' :: memory.addressText) := by
    rw [text]
    exact (Text.afterFirst_skip 'p' ['t', 'r'] _ _ front).trans
      (Text.afterFirst_start 'p' ['t', 'r'] _)
  unfold parseOperand
  simp only [trimmed, after, Option.bind_some, Text.trimChars_blank, memory.trimChars_addressText,
    memory.bracketed_addressText]
  by_cases alone : memory.segment = none
  · rw [if_pos alone]
    exact memory.map_parseMemory alone
  · have bracket : '[' ∈ memory.sizeText ++ memory.addressText := by simp [addressText]
    have shape : memory.sizeText ++ memory.addressText =
        first :: (others ++ ' ' :: (['p', 't', 'r'] ++ ' ' :: memory.addressText)) := by
      simp [text, begins]
    rw [shape] at bracket ⊢
    obtain ⟨noBracket, noHex, noNumber, noRegister⟩ :=
      parseReg_of_letter first _ letter.1.1 bracket
    rw [if_neg alone]
    simp only [noBracket, noHex, noNumber, noRegister, Option.orElse_none]
    rw [plainOperand, if_neg fun all => alone all.1]
    rfl

/-! ## The operand -/

/-- The words of the size prefix come before those of the address. -/
theorem MemoryText.splitWhitespace_prefixed (memory : MemoryText) (size : SizeWord)
    (sized : memory.size = some size) :
    Text.splitWhitespace (memory.sizeText ++ memory.addressText) =
      size.text.toList :: ['p', 't', 'r'] :: Text.splitWhitespace memory.addressText := by
  have letters := List.all_eq_true.mp size.text_plain.1
  have solid : Text.Solid size.text.toList := by
    refine ⟨size.text_plain.2.2, fun c member => ?_⟩
    have letter := letters c member
    simp only [Bool.and_eq_true, Bool.not_eq_true'] at letter
    exact letter.2
  have text : memory.sizeText ++ memory.addressText =
      size.text.toList ++ ' ' :: (['p', 't', 'r'] ++ ' ' :: memory.addressText) := by
    simp [sizeText, sized]
  have pointer : Text.splitWhitespace ['p', 't', 'r'] = [['p', 't', 'r']] := by decide
  rw [text, Text.splitWhitespace_append, Text.splitWhitespace_append,
    Text.splitWhitespace_word _ solid, pointer]
  rfl

/-- The width of a size word is found. -/
theorem SizeWord.prefixWidth_text (size : SizeWord) : prefixWidth size.text = size.width? := by
  cases size <;> decide

/-- Without a size prefix, or with one that gives no width, the whole text is parsed. -/
theorem MemoryText.lowerOperand_plain (memory : MemoryText)
    (sized : memory.size.bind SizeWord.width? = none) :
    lowerOperand memory.raw = memory.plainOperand := by
  have parts := memory.findSome_addressText
  unfold lowerOperand raw
  simp only [String.toList_ofList]
  rcases Option.eq_none_or_eq_some memory.size with none_ | ⟨size, some_⟩
  · have text : memory.sizeText ++ memory.addressText = memory.addressText := by
      simp [sizeText, none_]
    rw [text, parts]
    exact memory.parseOperand_addressText
  · rw [some_, Option.bind_some] at sized
    have pointer : prefixWidth (String.ofList ['p', 't', 'r']) = none := by decide
    rw [memory.splitWhitespace_prefixed size some_, List.map_cons, List.map_cons,
      String.ofList_toList, List.findSome?_cons, size.prefixWidth_text, sized,
      List.findSome?_cons, pointer]
    simp only [parts]
    exact memory.parseOperand_prefixed size some_

/-- With a size prefix that gives a width, the address is that between the brackets, or
zero where it cannot be parsed. -/
theorem MemoryText.lowerOperand_sized (memory : MemoryText) (size : SizeWord) (width : Width)
    (sized : memory.size = some size) (known : size.width? = some width) :
    lowerOperand memory.raw = some (.mem
      (if memory.Named ∧ memory.Small then { memory.components with width := width }
        else ⟨none, none, 1, 0, width⟩)) := by
  have clear : '[' ∉ memory.sizeText ++ memory.segmentText := by
    have letters := List.all_eq_true.mp size.text_plain.1
    have plain := List.all_eq_true.mp memory.segmentText_plain.1
    intro member
    rcases List.mem_append.mp member with inside | segment
    · simp only [sizeText, sized, List.mem_append] at inside
      rcases inside with word | pointer
      · exact absurd (letters '[' word) (by decide)
      · exact absurd pointer (by decide)
    · exact absurd (plain '[' segment) (by simp)
  have text : memory.sizeText ++ memory.addressText =
      (memory.sizeText ++ memory.segmentText) ++ '[' :: (memory.body ++ [']']) := by
    simp [addressText]
  have inner : (Text.afterFirst ['['] (memory.sizeText ++ memory.addressText)).bind
      (Text.beforeLast ']') = some memory.body := by
    rw [text, Text.afterFirst_append '[' _ _ clear, Option.bind_some, Text.beforeLast_concat]
  unfold lowerOperand raw
  simp only [String.toList_ofList]
  rw [memory.splitWhitespace_prefixed size sized, List.map_cons, String.ofList_toList,
    List.findSome?_cons, size.prefixWidth_text, known]
  simp only [inner, memory.parseMemory_body]
  split_ifs <;> rfl

/-! ## The instruction -/

/-- Operands are lowered in place. -/
theorem getElem?_of_mapM {α β : Type} {f : α → Option β} {xs : List α} {ys : List β}
    (mapped : xs.mapM f = some ys) (position : Nat) (x : α) (here : xs[position]? = some x) :
    ∃ y, f x = some y ∧ ys[position]? = some y := by
  induction xs generalizing ys position with
  | nil => cases here
  | cons first rest inductionHypothesis =>
    rw [List.mapM_cons, Option.bind_eq_bind, Option.bind_eq_some_iff] at mapped
    obtain ⟨y, one, mapped⟩ := mapped
    rw [Option.bind_eq_bind, Option.bind_eq_some_iff] at mapped
    obtain ⟨others, more, same⟩ := mapped
    cases same
    cases position with
    | zero =>
      cases here
      exact ⟨y, one, rfl⟩
    | succ position => exact inductionHypothesis more position here

/-- One operand that is refused refuses all. -/
theorem mapM_eq_none {α β : Type} {f : α → Option β} {xs : List α} {x : α} (member : x ∈ xs)
    (refused : f x = none) : xs.mapM f = none := by
  induction xs with
  | nil => cases member
  | cons first rest inductionHypothesis =>
    rw [List.mapM_cons]
    rcases List.mem_cons.mp member with rfl | later
    · rw [refused]
      rfl
    · rw [inductionHypothesis later]
      cases f first <;> rfl

/-- Operands that are all understood are lowered. -/
theorem exists_mapM {α β : Type} {f : α → Option β} {xs : List α}
    (understood : ∀ x ∈ xs, (f x).isSome = true) : ∃ ys, xs.mapM f = some ys := by
  induction xs with
  | nil => exact ⟨[], rfl⟩
  | cons first rest inductionHypothesis =>
    obtain ⟨others, more⟩ := inductionHypothesis fun x member =>
      understood x (List.mem_cons_of_mem _ member)
    obtain ⟨y, one⟩ := Option.isSome_iff_exists.mp (understood first List.mem_cons_self)
    exact ⟨y :: others, by simp [List.mapM_cons, one, more]⟩

/-- Whether the components are preserved is decided by the operand alone. -/
theorem MemoryText.preserved_iff_operand (memory : MemoryText) :
    memory.Preserved ↔
      (memory.Understood → lowerOperand memory.raw = some (.mem memory.components)) ∧
        (¬ memory.Understood → lowerOperand memory.raw = none) := by
  constructor
  · intro preserved
    have kind : supportedKind (Text.asciiLower "mov") = some (.store, none) := by decide
    have here := preserved ⟨0, [], "mov", [memory.raw], [], [], [], false⟩ 0 (by rw [kind]; rfl) rfl
      (fun other member different => absurd (List.mem_singleton.mp member) different)
    refine ⟨fun understood => ?_, fun refused => ?_⟩
    · obtain ⟨lowered, isLowered, found⟩ := here.1 understood
      simp only [lower, kind] at isLowered
      split at isLowered
      next => cases isLowered
      next operands mapped =>
        cases isLowered
        obtain ⟨operand, read, placed⟩ := getElem?_of_mapM mapped 0 memory.raw rfl
        rw [read, ← Option.some.inj (placed.symm.trans found)]
    · have unsupported := here.2 refused
      simp only [lower, kind] at unsupported
      split at unsupported
      next mapped =>
        cases read : lowerOperand memory.raw with
        | none => rfl
        | some operand => simp [List.mapM_cons, read] at mapped
      next => cases unsupported
  · rintro ⟨kept, refused⟩ instr position supported placed others
    obtain ⟨⟨kind, signed⟩, isKind⟩ := Option.isSome_iff_exists.mp supported
    refine ⟨fun understood => ?_, fun foreign => ?_⟩
    · have all : ∀ other ∈ instr.operands, (lowerOperand other).isSome = true := by
        intro other member
        by_cases same : other = memory.raw
        · rw [same, kept understood]
          rfl
        · exact others other member same
      obtain ⟨operands, mapped⟩ := exists_mapM all
      obtain ⟨operand, read, found⟩ := getElem?_of_mapM mapped position memory.raw placed
      rw [kept understood] at read
      refine ⟨⟨instr.mnemonic, kind, inferWidth operands, signed, operands⟩, ?_, ?_⟩
      · simp only [lower, isKind, mapped]
      · rw [found, ← Option.some.inj read]
    · have none_ := mapM_eq_none (List.mem_of_getElem? placed) (refused foreign)
      simp only [lower, isKind, none_]

/-- A displacement from `2 ^ 63` on is not zero. -/
theorem DispText.value_ne_zero (disp : DispText) (large : ¬ disp.magnitude < 2 ^ 63) :
    disp.value ≠ 0 := by
  intro zero
  have bounded := disp.bounded
  have number := congrArg Int64.toInt zero
  rw [DispText.value, Int64.toInt_ofInt] at number
  have divides := Int.dvd_of_bmod_eq_zero number
  change (18446744073709551616 : Int) ∣ _ at divides
  split_ifs at divides <;> omega

/-- The address of a memory operand is preserved for exactly the texts that are read
rightly. Proof: what the two paths of the lowering return is known, and an address of zero
differs from a displacement that does not fit. -/
theorem memory_text_preserved_iff (memory : MemoryText) :
    memory.Preserved ↔ memory.ReadRightly := by
  rw [memory.preserved_iff_operand]
  unfold MemoryText.ReadRightly
  cases sized : memory.size with
  | none =>
    have read := memory.lowerOperand_plain (by simp [sized])
    have understood : memory.Understood ↔ memory.segment = none ∧ memory.Named := by
      simp [MemoryText.Understood, sized]
    have width : { memory.components with width := .b64 } = memory.components := by
      simp [MemoryText.components, MemoryText.width, sized]
    rw [read, understood, MemoryText.plainOperand, width]
    by_cases plain : memory.segment = none ∧ memory.Named
    · by_cases small : memory.Small
      · simp [plain, small]
      · simp [plain, small]
    · have foreign : ¬ (memory.segment = none ∧ memory.Named ∧ memory.Small) :=
        fun all => plain ⟨all.1, all.2.1⟩
      rw [if_neg foreign]
      simp only [plain, false_imp_iff, not_false_iff, true_imp_iff, true_and, true_iff]
      exact fun alone named => absurd ⟨alone, named⟩ plain
  | some size =>
    cases known : size.width? with
    | none =>
      have read := memory.lowerOperand_plain (by simp [sized, known])
      have foreign : ¬ memory.Understood := by
        intro understood
        simpa [known] using understood.2.2 size sized
      rw [read, MemoryText.plainOperand]
      simp [foreign, known]
    | some width =>
      have read := memory.lowerOperand_sized size width sized known
      have understood : memory.Understood ↔ memory.segment = none ∧ memory.Named := by
        simp [MemoryText.Understood, sized, known]
      have components : { memory.components with width := width } = memory.components := by
        simp [MemoryText.components, MemoryText.width, sized, known]
      rw [read, understood, components]
      by_cases plain : memory.segment = none ∧ memory.Named
      · by_cases small : memory.Small
        · simp [plain, small, known]
        · have large : ∃ part, memory.disp = some part ∧ ¬ part.magnitude < 2 ^ 63 := by
            unfold MemoryText.Small at small
            rw [not_forall] at small
            obtain ⟨part, fails⟩ := small
            rw [Classical.not_imp] at fails
            exact ⟨part, fails.1, fails.2⟩
          obtain ⟨part, written, exceeds⟩ := large
          have nonzero := part.value_ne_zero exceeds
          have differs : (⟨none, none, 1, 0, width⟩ : MemOperand) ≠ memory.components := by
            intro same
            have disp := congrArg MemOperand.disp same
            simp only [MemoryText.components, written, Option.map_some, Option.getD_some] at disp
            exact nonzero disp.symm
          simp [plain, small, differs, known]
      · have foreign : ¬ (memory.segment = none ∧ memory.Named ∧ memory.Small) :=
          fun all => plain ⟨all.1, all.2.1⟩
        simp [plain, foreign, known]

/-- The segment of a thread-local load is lost: the operand is that of the plain address. -/
theorem segment_override_dropped :
    ∃ memory : MemoryText, memory.raw = "qword ptr fs:[0x28]" ∧
      lowerOperand memory.raw = some (.mem ⟨none, none, 1, 0x28, .b64⟩) ∧
      ¬ memory.Preserved := by
  let memory : MemoryText :=
    ⟨some .qword, some .fs, none, none, some ⟨false, true, 0x28, by decide⟩, by simp, by simp⟩
  have text : memory.raw = "qword ptr fs:[0x28]" := by decide +kernel
  have lowered : lowerOperand memory.raw = some (.mem ⟨none, none, 1, 0x28, .b64⟩) := by
    rw [text]
    decide +kernel
  have foreign : ¬ memory.Understood := fun understood => by cases understood.1
  refine ⟨memory, text, lowered, fun preserved => ?_⟩
  have refused := (memory.preserved_iff_operand.mp preserved).2 foreign
  rw [lowered] at refused
  cases refused

end Semasm.X86
