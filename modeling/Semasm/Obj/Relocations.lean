import Mathlib.Data.List.Sort
import Semasm.Obj.File

/-!
# Relocation targets

A relocation names its symbol by the index the symbol has in its table. `parse` keeps
the names in the order of the iteration, the dynamic symbols behind the others, and
reads them by position. The two agree only where the symbol with an index stands at
that position, or a symbol of the same name does.
-/

namespace Semasm.Obj

/-- Symbol kinds of the container reader. -/
inductive SymbolKind where
  | unknown | text | data | sectionSymbol | file | label | tls
deriving DecidableEq, Repr

/-- A symbol with the index it has in its table. -/
structure TableSymbol extends ObjectSymbol where
  index : Nat
  address : UInt64
  kind : SymbolKind
deriving DecidableEq, Repr

/-- What a relocation refers to. -/
inductive RelocationTarget where
  | symbol (index : Nat)
  | sectionAt (index : Nat)
  | absolute
  | other
deriving DecidableEq, Repr

/-- Relocation kinds of the container reader. -/
inductive RelocationKind where
  | unknown | absolute | relative | got | gotRelative | gotBaseRelative | gotBaseOffset
  | pltRelative | imageOffset | sectionOffset | sectionIndex | other
deriving DecidableEq, Repr

/-- What the container reader reports of a relocation. -/
structure ObjectRelocation where
  offset : UInt64
  size : UInt8
  target : RelocationTarget
  kind : RelocationKind
  hasImplicitAddend : Bool
deriving DecidableEq, Repr

/-- A section with its relocations. -/
structure LinkedSection extends ObjectSection where
  relocations : List ObjectRelocation

/-- A file with its symbol tables and relocations. -/
structure LinkedFile where
  kind : ContainerKind
  architecture : Architecture
  sections : List LinkedSection
  symbols : List TableSymbol
  dynamicSymbols : List TableSymbol

/-- Symbol summary. -/
structure SymbolInfo where
  name : String
  address : UInt64
  kind : String
  global : Bool
  undefined : Bool
deriving DecidableEq, Repr

/-- Relocation summary. -/
structure RelocationInfo where
  offset : UInt64
  size : UInt8
  targetSymbol : String
  isRelative : Bool
deriving DecidableEq, Repr

/-- A parsed file with the rows of its symbols and relocations. -/
structure LinkedInfo extends ObjectInfo where
  symbols : List SymbolInfo
  relocations : List RelocationInfo
deriving DecidableEq, Repr

/-- What the other passages read of the file. -/
def LinkedFile.toObjectFile (file : LinkedFile) : ObjectFile where
  kind := file.kind
  architecture := file.architecture
  sections := file.sections.map LinkedSection.toObjectSection
  symbols := file.symbols.map TableSymbol.toObjectSymbol
  dynamicSymbols := file.dynamicSymbols.map TableSymbol.toObjectSymbol

/-- `symbol_kind_name`. -/
def symbolKindName : SymbolKind → String
  | .text => "text"
  | .data => "data"
  | .sectionSymbol => "section"
  | .file => "file"
  | .label => "label"
  | .tls => "tls"
  | .unknown => "unknown"

/-- `is_reloc_relative`. -/
def isRelocRelative (kind : RelocationKind) : Bool :=
  kind == .relative || kind == .gotRelative || kind == .gotBaseRelative ||
    kind == .pltRelative || kind == .imageOffset || kind == .sectionOffset

/-- The row `parse` keeps of a symbol. -/
def symbolInfo (symbol : TableSymbol) : SymbolInfo where
  name := symbol.name.getD ""
  address := symbol.address
  kind := symbolKindName symbol.kind
  global := symbol.isGlobal || symbol.isWeak
  undefined := symbol.isUndefined

/-- The symbols in the order `parse` reads them. -/
def LinkedFile.iteration (file : LinkedFile) : List TableSymbol :=
  file.symbols ++ file.dynamicSymbols

/-- The name of a symbol that has one. -/
def TableSymbol.shownName (symbol : TableSymbol) : Option String :=
  let name := symbol.name.getD ""
  if name = "" then none else some name

/-- `names_by_index`: one entry for each symbol read. -/
def LinkedFile.namesByIndex (file : LinkedFile) : List (Option String) :=
  file.iteration.map TableSymbol.shownName

/-- The text that stands for a symbol without a name. -/
def symbolPlaceholder (index : Nat) : String := "<symbol " ++ toString index ++ ">"

/-- The text of a target, given the names of the symbols. -/
def RelocationTarget.text (nameOf : Nat → Option String) : RelocationTarget → String
  | .symbol index => (nameOf index).getD (symbolPlaceholder index)
  | .sectionAt index => "<section " ++ toString index ++ ">"
  | .absolute => "<absolute>"
  | .other => "<unknown>"

/-- The row of a relocation, given the names of the symbols. -/
def relocationInfo (nameOf : Nat → Option String) (relocation : ObjectRelocation) :
    RelocationInfo where
  offset := relocation.offset
  size := relocation.size
  targetSymbol := relocation.target.text nameOf
  isRelative := isRelocRelative relocation.kind || relocation.hasImplicitAddend

/-- The rows of the relocations, sorted by offset. -/
def LinkedFile.relocationInfos (file : LinkedFile) (nameOf : Nat → Option String) :
    List RelocationInfo :=
  ((file.sections.flatMap LinkedSection.relocations).map (relocationInfo nameOf)).insertionSort
    (fun left right => left.offset ≤ right.offset)

/-- The name `parse` finds for an index: the entry at that position. -/
def LinkedFile.nameFor (file : LinkedFile) (index : Nat) : Option String :=
  file.namesByIndex[index]?.join

/-- `parse`, with the rows of the symbols and relocations. -/
def parseLinked (file : LinkedFile) : Except String LinkedInfo :=
  match parse file.toObjectFile with
  | .error reason => .error reason
  | .ok info =>
    .ok
      { toObjectInfo := info
        symbols := (file.iteration.map symbolInfo).insertionSort
          (fun left right => left.name ≤ right.name)
        relocations := file.relocationInfos file.nameFor }

/-- The tables a relocation may index. -/
inductive TableChoice where
  | regular | dynamic
deriving DecidableEq, Repr

/-- The symbols of a table. -/
def LinkedFile.table (file : LinkedFile) : TableChoice → List TableSymbol
  | .regular => file.symbols
  | .dynamic => file.dynamicSymbols

/-- The name of the symbol that carries the index, if there is one and it has one. -/
def LinkedFile.nameWithIndex (file : LinkedFile) (choice : TableChoice) (index : Nat) :
    Option String :=
  ((file.table choice).find? (fun symbol => symbol.index = index)).bind TableSymbol.shownName

/-- Whenever the file is accepted, every relocation is reported with the name of the
symbol that carries its index, and with the placeholder if there is none. -/
def TargetsRight (file : LinkedFile) (choice : TableChoice) : Prop :=
  ∀ info, parseLinked file = .ok info →
    info.relocations = file.relocationInfos (file.nameWithIndex choice)

/-- Two names that read the same where the placeholder of the index stands for none. -/
def ReadAlike (index : Nat) (left right : Option String) : Prop :=
  left = right ∨ (left = none ∧ right = some (symbolPlaceholder index)) ∨
    (left = some (symbolPlaceholder index) ∧ right = none)

/-- The symbol read at the position `index` has the name of the symbol that carries
`index`; a symbol that is missing counts as one without a name. -/
def InPlace (file : LinkedFile) (choice : TableChoice) (index : Nat) : Prop :=
  ReadAlike index (file.iteration[index]?.bind TableSymbol.shownName)
    (file.nameWithIndex choice index)

/-- The relocation with this target is in the file. -/
def LinkedFile.HasTarget (file : LinkedFile) (target : RelocationTarget) : Prop :=
  ∃ relocation ∈ file.sections.flatMap LinkedSection.relocations, relocation.target = target

/-- The name found is that of the symbol at the position. -/
theorem nameFor_eq (file : LinkedFile) (index : Nat) :
    file.nameFor index = file.iteration[index]?.bind TableSymbol.shownName := by
  rw [LinkedFile.nameFor, LinkedFile.namesByIndex, List.getElem?_map]
  cases file.iteration[index]? with
  | none => rfl
  | some symbol => rfl

/-- With the placeholder for none, names read alike exactly if their texts agree. -/
theorem text_eq_iff (index : Nat) (left right : Option String) :
    left.getD (symbolPlaceholder index) = right.getD (symbolPlaceholder index) ↔
      ReadAlike index left right := by
  cases left with
  | none =>
    cases right with
    | none => simp [ReadAlike]
    | some name => simp [ReadAlike, eq_comm]
  | some name =>
    cases right with
    | none => simp [ReadAlike]
    | some other => simp [ReadAlike]

/-- The order of the rows does not depend on the names. -/
theorem relocationInfos_eq_map (file : LinkedFile) (nameOf : Nat → Option String) :
    file.relocationInfos nameOf =
      ((file.sections.flatMap LinkedSection.relocations).insertionSort
        (fun left right => left.offset ≤ right.offset)).map (relocationInfo nameOf) := by
  rw [List.map_insertionSort (fun left right => left.offset ≤ right.offset)
    (fun left right => left.offset ≤ right.offset) (relocationInfo nameOf) _
    (fun left _ right _ => Iff.rfl)]
  rfl

/-- The rows of two namings agree exactly if each target has one text in both. -/
theorem relocationInfos_eq_iff (file : LinkedFile) (left right : Nat → Option String) :
    file.relocationInfos left = file.relocationInfos right ↔
      ∀ index, file.HasTarget (.symbol index) → ReadAlike index (left index) (right index) := by
  rw [relocationInfos_eq_map, relocationInfos_eq_map, List.map_inj_left]
  constructor
  · rintro same index ⟨relocation, listed, target⟩
    have rows := same relocation ((List.mem_insertionSort _).mpr listed)
    have texts := congrArg RelocationInfo.targetSymbol rows
    simp only [relocationInfo, target, RelocationTarget.text] at texts
    exact (text_eq_iff index _ _).mp texts
  · intro alike relocation listed
    have present := (List.mem_insertionSort _).mp listed
    have texts : relocation.target.text left = relocation.target.text right := by
      cases target : relocation.target with
      | symbol index => exact (text_eq_iff index _ _).mpr (alike index ⟨relocation, present, target⟩)
      | sectionAt index => rfl
      | absolute => rfl
      | other => rfl
    rw [relocationInfo, relocationInfo, texts]

/-- Whether a file is accepted depends on its architecture only. -/
theorem parseLinked_ok (file : LinkedFile) (info : LinkedInfo)
    (parsed : parseLinked file = .ok info) :
    (∃ isa, mapArchitecture file.architecture = .ok isa) ∧
      info.relocations = file.relocationInfos file.nameFor := by
  unfold parseLinked at parsed
  cases plain : parse file.toObjectFile with
  | error reason => simp [plain] at parsed
  | ok found =>
    simp only [plain, Except.ok.injEq] at parsed
    subst parsed
    refine ⟨?_, rfl⟩
    unfold parse at plain
    cases mapped : mapArchitecture file.toObjectFile.architecture with
    | error reason => simp [mapped] at plain
    | ok isa => exact ⟨isa, mapped⟩

/-- A file of a supported architecture is accepted. -/
theorem parseLinked_of_supported (file : LinkedFile) (isa : Isa)
    (supported : mapArchitecture file.architecture = .ok isa) :
    ∃ info, parseLinked file = .ok info := by
  have mapped : mapArchitecture file.toObjectFile.architecture = .ok isa := supported
  simp [parseLinked, parse, mapped]

/-- Relocations name the right symbols exactly in files whose symbols stand where
their relocations look for them, or that are refused.

    Proof: the rows are sorted by offset whatever the names are, and the entry at a
position is the name of the symbol read there. -/
theorem targets_right_iff (file : LinkedFile) (choice : TableChoice) :
    TargetsRight file choice ↔
      (∃ reason, mapArchitecture file.architecture = .error reason) ∨
        ∀ index, file.HasTarget (.symbol index) → InPlace file choice index := by
  have rows : file.relocationInfos file.nameFor =
      file.relocationInfos (file.nameWithIndex choice) ↔
        ∀ index, file.HasTarget (.symbol index) → InPlace file choice index := by
    rw [relocationInfos_eq_iff]
    simp only [nameFor_eq, InPlace]
  cases mapped : mapArchitecture file.architecture with
  | error reason =>
    constructor
    · intro right
      exact .inl ⟨reason, rfl⟩
    · rintro _ info parsed
      obtain ⟨⟨isa, supported⟩, _⟩ := parseLinked_ok file info parsed
      simp [mapped] at supported
  | ok isa =>
    obtain ⟨info, parsed⟩ := parseLinked_of_supported file isa mapped
    have found := (parseLinked_ok file info parsed).2
    constructor
    · intro right
      exact .inr (rows.mp (found.symm.trans (right info parsed)))
    · rintro (⟨reason, refused⟩ | placed) other accepted
      · cases refused
      · rw [(parseLinked_ok file other accepted).2]
        exact rows.mpr placed

/-- A defined function of a symbol table. -/
def definedFunction (name : String) (index : Nat) : TableSymbol :=
  ⟨⟨some name, true, false, false⟩, index, 0, .text⟩

/-- An object whose symbol table starts with a null entry that is not yielded, with one
relocation to its first function. -/
def objectWithNullEntry : LinkedFile where
  kind := .relocatable
  architecture := .x86_64
  sections := [⟨⟨some ".text", 0, 8, .text, .elf 6, .ok [0, 0, 0, 0, 0, 0, 0, 0]⟩,
    [⟨4, 32, .symbol 1, .relative, false⟩]⟩]
  symbols := [definedFunction "first" 1, definedFunction "second" 2]
  dynamicSymbols := []

/-- The relocation to the first function is reported with the name of the second. -/
theorem null_entry_shifts_targets :
    (∃ info, parseLinked objectWithNullEntry = .ok info ∧
        info.relocations.map RelocationInfo.targetSymbol = ["second"]) ∧
      objectWithNullEntry.nameWithIndex .regular 1 = some "first" ∧
      ¬ TargetsRight objectWithNullEntry .regular := by
  refine ⟨⟨_, rfl, by decide +kernel⟩, by decide +kernel, fun right => ?_⟩
  have rows := right _ rfl
  have targets := congrArg (List.map RelocationInfo.targetSymbol) rows
  revert targets
  decide +kernel

section Counted

/-- Symbols that carry their positions are found by position. -/
theorem find_index_of_counted (symbols : List TableSymbol) (start index : Nat)
    (counted : ∀ (position : Nat) (symbol : TableSymbol),
      symbols[position]? = some symbol → symbol.index = start + position) :
    symbols.find? (fun symbol => symbol.index = start + index) = symbols[index]? := by
  induction symbols generalizing start index with
  | nil => simp
  | cons symbol rest inductionHypothesis =>
    have head : symbol.index = start := by simpa using counted 0 symbol rfl
    cases index with
    | zero => simp [head]
    | succ index =>
      have later : ∀ position next, rest[position]? = some next →
          next.index = start + 1 + position := by
        intro position next listed
        have shifted := counted (position + 1) next (by simpa using listed)
        omega
      have found := inductionHypothesis (start + 1) index later
      rw [List.find?_cons_of_neg (by simp [head])]
      rw [List.getElem?_cons_succ, ← found]
      congr 1
      funext next
      congr 2
      omega

/-- Where the symbols carry their positions and no dynamic symbols follow, all
relocations are right. -/
theorem inPlace_of_counted (file : LinkedFile)
    (counted : ∀ (position : Nat) (symbol : TableSymbol),
      file.symbols[position]? = some symbol → symbol.index = position)
    (alone : file.dynamicSymbols = []) (index : Nat) : InPlace file .regular index := by
  left
  have found := find_index_of_counted file.symbols 0 index
    (fun position symbol listed => by rw [counted position symbol listed, Nat.zero_add])
  rw [Nat.zero_add] at found
  rw [LinkedFile.iteration, alone, List.append_nil, LinkedFile.nameWithIndex, LinkedFile.table,
    found]

/-- Where the symbols count from one, a target has the name of the symbol after it. -/
theorem nameFor_of_counted_from_one (file : LinkedFile)
    (counted : ∀ (position : Nat) (symbol : TableSymbol),
      file.symbols[position]? = some symbol → symbol.index = 1 + position)
    (alone : file.dynamicSymbols = []) (index : Nat) :
    file.nameFor index = file.nameWithIndex .regular (index + 1) := by
  have found := find_index_of_counted file.symbols 1 index counted
  rw [Nat.add_comm 1 index] at found
  rw [nameFor_eq, LinkedFile.iteration, alone, List.append_nil, LinkedFile.nameWithIndex,
    LinkedFile.table, found]

end Counted

end Semasm.Obj
