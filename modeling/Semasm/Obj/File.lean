import Semasm.Obj.Sections

/-!
# Object files

The normalised view of an object file that the candidate gates read: the
container kind, the architecture, the section summaries, and the names the
symbol table imports and exports.
-/

namespace Semasm.Obj

/-- Target instruction sets. -/
inductive Isa where
  | x86_64 | aarch64 | riscv64 | riscv32
deriving DecidableEq, Repr

/-- The text of an instruction set. -/
def Isa.text : Isa → String
  | .x86_64 => "x86_64"
  | .aarch64 => "aarch64"
  | .riscv64 => "riscv64"
  | .riscv32 => "riscv32"

/-- Architectures of the container reader. -/
inductive Architecture where
  | x86_64 | aarch64 | riscv64 | riscv32
  | other (name : String)
deriving DecidableEq, Repr

/-- Semantic kind of an object container. -/
inductive ContainerKind where
  | relocatable | executable | dynamic | core | unknown
deriving DecidableEq, Repr

/-- The debug text of a container kind. -/
def ContainerKind.text : ContainerKind → String
  | .relocatable => "Relocatable"
  | .executable => "Executable"
  | .dynamic => "Dynamic"
  | .core => "Core"
  | .unknown => "Unknown"

/-- What the container reader reports of a symbol. -/
structure ObjectSymbol where
  name : Option String
  isGlobal : Bool
  isWeak : Bool
  isUndefined : Bool
deriving DecidableEq, Repr

/-- What the container reader reports of a file. -/
structure ObjectFile where
  kind : ContainerKind
  architecture : Architecture
  sections : List ObjectSection
  symbols : List ObjectSymbol
  dynamicSymbols : List ObjectSymbol

/-- A parsed object file. -/
structure ObjectInfo where
  kind : ContainerKind
  architecture : Isa
  sections : List SectionInfo
  imports : List String
  exports : List String
deriving DecidableEq, Repr

/-- `map_architecture`. -/
def mapArchitecture : Architecture → Except String Isa
  | .x86_64 => .ok .x86_64
  | .aarch64 => .ok .aarch64
  | .riscv64 => .ok .riscv64
  | .riscv32 => .ok .riscv32
  | .other name =>
    .error ("unrecognised or unsupported object file: unsupported architecture: " ++ name)

/-- One symbol of the loop in `parse`: the imports and exports so far. -/
def addSymbol (found : List String × List String) (symbol : ObjectSymbol) :
    List String × List String :=
  let name := symbol.name.getD ""
  let global := symbol.isGlobal || symbol.isWeak
  if symbol.isUndefined && global && name ≠ "" && name ∉ found.1 then
    (found.1 ++ [name], found.2)
  else if global && name ≠ "" && !symbol.isUndefined && name ∉ found.2 then
    (found.1, found.2 ++ [name])
  else found

/-- `parse`. -/
def parse (file : ObjectFile) : Except String ObjectInfo :=
  match mapArchitecture file.architecture with
  | .error reason => .error reason
  | .ok architecture =>
    let found := (file.symbols ++ file.dynamicSymbols).foldl addSymbol ([], [])
    .ok
      { kind := file.kind
        architecture := architecture
        sections := sectionInfos file.sections
        imports := found.1.insertionSort (· ≤ ·)
        exports := found.2.insertionSort (· ≤ ·) }

/-- `read_for_target`, on the contents of the file. -/
def readForTarget (file : ObjectFile) (isa : Isa) : Except String ObjectInfo :=
  match parse file with
  | .error reason => .error reason
  | .ok info =>
    if info.architecture ≠ isa then
      .error ("architecture mismatch: object is `" ++ info.architecture.text ++
        "` but target requires `" ++ isa.text ++ "`")
    else .ok info

/-- `read_code_sections`, on the contents of the file. -/
def readCodeSections (file : ObjectFile) (isa : Isa) : Except String (List CodeSection) :=
  match readForTarget file isa with
  | .error reason => .error reason
  | .ok _ => codeSections file.sections

/-- The code sections read for a target are those of the file. -/
theorem codeSections_of_read (file : ObjectFile) (isa : Isa) (code : List CodeSection)
    (read : readCodeSections file isa = .ok code) : codeSections file.sections = .ok code := by
  unfold readCodeSections at read
  split at read
  · cases read
  · exact read

/-- The section summaries of a file that was read are those of its sections. -/
theorem sections_of_read (file : ObjectFile) (isa : Isa) (info : ObjectInfo)
    (read : readForTarget file isa = .ok info) : info.sections = sectionInfos file.sections := by
  unfold readForTarget parse at read
  split at read
  · cases read
  · rename_i architecture parsed
    split at read
    · cases read
    · cases read
      cases mapped : mapArchitecture file.architecture with
      | error reason => simp [mapped] at parsed
      | ok isa =>
        simp only [mapped, Except.ok.injEq] at parsed
        rw [← parsed]

end Semasm.Obj
