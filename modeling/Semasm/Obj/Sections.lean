import Mathlib.Data.List.Sort

/-!
# Object sections

The container reader is outside the repository; what it reports of a section is
a record here: the name, the address, the kind, the format's flags and the data.
Two functions of the repository decide from it whether a section holds code.
`sectionPermissions` reads the format's own flags where there are any, and
`codeSections`, which hands the bytes to the decoder, asks for the kind.
-/

namespace Semasm.Obj

/-- Section kinds of the container reader. -/
inductive SectionKind where
  | unknown | text | data | readOnlyData | readOnlyDataWithRel | readOnlyString
  | uninitializedData | common | tls | uninitializedTls | tlsVariables | otherString | other
  | debug | debugString | linker | note | metadata
  | elf (shType : UInt32)
deriving DecidableEq, Repr

/-- Section flags of the container reader, by format. -/
inductive SectionFlags where
  | none
  | elf (shFlags : UInt64)
  | machO (flags : UInt32)
  | coff (characteristics : UInt32)
  | xcoff (sFlags : UInt32)
deriving DecidableEq, Repr

/-- What the container reader reports of a section. The name and the data may be
unreadable. -/
structure ObjectSection where
  name : Option String
  address : UInt64
  size : UInt64
  kind : SectionKind
  flags : SectionFlags
  data : Except String (List UInt8)

/-- Bytes and virtual address of an executable object section. -/
structure CodeSection where
  name : String
  address : UInt64
  bytes : List UInt8
deriving DecidableEq, Repr

/-- Section summary. -/
structure SectionInfo where
  name : String
  address : UInt64
  size : UInt64
  kind : String
  writable : Bool
  executable : Bool
deriving DecidableEq, Repr

/-- `elf::SHF_WRITE`. -/
def shfWrite : UInt64 := 1

/-- `elf::SHF_EXECINSTR`. -/
def shfExecinstr : UInt64 := 4

/-- `pe::IMAGE_SCN_MEM_WRITE`. -/
def imageScnMemWrite : UInt32 := 0x80000000

/-- `pe::IMAGE_SCN_MEM_EXECUTE`. -/
def imageScnMemExecute : UInt32 := 0x20000000

/-- `section_permissions`: writable and executable. -/
def sectionPermissions (item : ObjectSection) : Bool × Bool :=
  match item.flags with
  | .elf shFlags => (shFlags &&& shfWrite != 0, shFlags &&& shfExecinstr != 0)
  | .coff characteristics =>
    (characteristics &&& imageScnMemWrite != 0, characteristics &&& imageScnMemExecute != 0)
  | _ =>
    (item.kind == .data || item.kind == .uninitializedData || item.kind == .common ||
      item.kind == .tls || item.kind == .tlsVariables, item.kind == .text)

/-- `section_kind_name`. -/
def sectionKindName : SectionKind → String
  | .text => "text"
  | .data => "data"
  | .readOnlyData => "rodata"
  | .uninitializedData => "bss"
  | .tls => "tls"
  | .tlsVariables => "tls_variables"
  | .common => "common"
  | _ => "unknown"

/-- The summary `parse` keeps of a section. -/
def sectionInfo (item : ObjectSection) : SectionInfo :=
  let permissions := sectionPermissions item
  { name := item.name.getD ""
    address := item.address
    size := item.size
    kind := sectionKindName item.kind
    writable := permissions.1
    executable := permissions.2 }

/-- The section summaries of `parse`, sorted by address. -/
def sectionInfos (sections : List ObjectSection) : List SectionInfo :=
  (sections.map sectionInfo).insertionSort (fun left right => left.address ≤ right.address)

/-- Order in which code sections are decoded: by address, then by name. -/
def CodeSection.before (left right : CodeSection) : Prop :=
  left.address < right.address ∨ (left.address = right.address ∧ left.name ≤ right.name)

instance : DecidableRel CodeSection.before :=
  fun _ _ => inferInstanceAs (Decidable (_ ∨ (_ ∧ _)))

/-- What one section contributes to the code sections. -/
def codeSectionOf (item : ObjectSection) : Except String (List CodeSection) :=
  if item.kind ≠ .text then .ok []
  else
    match item.data with
    | .error reason => .error reason
    | .ok bytes =>
      if bytes.isEmpty then .ok [] else .ok [⟨item.name.getD "", item.address, bytes⟩]

/-- The loop of `code_sections`. -/
def collectCode : List ObjectSection → Except String (List CodeSection)
  | [] => .ok []
  | item :: rest =>
    match codeSectionOf item with
    | .error reason => .error reason
    | .ok found =>
      match collectCode rest with
      | .error reason => .error reason
      | .ok others => .ok (found ++ others)

/-- `code_sections`. -/
def codeSections (sections : List ObjectSection) : Except String (List CodeSection) :=
  match collectCode sections with
  | .error reason => .error ("unrecognised or unsupported object file: " ++ reason)
  | .ok found => .ok (found.insertionSort CodeSection.before)

end Semasm.Obj
