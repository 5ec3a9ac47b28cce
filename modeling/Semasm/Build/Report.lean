import Mathlib.Data.List.Sort
import Mathlib.Data.String.Basic
import Semasm.Library.Replacement
import Semasm.Text

/-!
# The artifact report and its canonical evidence

A report records a build: the source, the tools, the commands, the artifacts and
what running the executable gave. Its canonical evidence is the part that should
not depend on the machine: lists are sorted, and the paths of the source, the
executable and the object are replaced by labels in the arguments of commands.
-/

namespace Semasm.Build

open Semasm.Library.Replacement

structure CaptureInfo where
  capturedBytes : Nat
  totalBytes : Nat
  truncated : Bool
  readError : Option String

inductive TerminationReason where
  | timeout

inductive TerminationOutcome where
  | graceful
  | forced
  | incomplete

structure TerminationInfo where
  reason : TerminationReason
  outcome : TerminationOutcome
  detail : String

structure SourceInfo where
  path : String
  sha256 : String

structure ToolVersionInfo where
  tool : String
  version : String

structure SectionInfo where
  name : String
  size : UInt64
  vma : UInt64
  flags : String

structure SymbolInfo where
  name : String
  address : UInt64
  size : UInt64
  section_ : String
  kind : Char

structure ArtifactFileInfo where
  path : String
  sha256 : String
  size : UInt64
  sections : List SectionInfo
  symbols : List SymbolInfo
  isDynamic : Bool
  rawSections : String
  rawSymbols : String
  rawPrivateHeaders : String

inductive ExecutionInfo where
  | notRequested
  | unavailable (reason : String)
  | failed (error : String)
  | succeeded (exitCode : Option Int32) (timedOut : Bool) (stdout stderr : String)
      (stdoutCapture stderrCapture : CaptureInfo) (termination : Option TerminationInfo)

inductive ExecutionIsolation where
  | staticOnly
  | qemuUser
  | nativeHost

structure CommandRecordJson where
  label : String
  command : String
  program : String
  arguments : List String
  exitCode : Option Int32
  stdout : String
  stderr : String
  durationSecs : Float
  timedOut : Bool
  success : Bool
  stdoutCapture : CaptureInfo
  stderrCapture : CaptureInfo
  termination : Option TerminationInfo

structure ArtifactReport where
  schemaVersion : String
  target : String
  source : SourceInfo
  toolVersions : List ToolVersionInfo
  commandRecords : List CommandRecordJson
  object : Option ArtifactFileInfo
  executable : ArtifactFileInfo
  execution : ExecutionInfo
  isolation : ExecutionIsolation

/-! ## The canonical part -/

structure CanonicalCommandOutcome where
  label : String
  program : String
  arguments : List String
  exitCode : Option Int32
  timedOut : Bool
  success : Bool
deriving DecidableEq

structure CanonicalArtifact where
  sha256 : String
  size : UInt64
  sections : List (String × UInt64 × UInt64 × String)
  symbols : List (String × UInt64 × UInt64 × String × Char)
  isDynamic : Bool
deriving DecidableEq

inductive CanonicalExecutionOutcome where
  | notRequested
  | unavailable
  | failed
  | succeeded (exitCode : Option Int32) (timedOut : Bool)
deriving DecidableEq

structure CanonicalEvidence where
  schemaVersion : String
  target : String
  sourceSha256 : String
  tools : List (String × String)
  commands : List CanonicalCommandOutcome
  object : Option CanonicalArtifact
  executable : CanonicalArtifact
  execution : CanonicalExecutionOutcome
deriving DecidableEq

/-- The order of pairs of texts, first component first. -/
abbrev toolOrder : String × String → String × String → Prop := Prod.Lex (· < ·) (· ≤ ·)

/-- The order of section tuples, component by component. -/
abbrev sectionOrder :
    String × UInt64 × UInt64 × String → String × UInt64 × UInt64 × String → Prop :=
  Prod.Lex (· < ·) (Prod.Lex (· < ·) (Prod.Lex (· < ·) (· ≤ ·)))

/-- The order of symbol tuples, component by component. -/
abbrev symbolOrder :
    String × UInt64 × UInt64 × String × Char → String × UInt64 × UInt64 × String × Char → Prop :=
  Prod.Lex (· < ·) (Prod.Lex (· < ·) (Prod.Lex (· < ·) (Prod.Lex (· < ·) (· ≤ ·))))

def canonicalArtifact (artifact : ArtifactFileInfo) : CanonicalArtifact :=
  { sha256 := artifact.sha256
    size := artifact.size
    sections := (artifact.sections.map fun section_ =>
      (section_.name, section_.size, section_.vma, section_.flags)).insertionSort sectionOrder
    symbols := (artifact.symbols.map fun symbol =>
      (symbol.name, symbol.address, symbol.size, symbol.section_, symbol.kind)).insertionSort
        symbolOrder
    isDynamic := artifact.isDynamic }

/-- `str::replace` of the backslash by the slash. -/
def forwardSlashes (text : List Char) : List Char :=
  text.map (fun c => if c = '\\' then '/' else c)

/-- The label of the import library, for a text that ends in its name. -/
def importLibrary (normalized : List Char) : String :=
  if "/kernel32.lib".toList.isSuffixOf (normalized.map Char.toLower) then
    "$KERNEL32_IMPORT_LIBRARY"
  else String.ofList normalized

def normalizeCommandComponent (value : String) (paths : List (String × String)) : String :=
  importLibrary (paths.foldl
    (fun normalized named =>
      replaceAll (forwardSlashes named.1.toList) named.2.toList normalized)
    (forwardSlashes value.toList))

/-- `Path::file_name`: the last component, unless it is the parent directory. -/
def fileName (path : List Char) : Option (List Char) :=
  let components := (path.splitOn '/').filter (fun part => part ≠ [] ∧ part ≠ ['.'])
  components.getLast?.filter (· ≠ ['.', '.'])

def normalizedProgram (program : String) : String :=
  Text.asciiLower (((fileName program.toList).map String.ofList).getD program)

/-- The paths that are replaced in arguments, in order, with their labels. -/
def ArtifactReport.logicalPaths (report : ArtifactReport) : List (String × String) :=
  [(report.source.path, "$SOURCE"), (report.executable.path, "$EXECUTABLE")] ++
    (report.object.map fun object => (object.path, "$OBJECT")).toList

def canonicalCommand (logicalPaths : List (String × String)) (record : CommandRecordJson) :
    CanonicalCommandOutcome :=
  { label := record.label
    program := normalizedProgram record.program
    arguments := record.arguments.map (fun argument =>
      normalizeCommandComponent argument logicalPaths)
    exitCode := record.exitCode
    timedOut := record.timedOut
    success := record.success }

def canonicalExecution : ExecutionInfo → CanonicalExecutionOutcome
  | .notRequested => .notRequested
  | .unavailable _ => .unavailable
  | .failed _ => .failed
  | .succeeded exitCode timedOut _ _ _ _ _ => .succeeded exitCode timedOut

def ArtifactReport.canonicalEvidence (report : ArtifactReport) : CanonicalEvidence :=
  { schemaVersion := report.schemaVersion
    target := report.target
    sourceSha256 := report.source.sha256
    tools := (report.toolVersions.map fun tool => (tool.tool, tool.version)).insertionSort toolOrder
    commands := report.commandRecords.map (canonicalCommand report.logicalPaths)
    object := report.object.map canonicalArtifact
    executable := canonicalArtifact report.executable
    execution := canonicalExecution report.execution }

/-- The evidence written by a serializer, which sees nothing but the evidence. -/
def ArtifactReport.canonicalEvidenceJson (toJson : CanonicalEvidence → Except String String)
    (report : ArtifactReport) : Except String String :=
  toJson report.canonicalEvidence

example : fileName "/usr/bin/ld.lld".toList = some "ld.lld".toList := by decide +kernel

end Semasm.Build
