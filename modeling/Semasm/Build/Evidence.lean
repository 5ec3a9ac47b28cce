import Semasm.Build.Report
import Semasm.Library.Marking

/-!
# Evidence that does not depend on the machine

A report template is what a report says on every machine: its commands have
arguments in which the paths are holes. The paths of a machine, the volatile
fields and the order of tools, sections and symbols make a report of it. The
canonical evidence is the same for two machines when on both no copy of a path
begins outside its own holes, and this is exactly when an argument is written
with its labels.
-/

namespace Semasm.Build

open Semasm.Library.Replacement

/-- What a command argument may name. -/
inductive Placeholder where
  | source
  | executable
  | object
deriving DecidableEq, Repr

/-- The paths a machine gives to the placeholders. -/
structure HostPaths where
  source : String
  executable : String
  object : String

def HostPaths.path (host : HostPaths) : Placeholder → String
  | .source => host.source
  | .executable => host.executable
  | .object => host.object

/-- An argument with holes for paths. -/
abbrev Argument := List (Segment Char Placeholder)

structure CommandTemplate where
  label : String
  program : String
  arguments : List Argument
  exitCode : Option Int32
  timedOut : Bool
  success : Bool

/-- What a report says on every machine, its lists in some order. -/
structure ReportTemplate where
  schemaVersion : String
  target : String
  sourceSha256 : String
  tools : List (String × String)
  commands : List CommandTemplate
  object : Option CanonicalArtifact
  executable : CanonicalArtifact
  execution : CanonicalExecutionOutcome

/-- An artifact at a path, with its sections and symbols in some order and any raw
    listings. -/
structure IsArtifact (stable : CanonicalArtifact) (path : String) (artifact : ArtifactFileInfo) :
    Prop where
  path_eq : artifact.path = path
  sha256 : artifact.sha256 = stable.sha256
  size : artifact.size = stable.size
  sections : (artifact.sections.map fun section_ =>
    (section_.name, section_.size, section_.vma, section_.flags)).Perm stable.sections
  symbols : (artifact.symbols.map fun symbol =>
    (symbol.name, symbol.address, symbol.size, symbol.section_, symbol.kind)).Perm stable.symbols
  isDynamic : artifact.isDynamic = stable.isDynamic

/-- A command with the paths of a machine in its arguments, and any output, command
    line, duration and termination notes. -/
structure IsCommand (host : HostPaths) (template : CommandTemplate) (record : CommandRecordJson) :
    Prop where
  label : record.label = template.label
  program : record.program = template.program
  arguments : record.arguments = template.arguments.map fun argument =>
    String.ofList (render (fun name => (host.path name).toList) argument)
  exitCode : record.exitCode = template.exitCode
  timedOut : record.timedOut = template.timedOut
  success : record.success = template.success

/-- A report of a template on a machine. -/
structure IsReport (template : ReportTemplate) (host : HostPaths) (report : ArtifactReport) :
    Prop where
  schemaVersion : report.schemaVersion = template.schemaVersion
  target : report.target = template.target
  sourcePath : report.source.path = host.source
  sourceSha256 : report.source.sha256 = template.sourceSha256
  tools : (report.toolVersions.map fun tool => (tool.tool, tool.version)).Perm template.tools
  commands : List.Forall₂ (IsCommand host) template.commands report.commandRecords
  object : Option.Rel (fun stable artifact => IsArtifact stable host.object artifact)
    template.object report.object
  executable : IsArtifact template.executable host.executable report.executable
  execution : canonicalExecution report.execution = template.execution

/-! ## The condition -/

/-- A literal with forward slashes. -/
def slashed : Segment Char Placeholder → Segment Char Placeholder
  | .text symbols => .text (forwardSlashes symbols)
  | .hole name => .hole name

/-- The paths of a machine with forward slashes. -/
def HostPaths.value (host : HostPaths) (name : Placeholder) : List Char :=
  forwardSlashes (host.path name).toList

/-- The placeholders that get labels, in order. -/
def ReportTemplate.names (template : ReportTemplate) : List (Placeholder × List Char) :=
  [(.source, "$SOURCE".toList), (.executable, "$EXECUTABLE".toList)] ++
    (template.object.map fun _ => (Placeholder.object, "$OBJECT".toList)).toList

def ReportTemplate.arguments (template : ReportTemplate) : List Argument :=
  template.commands.flatMap CommandTemplate.arguments

/-- No argument has the path of an object that the report leaves out. -/
def ReportTemplate.Covered (template : ReportTemplate) : Prop :=
  ∀ argument ∈ template.arguments, ∀ name, .hole name ∈ argument →
    name ∈ template.names.map Prod.fst

/-- On both machines the argument is the text of one argument with holes, perhaps
    another one, where no copy of a path begins outside its own holes. -/
def ReportTemplate.ReadAlike (template : ReportTemplate) (first second : HostPaths) : Prop :=
  ∀ argument ∈ template.arguments, ∃ read : Argument,
    (∀ name, .hole name ∈ read → name ∈ template.names.map Prod.fst) ∧
    (render first.value (read.map slashed) = render first.value (argument.map slashed) ∧
      Separated first.value template.names (read.map slashed)) ∧
    render second.value (read.map slashed) = render second.value (argument.map slashed) ∧
      Separated second.value template.names (read.map slashed)

/-- On this machine no path is empty and no copy of a path begins outside its own
    placeholders, the paths before it being labels already. -/
def ReportTemplate.SeparatedOn (template : ReportTemplate) (host : HostPaths) : Prop :=
  ∀ argument ∈ template.arguments,
    Separated host.value template.names (argument.map slashed)

/-- The argument with its labels. -/
def ReportTemplate.labelledArgument (template : ReportTemplate) (argument : Argument) : List Char :=
  render (labelled (fun _ => []) template.names) (argument.map slashed)

/-- No argument is the label of the import library or is replaced by it. -/
def ReportTemplate.NoImportLibrary (template : ReportTemplate) : Prop :=
  ∀ argument ∈ template.arguments,
    ¬ "/kernel32.lib".toList <:+ (template.labelledArgument argument).map Char.toLower ∧
      template.labelledArgument argument ≠ "$KERNEL32_IMPORT_LIBRARY".toList

/-- The paths of a machine are nonempty and have no dollar sign. -/
def HostPaths.Plain (host : HostPaths) : Prop :=
  ∀ name, host.path name ≠ "" ∧ '$' ∉ (host.path name).toList

/-! ## Sorting -/

instance strictOrderUInt64 : IsStrictOrder UInt64 (· < ·) where

/-- Sorting by an order of all values forgets the order that was given. -/
theorem insertionSort_perm {α : Type} (order : α → α → Prop) [DecidableRel order]
    [Std.Total order] [IsTrans α order] [Std.Antisymm order] {first second : List α}
    (permuted : first.Perm second) : first.insertionSort order = second.insertionSort order := by
  apply List.Perm.eq_of_pairwise' (List.pairwise_insertionSort order first)
    (List.pairwise_insertionSort order second)
  exact (List.perm_insertionSort order first).trans
    (permuted.trans (List.perm_insertionSort order second).symm)

/-- The canonical form of an artifact is that of its stable part. -/
def sortedArtifact (stable : CanonicalArtifact) : CanonicalArtifact :=
  { stable with
    sections := stable.sections.insertionSort sectionOrder
    symbols := stable.symbols.insertionSort symbolOrder }

theorem IsArtifact.canonical {stable : CanonicalArtifact} {path : String}
    {artifact : ArtifactFileInfo} (instance_ : IsArtifact stable path artifact) :
    canonicalArtifact artifact = sortedArtifact stable := by
  simp only [canonicalArtifact, sortedArtifact, instance_.sha256, instance_.size,
    instance_.isDynamic, insertionSort_perm sectionOrder instance_.sections,
    insertionSort_perm symbolOrder instance_.symbols]

/-! ## The evidence of a template -/

def CommandTemplate.outcome (written : Argument → List Char) (template : CommandTemplate) :
    CanonicalCommandOutcome :=
  { label := template.label
    program := normalizedProgram template.program
    arguments := template.arguments.map (fun argument => importLibrary (written argument))
    exitCode := template.exitCode
    timedOut := template.timedOut
    success := template.success }

/-- The evidence when each argument is written in a given way. -/
def ReportTemplate.evidence (template : ReportTemplate) (written : Argument → List Char) :
    CanonicalEvidence :=
  { schemaVersion := template.schemaVersion
    target := template.target
    sourceSha256 := template.sourceSha256
    tools := template.tools.insertionSort toolOrder
    commands := template.commands.map (CommandTemplate.outcome written)
    object := template.object.map sortedArtifact
    executable := sortedArtifact template.executable
    execution := template.execution }

/-- Slashes are turned segment by segment. -/
theorem forwardSlashes_render (host : HostPaths) (argument : Argument) :
    forwardSlashes (render (fun name => (host.path name).toList) argument) =
      render host.value (argument.map slashed) := by
  induction argument with
  | nil => rfl
  | cons segment argument inductionHypothesis =>
    rw [render_cons, List.map_cons, render_cons, ← inductionHypothesis]
    cases segment <;> simp [forwardSlashes, Segment.render, slashed, HostPaths.value]

/-- The paths of a report are those of the machine, under the labels of the
    template. -/
theorem IsReport.logicalPaths {template : ReportTemplate} {host : HostPaths}
    {report : ArtifactReport} (instance_ : IsReport template host report) :
    report.logicalPaths =
      template.names.map (fun named => (host.path named.1, String.ofList named.2)) := by
  simp only [ArtifactReport.logicalPaths, ReportTemplate.names, instance_.sourcePath,
    instance_.executable.path_eq]
  have object := instance_.object
  generalize template.object = stable at object
  generalize report.object = artifact at object
  cases object with
  | none => rfl
  | some related => simp [related.path_eq, HostPaths.path]

/-- How an argument comes out on a machine. -/
def ReportTemplate.written (template : ReportTemplate) (host : HostPaths) (argument : Argument) :
    List Char :=
  replaceEach host.value template.names (render host.value (argument.map slashed))

theorem normalizeCommandComponent_render (template : ReportTemplate) (host : HostPaths)
    (argument : Argument) :
    normalizeCommandComponent
        (String.ofList (render (fun name => (host.path name).toList) argument))
        (template.names.map (fun named => (host.path named.1, String.ofList named.2))) =
      importLibrary (template.written host argument) := by
  simp only [normalizeCommandComponent, ReportTemplate.written, replaceEach, List.foldl_map,
    String.toList_ofList, forwardSlashes_render]
  rfl

theorem IsCommand.canonical {template : ReportTemplate} {host : HostPaths}
    {command : CommandTemplate} {record : CommandRecordJson}
    (instance_ : IsCommand host command record) :
    canonicalCommand
        (template.names.map (fun named => (host.path named.1, String.ofList named.2))) record =
      command.outcome (template.written host) := by
  simp only [canonicalCommand, CommandTemplate.outcome, instance_.label, instance_.program,
    instance_.arguments, instance_.exitCode, instance_.timedOut, instance_.success, List.map_map]
  congr 1
  apply List.map_congr_left
  intro argument _
  exact normalizeCommandComponent_render template host argument

/-- The evidence of a report depends on the machine only in how the arguments come
    out. -/
theorem IsReport.canonicalEvidence {template : ReportTemplate} {host : HostPaths}
    {report : ArtifactReport} (instance_ : IsReport template host report) :
    report.canonicalEvidence = template.evidence (template.written host) := by
  have commands : report.commandRecords.map (canonicalCommand report.logicalPaths) =
      template.commands.map (CommandTemplate.outcome (template.written host)) := by
    rw [instance_.logicalPaths]
    have related := instance_.commands
    generalize report.commandRecords = records at related
    generalize template.commands = commands at related
    induction related with
    | nil => rfl
    | cons first rest inductionHypothesis =>
      rw [List.map_cons, List.map_cons, first.canonical, inductionHypothesis]
  have object : report.object.map canonicalArtifact = template.object.map sortedArtifact := by
    have related := instance_.object
    generalize report.object = artifact at related
    generalize template.object = stable at related
    cases related with
    | none => rfl
    | some related => simp [related.canonical]
  simp only [ArtifactReport.canonicalEvidence, ReportTemplate.evidence, commands, object,
    instance_.schemaVersion, instance_.target, instance_.sourceSha256,
    insertionSort_perm toolOrder instance_.tools, instance_.executable.canonical,
    instance_.execution]

/-! ## Both directions -/

theorem ReportTemplate.names_nodup (template : ReportTemplate) :
    (template.names.map Prod.fst).Nodup := by
  cases object : template.object <;> simp [ReportTemplate.names, object]

/-- The labels begin with the dollar sign and differ in the letter after it. -/
theorem ReportTemplate.names_distinguished (template : ReportTemplate) :
    Distinguished '$' [] template.names := by
  cases object : template.object with
  | none =>
    simp only [ReportTemplate.names, object]
    exact ⟨'S', _, rfl, by decide, by decide, 'E', _, rfl, by decide, by decide, trivial⟩
  | some artifact =>
    simp only [ReportTemplate.names, object]
    exact ⟨'S', _, rfl, by decide, by decide, 'E', _, rfl, by decide, by decide,
      'O', _, rfl, by decide, by decide, trivial⟩

/-- The labels of a covered argument do not depend on the values they replace. -/
theorem labelledArgument_eq {template : ReportTemplate} {argument : Argument}
    (covered : ∀ name, .hole name ∈ argument → name ∈ template.names.map Prod.fst)
    (value : Placeholder → List Char) :
    render (labelled value template.names) (argument.map slashed) =
      template.labelledArgument argument := by
  apply render_labelled_congr
  intro name hole
  apply covered name
  obtain ⟨segment, member, same⟩ := List.mem_map.mp hole
  cases segment with
  | text symbols => simp [slashed] at same
  | hole other =>
    obtain rfl : other = name := by simpa [slashed] using same
    exact member

/-- Where the paths are separated, an argument comes out with its labels. -/
theorem written_separated {template : ReportTemplate} {host : HostPaths} {argument : Argument}
    (covered : ∀ name, .hole name ∈ argument → name ∈ template.names.map Prod.fst)
    (separated : Separated host.value template.names (argument.map slashed)) :
    template.written host argument = template.labelledArgument argument := by
  rw [ReportTemplate.written, replaceEach_render template.names_nodup separated,
    labelledArgument_eq covered]

/-- On a machine with plain paths, an argument comes out with its labels only if the
    paths are separated in it. -/
theorem separated_of_written {template : ReportTemplate} {host : HostPaths} {argument : Argument}
    (covered : ∀ name, .hole name ∈ argument → name ∈ template.names.map Prod.fst)
    (plain : host.Plain)
    (same : template.written host argument = template.labelledArgument argument) :
    Separated host.value template.names (argument.map slashed) := by
  have unmarked : Unmarked '$' host.value template.names := by
    intro named _
    obtain ⟨nonempty, absent⟩ := plain named.1
    constructor
    · simpa [HostPaths.value, forwardSlashes] using nonempty
    · intro marked
      obtain ⟨c, there, turned⟩ := List.mem_map.mp marked
      split at turned
      · exact absurd turned (by decide)
      · exact absent (turned ▸ there)
  apply separated_of_replaceEach template.names_nodup template.names_distinguished unmarked
  rw [labelledArgument_eq covered]
  exact same

/-- Arguments read alike come out the same. -/
theorem ReportTemplate.ReadAlike.written_eq {template : ReportTemplate}
    {first second : HostPaths} (alike : template.ReadAlike first second) {argument : Argument}
    (member : argument ∈ template.arguments) :
    template.written first argument = template.written second argument := by
  obtain ⟨read, covered, ⟨firstText, firstSeparated⟩, secondText, secondSeparated⟩ :=
    alike argument member
  have left := written_separated covered firstSeparated
  have right := written_separated covered secondSeparated
  simp only [ReportTemplate.written, firstText, secondText] at left right
  exact left.trans right.symm

/-- The evidence is the same if each argument is. -/
theorem evidence_congr {template : ReportTemplate} {first second : Argument → List Char}
    (same : ∀ argument ∈ template.arguments, first argument = second argument) :
    template.evidence first = template.evidence second := by
  simp only [ReportTemplate.evidence]
  congr 1
  apply List.map_congr_left
  intro command member
  simp only [CommandTemplate.outcome]
  congr 1
  apply List.map_congr_left
  intro argument argumentMember
  rw [same argument (List.mem_flatMap.mpr ⟨command, member, argumentMember⟩)]

/-- Equal evidence has each argument written alike, up to the import library. -/
theorem importLibrary_of_evidence {template : ReportTemplate}
    {first second : Argument → List Char}
    (same : template.evidence first = template.evidence second) {argument : Argument}
    (member : argument ∈ template.arguments) :
    importLibrary (first argument) = importLibrary (second argument) := by
  obtain ⟨command, commandMember, argumentMember⟩ := List.mem_flatMap.mp member
  have commands := congrArg CanonicalEvidence.commands same
  have outcome := List.map_inj_left.mp commands command commandMember
  have arguments := congrArg CanonicalCommandOutcome.arguments outcome
  exact List.map_inj_left.mp arguments argument argumentMember

/-- The import library hides nothing else. -/
theorem eq_of_importLibrary {first second : List Char}
    (ending : ¬ "/kernel32.lib".toList <:+ second.map Char.toLower)
    (other : second ≠ "$KERNEL32_IMPORT_LIBRARY".toList)
    (same : importLibrary first = importLibrary second) : first = second := by
  have plain : importLibrary second = String.ofList second := by
    rw [importLibrary, if_neg (by rwa [List.isSuffixOf_iff_suffix])]
  rw [plain, importLibrary] at same
  split at same
  · exact absurd (by rw [same, String.toList_ofList]) other
  · exact String.ofList_injective same

/-- Paths that are separated on both machines are read alike. -/
theorem ReportTemplate.SeparatedOn.readAlike {template : ReportTemplate}
    {first second : HostPaths} (covered : template.Covered)
    (separated : template.SeparatedOn first) (other : template.SeparatedOn second) :
    template.ReadAlike first second := fun argument member =>
  ⟨argument, covered argument member, ⟨rfl, separated argument member⟩, rfl, other argument member⟩

/-- Two reports of a template have the same canonical evidence if on both machines
    the arguments are read alike. Beside a machine whose paths are separated, a
    machine with plain paths gives the same evidence only if its paths are separated
    as well, for a serializer that tells records apart.

    Proof: sorting forgets the order, the volatile fields are not read, and an
    argument comes out with its labels where the paths are separated and nowhere
    else. -/
theorem canonical_evidence_agrees (toJson : CanonicalEvidence → Except String String)
    (template : ReportTemplate) (first second : HostPaths) (report other : ArtifactReport)
    (reportInstance : IsReport template first report)
    (otherInstance : IsReport template second other) :
    (template.ReadAlike first second →
      report.canonicalEvidenceJson toJson = other.canonicalEvidenceJson toJson) ∧
    (Function.Injective toJson → template.Covered → template.NoImportLibrary → first.Plain →
      template.SeparatedOn second →
      report.canonicalEvidenceJson toJson = other.canonicalEvidenceJson toJson →
      template.SeparatedOn first) := by
  simp only [ArtifactReport.canonicalEvidenceJson, reportInstance.canonicalEvidence,
    otherInstance.canonicalEvidence]
  refine ⟨fun alike => ?_, fun injective covered noImport plain separated same => ?_⟩
  · rw [evidence_congr fun argument member => alike.written_eq member]
  · intro argument member
    obtain ⟨ending, label⟩ := noImport argument member
    have written := importLibrary_of_evidence (injective same) member
    rw [written_separated (covered argument member) (separated argument member)] at written
    exact separated_of_written (covered argument member) plain
      (eq_of_importLibrary ending label written)

/-! ## Two machines -/

/-- A texts between commas. -/
def commaSeparated (items : List String) : String := String.intercalate "," items

/-- A JSON string of characters that need no escape. -/
def quoted (text : String) : String := "\"" ++ text ++ "\""

def jsonOption {α : Type} (write : α → String) : Option α → String
  | none => "null"
  | some value => write value

/-- The compact JSON of an artifact. -/
def artifactJson (artifact : CanonicalArtifact) : String :=
  "\x7b" ++ commaSeparated
    [ "\"sha256\":" ++ quoted artifact.sha256
    , "\"size\":" ++ toString artifact.size
    , "\"sections\":[" ++ commaSeparated (artifact.sections.map fun (name, size, vma, flags) =>
        "[" ++ commaSeparated [quoted name, toString size, toString vma, quoted flags] ++ "]") ++ "]"
    , "\"symbols\":[" ++ commaSeparated
        (artifact.symbols.map fun (name, address, size, section_, kind) =>
          "[" ++ commaSeparated [quoted name, toString address, toString size, quoted section_,
            quoted kind.toString] ++ "]") ++ "]"
    , "\"is_dynamic\":" ++ toString artifact.isDynamic ] ++ "\x7d"

/-- The compact JSON of a command. -/
def commandJson (command : CanonicalCommandOutcome) : String :=
  "\x7b" ++ commaSeparated
    [ "\"label\":" ++ quoted command.label
    , "\"program\":" ++ quoted command.program
    , "\"arguments\":[" ++ commaSeparated (command.arguments.map quoted) ++ "]"
    , "\"exit_code\":" ++ jsonOption toString command.exitCode
    , "\"timed_out\":" ++ toString command.timedOut
    , "\"success\":" ++ toString command.success ] ++ "\x7d"

/-- The compact JSON of an execution. -/
def executionJson : CanonicalExecutionOutcome → String
  | .notRequested => "\x7b\"status\":\"not_requested\"\x7d"
  | .unavailable => "\x7b\"status\":\"unavailable\"\x7d"
  | .failed => "\x7b\"status\":\"failed\"\x7d"
  | .succeeded exitCode timedOut =>
    "\x7b\"status\":\"succeeded\",\"exit_code\":" ++ jsonOption toString exitCode ++
      ",\"timed_out\":" ++ toString timedOut ++ "\x7d"

/-- The compact JSON of evidence whose texts need no escapes. -/
def compactJson (evidence : CanonicalEvidence) : Except String String :=
  .ok ("\x7b" ++ commaSeparated
    [ "\"schema_version\":" ++ quoted evidence.schemaVersion
    , "\"target\":" ++ quoted evidence.target
    , "\"source_sha256\":" ++ quoted evidence.sourceSha256
    , "\"tools\":[" ++ commaSeparated (evidence.tools.map fun (tool, version) =>
        "[" ++ commaSeparated [quoted tool, quoted version] ++ "]") ++ "]"
    , "\"commands\":[" ++ commaSeparated (evidence.commands.map commandJson) ++ "]"
    , "\"object\":" ++ jsonOption artifactJson evidence.object
    , "\"executable\":" ++ artifactJson evidence.executable
    , "\"execution\":" ++ executionJson evidence.execution ] ++ "\x7d")

/-- A link step that names the executable and the object. -/
def linkTemplate : ReportTemplate :=
  { schemaVersion := "0.4"
    target := "x86_64-unknown-linux-gnu"
    sourceSha256 := "source-hash"
    tools := [("ld.lld", "1.0")]
    commands :=
      [ { label := "link", program := "ld.lld"
          arguments := [[.text "-o".toList], [.hole .executable], [.hole .object]]
          exitCode := some 0, timedOut := false, success := true } ]
    object := some ⟨"object-hash", 8, [], [], false⟩
    executable := ⟨"artifact-hash", 42, [], [], false⟩
    execution := .notRequested }

/-- The report of the link step on a machine. -/
def linkReport (host : HostPaths) : ArtifactReport :=
  { schemaVersion := "0.4"
    target := "x86_64-unknown-linux-gnu"
    source := ⟨host.source, "source-hash"⟩
    toolVersions := [⟨"ld.lld", "1.0"⟩]
    commandRecords :=
      [ { label := "link", command := "ld.lld -o " ++ host.executable, program := "ld.lld"
          arguments := ["-o", host.executable, host.object], exitCode := some 0
          stdout := "", stderr := "", durationSecs := 0.25, timedOut := false, success := true
          stdoutCapture := ⟨0, 0, false, none⟩, stderrCapture := ⟨0, 0, false, none⟩
          termination := none } ]
    object := some ⟨host.object, "object-hash", 8, [], [], false, "", "", ""⟩
    executable := ⟨host.executable, "artifact-hash", 42, [], [], false, "", "", ""⟩
    execution := .notRequested
    isolation := .staticOnly }

theorem linkReport_isReport (host : HostPaths) : IsReport linkTemplate host (linkReport host) where
  schemaVersion := rfl
  target := rfl
  sourcePath := rfl
  sourceSha256 := rfl
  tools := .refl _
  commands := by
    refine .cons ⟨rfl, rfl, ?_, rfl, rfl, rfl⟩ .nil
    simp [Segment.render, HostPaths.path, String.ofList_toList]
  object := .some ⟨rfl, rfl, rfl, .refl _, .refl _, rfl⟩
  executable := ⟨rfl, rfl, rfl, .refl _, .refl _, rfl⟩
  execution := rfl

/-- A machine whose executable is named as the object is without its extension. -/
def prefixHost : HostPaths := ⟨"/src/exit.asm", "/out/exit", "/out/exit.o"⟩

/-- A machine with a name for each file. -/
def distinctHost : HostPaths := ⟨"/home/exit.asm", "/tmp/program", "/tmp/exit.o"⟩

/-- On the first machine the object comes out as the executable with an extension. -/
theorem prefix_path_reaches_evidence :
    ¬ ∀ (toJson : CanonicalEvidence → Except String String) (template : ReportTemplate)
      (first second : HostPaths) (report other : ArtifactReport), template.Covered →
      IsReport template first report → IsReport template second other →
      report.canonicalEvidenceJson toJson = other.canonicalEvidenceJson toJson := by
  intro claimed
  have covered : linkTemplate.Covered := by
    intro argument _ name _
    cases name <;> decide
  have same := claimed compactJson linkTemplate prefixHost distinctHost _ _ covered
    (linkReport_isReport prefixHost) (linkReport_isReport distinctHost)
  exact absurd same (by decide +kernel)

/-- A second machine with other paths. -/
def otherHost : HostPaths := ⟨"D:\\work\\exit.asm", "D:\\work\\app", "D:\\work\\exit.o"⟩

/-- Two machines that name the files differently give the same evidence. -/
theorem link_evidence_agrees :
    linkTemplate.ReadAlike distinctHost otherHost ∧
      (linkReport distinctHost).canonicalEvidenceJson compactJson =
        (linkReport otherHost).canonicalEvidenceJson compactJson := by
  have covered : linkTemplate.Covered := by
    intro argument _ name _
    cases name <;> decide
  have first : linkTemplate.SeparatedOn distinctHost := by
    unfold ReportTemplate.SeparatedOn
    decide +kernel
  have second : linkTemplate.SeparatedOn otherHost := by
    unfold ReportTemplate.SeparatedOn
    decide +kernel
  have alike := first.readAlike covered second
  exact ⟨alike, (canonical_evidence_agrees compactJson linkTemplate distinctHost otherHost _ _
    (linkReport_isReport distinctHost) (linkReport_isReport otherHost)).1 alike⟩

end Semasm.Build
