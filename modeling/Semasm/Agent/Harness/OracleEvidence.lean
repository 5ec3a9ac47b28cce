import Semasm.Agent.Harness.Evaluation
import Semasm.Agent.Harness.ExternalTruth
import Semasm.Contract.TypeSpelling
import Semasm.Library.Delimited

/-!
# The evidence of a behaviour oracle

The evidence hash of an oracle is taken over its id and version, the sources of the
contract's conditions and the cases, each text followed by a separator. The texts are
put in as they are, so the bytes bind the record when no text contains a separator
and it can be told whether there was a report.
-/

namespace Semasm.Agent.Harness

open Contract Library.Delimited

/-- `BehaviorOracle`. -/
structure BehaviorOracle where
  id : String
  version : Nat
  contract : String
  contractHash : String
  contractEnsures : List String
  proofBasis : String
  claim : String
  vectorsPassed : Nat
  vectorsFailed : Nat
  vectorsTotal : Nat
  evidenceHash : String

/-- `ProofBasis::OracleAndVectors.as_str()`. -/
def oracleAndVectors : String := "oracle_and_vectors"

/-- The hexadecimal rendering of the first bytes of a digest. -/
def hexPrefix (digest : List UInt8) (count : Nat) : String :=
  String.ofList ((digest.take count).flatMap fun byte =>
    [Nat.digitChar (byte.toNat / 16), Nat.digitChar (byte.toNat % 16)])

/-- The zero byte, which ends a field. -/
def fieldEnd : Char := Char.ofNat 0

/-- The newline, which ends a record. -/
def recordEnd : Char := '\n'

/-- What the cases are: those of a report, or the planned vectors with their expected
results as text. -/
inductive EvidenceOutcome where
  | report (cases : List VectorResult)
  | planned (vectors : List (String × String))

/-- What the evidence is about. -/
structure EvidenceRecord where
  id : String
  version : Nat
  ensures : List String
  outcome : EvidenceOutcome

/-- The record of a run. -/
def evidenceRecord (jsonText : Json → String) (recognized : RecognizedOracle)
    (contract : CheckedContract) (plannedVectors : List TestVector)
    (behavior : Option HarnessReport) : EvidenceRecord :=
  { id := recognized.id
    version := recognized.version
    ensures := contract.ensures.map (fun condition => condition.source)
    outcome := match behavior with
      | some report => .report report.cases
      | none => .planned (plannedVectors.map fun vector => (vector.name, jsonText vector.expected)) }

/-- The byte of a verdict. -/
def verdictByte (passed : Bool) : Char := if passed then Char.ofNat 1 else Char.ofNat 0

/-- The fields of a case before its newline. -/
def caseLine (case : VectorResult) : List Char :=
  case.name.toList ++ fieldEnd :: (case.expected.toList ++ fieldEnd ::
    (case.observed.toList ++ fieldEnd :: [verdictByte case.passed]))

/-- The fields of a planned vector before its newline. -/
def plannedLine (vector : String × String) : List Char :=
  vector.1.toList ++ fieldEnd :: vector.2.toList

/-- The lines of the cases. -/
def EvidenceOutcome.lines : EvidenceOutcome → List (List Char)
  | .report cases => cases.map caseLine
  | .planned vectors => vectors.map plannedLine

/-- What is fed to the hash, as text. -/
def EvidenceRecord.text (record : EvidenceRecord) : List Char :=
  record.id.toList ++ fieldEnd :: ((toString record.version).toList ++ fieldEnd ::
    (oracleAndVectors.toList ++ fieldEnd ::
      terminated recordEnd (record.ensures.map String.toList ++ record.outcome.lines)))

/-- The bytes fed to the hash. Texts are encoded one by one, which is the encoding of
the whole, and the verdict bytes are encoded as themselves. -/
def EvidenceRecord.bytes (record : EvidenceRecord) : ByteArray :=
  (String.ofList record.text).toUTF8

/-- `build_behavior_oracle`. -/
def buildBehaviorOracle (sha256 : ByteArray → List UInt8) (jsonText : Json → String)
    (recognized : RecognizedOracle) (contract : CheckedContract) (contractPath : String)
    (contractBytes : ByteArray) (plannedVectors : List TestVector)
    (behavior : Option HarnessReport) : BehaviorOracle :=
  let passed := behavior.elim 0 (fun report => report.cases.countP VectorResult.passed)
  let total := behavior.elim 0 (fun report => report.cases.length)
  { id := recognized.id
    version := recognized.version
    contract := contractPath
    contractHash := hexPrefix (sha256 contractBytes) 6
    contractEnsures := contract.ensures.map (fun condition => condition.source)
    proofBasis := oracleAndVectors
    claim := recognized.claim
    vectorsPassed := passed
    vectorsFailed := total - passed
    vectorsTotal := if behavior.isSome then total else plannedVectors.length
    evidenceHash := hexPrefix
      (sha256 (evidenceRecord jsonText recognized contract plannedVectors behavior).bytes) 16 }

/-! ## Reading a record back -/

/-- The text has neither separator. -/
def Plain (text : String) : Prop := fieldEnd ∉ text.toList ∧ recordEnd ∉ text.toList

instance (text : String) : Decidable (Plain text) :=
  inferInstanceAs (Decidable (_ ∧ _))

/-- No text of the outcome has a separator. -/
def EvidenceOutcome.PlainTexts : EvidenceOutcome → Prop
  | .report cases => ∀ case ∈ cases, Plain case.name ∧ Plain case.expected ∧ Plain case.observed
  | .planned vectors => ∀ vector ∈ vectors, Plain vector.1 ∧ Plain vector.2

/-- No text of the record has a separator. -/
structure EvidenceRecord.PlainTexts (record : EvidenceRecord) : Prop where
  id : fieldEnd ∉ record.id.toList
  ensures : ∀ source ∈ record.ensures, Plain source
  outcome : record.outcome.PlainTexts

/-- There is a case that tells a report from a plan, or there is nothing to tell. -/
def EvidenceOutcome.ToldFrom : EvidenceOutcome → EvidenceOutcome → Prop
  | .report cases, .planned vectors | .planned vectors, .report cases => cases ≠ [] ∨ vectors ≠ []
  | _, _ => True

/-- A version number has no separator. -/
theorem version_plain (version : Nat) : Plain (toString version) := by
  have digits := (numeral_repr version).1
  refine ⟨fun member => ?_, fun member => ?_⟩
  · exact absurd (digits _ member) (by decide)
  · exact absurd (digits _ member) (by decide)

theorem version_inj {first second : Nat}
    (same : (toString first).toList = (toString second).toList) : first = second := by
  have left := (numeral_repr first).2
  rw [same, (numeral_repr second).2] at left
  exact (Option.some.inj left).symm

theorem verdictByte_inj {first second : Bool} (same : verdictByte first = verdictByte second) :
    first = second := by
  cases first <;> cases second <;> first | rfl | exact absurd same (by decide)

/-- The fields of a case can be read back. -/
theorem caseLine_inj {first second : VectorResult}
    (left : Plain first.name ∧ Plain first.expected ∧ Plain first.observed)
    (right : Plain second.name ∧ Plain second.expected ∧ Plain second.observed)
    (same : caseLine first = caseLine second) : first = second := by
  obtain ⟨name, same⟩ := append_mark_inj left.1.1 right.1.1 same
  obtain ⟨expected, same⟩ := append_mark_inj left.2.1.1 right.2.1.1 same
  obtain ⟨observed, same⟩ := append_mark_inj left.2.2.1 right.2.2.1 same
  have passed := verdictByte_inj (List.singleton_inj.mp same)
  cases first
  cases second
  simp only [String.toList_inj] at name expected observed
  simp only at passed
  rw [name, expected, observed, passed]

/-- The fields of a planned vector can be read back. -/
theorem plannedLine_inj {first second : String × String} (left : Plain first.1)
    (right : Plain second.1) (same : plannedLine first = plannedLine second) : first = second := by
  obtain ⟨name, expected⟩ := append_mark_inj left.1 right.1 same
  exact Prod.ext (String.toList_inj.mp name) (String.toList_inj.mp expected)

/-- A case is never a planned vector. -/
theorem caseLine_ne_plannedLine {case : VectorResult} {vector : String × String}
    (left : Plain case.name) (right : Plain vector.1 ∧ Plain vector.2) :
    caseLine case ≠ plannedLine vector := by
  intro same
  obtain ⟨_, rest⟩ := append_mark_inj left.1 right.1.1 same
  exact right.2.1 (by simp [← rest])

/-- No line of a plain outcome has a newline, and each has the end of a field. -/
theorem EvidenceOutcome.PlainTexts.lines {outcome : EvidenceOutcome} (plain : outcome.PlainTexts) :
    ∀ line ∈ outcome.lines, recordEnd ∉ line ∧ fieldEnd ∈ line := by
  have apart : recordEnd ≠ fieldEnd := by decide
  intro line member
  cases outcome with
  | report cases =>
    obtain ⟨case, listed, rfl⟩ := List.mem_map.mp member
    obtain ⟨name, expected, observed⟩ := plain case listed
    have verdict : recordEnd ≠ verdictByte case.passed := by
      cases case.passed <;> decide
    refine ⟨?_, by simp [caseLine]⟩
    simp [caseLine, name.2, expected.2, observed.2, apart, verdict]
  | planned vectors =>
    obtain ⟨vector, listed, rfl⟩ := List.mem_map.mp member
    obtain ⟨name, expected⟩ := plain vector listed
    refine ⟨?_, by simp [plannedLine]⟩
    simp [plannedLine, name.2, expected.2, apart]

/-- Injective on the members of both lists, a map can be undone. -/
theorem map_inj_of_mem {α β : Type} {f : α → β} {first second : List α}
    (inj : ∀ a ∈ first, ∀ b ∈ second, f a = f b → a = b)
    (same : first.map f = second.map f) : first = second := by
  induction first generalizing second with
  | nil => simpa using same.symm
  | cons a first inductionHypothesis =>
    cases second with
    | nil => simp at same
    | cons b second =>
      rw [List.map_cons, List.map_cons, List.cons.injEq] at same
      rw [inj a List.mem_cons_self b List.mem_cons_self same.1,
        inductionHypothesis (fun a left b right => inj a (List.mem_cons_of_mem _ left) b
          (List.mem_cons_of_mem _ right)) same.2]

/-- Plain cases and plain planned vectors have different lines, unless there are
none. -/
theorem caseLines_ne_plannedLines {cases : List VectorResult} {vectors : List (String × String)}
    (left : (EvidenceOutcome.report cases).PlainTexts) (right : (EvidenceOutcome.planned vectors).PlainTexts)
    (told : cases ≠ [] ∨ vectors ≠ []) : cases.map caseLine ≠ vectors.map plannedLine := by
  intro same
  cases cases with
  | nil =>
    cases vectors with
    | nil => simp at told
    | cons vector vectors => simp at same
  | cons case cases =>
    cases vectors with
    | nil => simp at same
    | cons vector vectors =>
      rw [List.map_cons, List.map_cons, List.cons.injEq] at same
      exact caseLine_ne_plannedLine (left case List.mem_cons_self).1
        (right vector List.mem_cons_self) same.1

/-- The lines of plain outcomes that are told apart can be read back. -/
theorem outcome_of_lines {first second : EvidenceOutcome} (left : first.PlainTexts)
    (right : second.PlainTexts) (told : first.ToldFrom second)
    (same : first.lines = second.lines) : first = second := by
  cases first with
  | report cases =>
    cases second with
    | report others =>
      rw [map_inj_of_mem (fun a member b other => caseLine_inj (left a member) (right b other)) same]
    | planned vectors => exact absurd same (caseLines_ne_plannedLines left right told)
  | planned vectors =>
    cases second with
    | report cases => exact absurd same.symm (caseLines_ne_plannedLines right left told)
    | planned others =>
      rw [map_inj_of_mem (fun a member b other =>
        plannedLine_inj (left a member).1 (right b other).1) same]

/-- Plain records that are told apart can be read back from their text. -/
theorem record_of_text {first second : EvidenceRecord} (left : first.PlainTexts)
    (right : second.PlainTexts) (told : first.outcome.ToldFrom second.outcome)
    (same : first.text = second.text) : first = second := by
  have basis : fieldEnd ∉ oracleAndVectors.toList := by decide +kernel
  obtain ⟨id, same⟩ := append_mark_inj left.id right.id same
  obtain ⟨version, same⟩ := append_mark_inj (version_plain _).1 (version_plain _).1 same
  obtain ⟨_, same⟩ := append_mark_inj basis basis same
  have noNewline {record : EvidenceRecord} (plain : record.PlainTexts) :
      ∀ line ∈ record.ensures.map String.toList ++ record.outcome.lines, recordEnd ∉ line := by
    intro line member
    rcases List.mem_append.mp member with inEnsures | inCases
    · obtain ⟨source, listed, rfl⟩ := List.mem_map.mp inEnsures
      exact (plain.ensures source listed).2
    · exact (plain.outcome.lines line inCases).1
  have sources {record : EvidenceRecord} (plain : record.PlainTexts) :
      ∀ line ∈ record.ensures.map String.toList, fieldEnd ∉ line := by
    intro line member
    obtain ⟨source, listed, rfl⟩ := List.mem_map.mp member
    exact (plain.ensures source listed).1
  have lines := terminated_inj (noNewline left) (noNewline right) same
  obtain ⟨ensures, outcome⟩ := append_kinds_inj (sources left) (sources right)
    (fun line member => (left.outcome.lines line member).2)
    (fun line member => (right.outcome.lines line member).2) lines
  have sameOutcome := outcome_of_lines left.outcome right.outcome told outcome
  have sameEnsures := map_inj_of_mem (fun a _ b _ same => String.toList_inj.mp same) ensures
  have sameVersion := version_inj version
  have sameId := String.toList_inj.mp id
  cases first
  cases second
  simp_all only

/-- The inputs of a run that the evidence is about. -/
structure OracleRun where
  recognized : RecognizedOracle
  contract : CheckedContract
  plannedVectors : List TestVector
  behavior : Option HarnessReport

def OracleRun.record (jsonText : Json → String) (run : OracleRun) : EvidenceRecord :=
  evidenceRecord jsonText run.recognized run.contract run.plannedVectors run.behavior

/-- Runs with plain texts that are told apart bind their record: the bytes fed to the
hash agree exactly when the records do.

    Proof: fields are cut at the first separator, and a line of a case has the end of a
    field where the source of a condition has none. -/
theorem evidence_bytes_bind (jsonText : Json → String) (run other : OracleRun)
    (left : (run.record jsonText).PlainTexts) (right : (other.record jsonText).PlainTexts)
    (told : (run.record jsonText).outcome.ToldFrom (other.record jsonText).outcome) :
    (run.record jsonText).bytes = (other.record jsonText).bytes ↔
      run.record jsonText = other.record jsonText := by
  refine ⟨fun same => ?_, fun same => by rw [same]⟩
  apply record_of_text left right told
  exact String.ofList_injective (String.toByteArray_inj.mp same)

/-- The names are those of synthesized vectors and of accepted external cases. -/
def OracleRun.Admitted (run : OracleRun) : Prop :=
  run.behavior = none ∧ ∀ vector ∈ run.plannedVectors, vector ∈ synthesizeVectors run.contract ∨
    ∃ case, deriveExternalVector run.contract case = .ok vector

/-- The least of two sizes. -/
def minSizes : CheckedContract where
  name := "min_pair"
  parameters := [⟨"a", .usize, none⟩, ⟨"b", .usize, none⟩]
  returns := [⟨"result", .usize⟩]
  requires := []
  ensures := []
  effects := []
  memory := none

/-- The vector of a case that gives one number twice. -/
def twiceVector (id : String) (number : UInt64) : TestVector :=
  ⟨"external:" ++ id, [.ofU64 number, .ofU64 number], .ofU64 (PureIntOp.min.reduce number number)⟩

/-- A case with an id that is not blank is accepted. -/
theorem twiceVector_derived (id : String) (number : UInt64)
    (shown : (Text.trim id).isEmpty = false) :
    ∃ case, deriveExternalVector minSizes case = .ok (twiceVector id number) := by
  have shape : pureIntShape minSizes = some .min := by decide +kernel
  have distinct : (minSizes.parameters.map CheckedParam.name).Nodup := by decide
  have accepted := (externalExpected_usize shape "x" rfl (.ofU64 number) (.ofU64 number) [] _).mpr
    ⟨number, number, rfl, rfl, rfl⟩
  have derived := derive_caseOf minSizes [.ofU64 number, .ofU64 number] _ distinct rfl accepted
  exact ⟨_, deriveExternalVector_relabel minSizes _ _ derived id shown⟩

/-- A planned run of the sizes. -/
def sizesRun (vectors : List TestVector) : OracleRun :=
  ⟨⟨"builtin.pure_int.binary_usize", 2, PureIntOp.min.claim⟩, minSizes, vectors, none⟩

/-- The decimal text of an unsigned number. -/
def numberText (value : Json) : String := (value.asU64.map toString).getD "null"

/-- One case whose id contains a whole record has the bytes of two cases. -/
theorem id_with_separators_collides :
    ¬ ∀ (jsonText : Json → String) (run other : OracleRun), run.Admitted → other.Admitted →
      run.record jsonText ≠ other.record jsonText →
      (run.record jsonText).bytes ≠ (other.record jsonText).bytes := by
  intro claimed
  have one : (sizesRun [twiceVector "a\x001\nexternal:b" 5]).Admitted := by
    refine ⟨rfl, fun vector member => .inr ?_⟩
    rw [List.mem_singleton.mp member]
    exact twiceVector_derived _ _ (by decide +kernel)
  have two : (sizesRun [twiceVector "a" 1, twiceVector "b" 5]).Admitted := by
    refine ⟨rfl, fun vector member => .inr ?_⟩
    rcases List.mem_cons.mp member with rfl | last
    · exact twiceVector_derived _ _ (by decide +kernel)
    · rw [List.mem_singleton.mp last]
      exact twiceVector_derived _ _ (by decide +kernel)
  refine claimed numberText _ _ one two ?_ ?_
  · intro same
    have outcome := congrArg EvidenceRecord.outcome same
    simp [OracleRun.record, evidenceRecord, sizesRun] at outcome
  · have text : ((sizesRun [twiceVector "a\x001\nexternal:b" 5]).record numberText).text =
        ((sizesRun [twiceVector "a" 1, twiceVector "b" 5]).record numberText).text := by
      decide +kernel
    rw [EvidenceRecord.bytes, EvidenceRecord.bytes, text]

/-- Two runs with plain ids are told apart by their bytes. -/
theorem plain_ids_bind :
    (sizesRun [twiceVector "a" 1]).record numberText ≠
        (sizesRun [twiceVector "b" 1]).record numberText ∧
      ((sizesRun [twiceVector "a" 1]).record numberText).bytes ≠
        ((sizesRun [twiceVector "b" 1]).record numberText).bytes := by
  have differ : (sizesRun [twiceVector "a" 1]).record numberText ≠
      (sizesRun [twiceVector "b" 1]).record numberText := by
    intro same
    have outcome := congrArg EvidenceRecord.outcome same
    simp [OracleRun.record, evidenceRecord, sizesRun, twiceVector] at outcome
  have oraclePlain : fieldEnd ∉ "builtin.pure_int.binary_usize".toList := by decide +kernel
  have number : Plain (numberText (.ofU64 (PureIntOp.min.reduce 1 1))) := by decide +kernel
  have plain (id : String) (good : Plain ("external:" ++ id)) :
      ((sizesRun [twiceVector id 1]).record numberText).PlainTexts := by
    refine ⟨oraclePlain, by simp [OracleRun.record, evidenceRecord, sizesRun, minSizes], ?_⟩
    intro vector member
    simp only [sizesRun, List.map_cons, List.map_nil, List.mem_singleton] at member
    rw [member]
    exact ⟨good, number⟩
  refine ⟨differ, fun same => differ ?_⟩
  exact (evidence_bytes_bind numberText _ _ (plain "a" (by decide +kernel))
    (plain "b" (by decide +kernel)) trivial).mp same

end Semasm.Agent.Harness
