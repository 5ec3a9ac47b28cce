import Semasm.Agent.Harness.ExternalCases
import Semasm.Library.LineComments
import Mathlib.Data.List.Nodup

/-!
# Case ids in harness sources

The id of an external case reaches the harness only as the end of a comment line, behind
the comment marker of the target. It stays in the comment exactly when no character of
it ends a line. An id is only checked for not being blank, so one with a line feed adds
lines to the assembled source.

What ends a line is left to the assembler: a line feed does, a printable ASCII character
does not.
-/

namespace Semasm.Agent.Harness

open Contract
open Library

/-- What an assembler takes for the end of a line. -/
structure LineEnds where
  ends : Char → Bool
  feed : ends '\n' = true
  printable : ∀ c : Char, 32 ≤ c.toNat → c.toNat ≤ 126 → ends c = false

/-- Only a line feed ends a line. -/
def LineEnds.feedOnly : LineEnds where
  ends := fun c => c == '\n'
  feed := rfl
  printable := by
    intro c low _
    rw [beq_eq_false_iff_ne]
    rintro rfl
    exact absurd low (by decide)

/-- No character of the text ends a line. -/
def OnOneLine (lineEnds : LineEnds) (text : String) : Prop :=
  ∀ c ∈ text.toList, lineEnds.ends c = false

instance (lineEnds : LineEnds) (text : String) : Decidable (OnOneLine lineEnds text) :=
  inferInstanceAs (Decidable (∀ c ∈ text.toList, lineEnds.ends c = false))

/-- Every character of the text is printable ASCII. -/
def Printable (text : String) : Prop := ∀ c ∈ text.toList, 32 ≤ c.toNat ∧ c.toNat ≤ 126

instance (text : String) : Decidable (Printable text) :=
  List.decidableBAll (fun c : Char => 32 ≤ c.toNat ∧ c.toNat ≤ 126) text.toList

/-- Printable text is on one line. -/
theorem Printable.onOneLine (lineEnds : LineEnds) (text : String) (printable : Printable text) :
    OnOneLine lineEnds text :=
  fun c member => lineEnds.printable c (printable c member).1 (printable c member).2

/-- Text put together from two parts on one line is on one line. -/
theorem OnOneLine.append (lineEnds : LineEnds) (first second : String)
    (one : OnOneLine lineEnds first) (two : OnOneLine lineEnds second) :
    OnOneLine lineEnds (first ++ second) := by
  intro c member
  rw [String.toList_append, List.mem_append] at member
  rcases member with left | right
  · exact one c left
  · exact two c right

/-- A number is printable. -/
theorem printable_nat (number : Nat) : Printable (toString number) := by
  intro c member
  rw [Nat.toString_eq_repr, Nat.toList_repr] at member
  have digit := Nat.isDigit_of_mem_toDigits (by decide) (by decide) member
  simp only [Char.isDigit, Bool.and_eq_true, decide_eq_true_eq] at digit
  exact ⟨Nat.le_trans (by decide : 32 ≤ 48) digit.1, Nat.le_trans digit.2 (by decide)⟩

/-- The marker of a target is printable. -/
theorem printable_marker (abi : Abi) : Printable abi.commentMarker := by
  cases abi <;> decide +kernel

/-- The comments of a target's harness. -/
def commentStyle (lineEnds : LineEnds) (abi : Abi) : LineComments.Style Char where
  ends := lineEnds.ends
  marker := abi.commentMarker.toList
  marked := by cases abi <;> decide
  oneLine := (printable_marker abi).onOneLine lineEnds

/-- A harness source without its comments. -/
def stripComments (lineEnds : LineEnds) (abi : Abi) (source : String) : List Char :=
  LineComments.strip (commentStyle lineEnds abi) false source.toList

/-- A line of a source. -/
def lineText (line : String) : List Char := line.toList ++ ['\n']

/-- A source is its lines. -/
theorem sourceText_toList (lines : List String) :
    (sourceText lines).toList = lines.flatMap lineText := by
  simp only [sourceText, String.toList_join, List.flatMap_map, String.toList_append]
  rfl

/-- A source is stripped line by line. -/
theorem stripComments_lines (lineEnds : LineEnds) (abi : Abi) (lines : List String) :
    stripComments lineEnds abi (sourceText lines) =
      lines.flatMap (fun line => LineComments.strip (commentStyle lineEnds abi) false
        (lineText line)) := by
  have whole := LineComments.strip_lines (commentStyle lineEnds abi) (lines.map String.toList) '\n'
    lineEnds.feed
  rw [List.flatMap_map, List.flatMap_map] at whole
  rw [stripComments, sourceText_toList]
  exact whole

/-- The comment line above the call of a vector. -/
def vectorComment (abi : Abi) (index : Nat) (name : String) : String :=
  "    " ++ abi.commentMarker ++ " vector " ++ toString index ++ ": " ++ name

/-- The comment of a vector whose name is on one line is as good as one without a name. -/
theorem strip_vectorComment (lineEnds : LineEnds) (abi : Abi) (index : Nat) (name : String)
    (plain : OnOneLine lineEnds name) :
    LineComments.strip (commentStyle lineEnds abi) false (lineText (vectorComment abi index name)) =
      LineComments.strip (commentStyle lineEnds abi) false ("    ".toList ++
        (abi.commentMarker.toList ++ ['\n'])) := by
  have hidden : OnOneLine lineEnds (" vector " ++ toString index ++ ": " ++ name) := by
    apply OnOneLine.append lineEnds _ _ _ plain
    apply OnOneLine.append lineEnds _ _ _ ((by decide +kernel : Printable ": ").onOneLine lineEnds)
    exact OnOneLine.append lineEnds _ _ ((by decide +kernel : Printable " vector ").onOneLine lineEnds)
      ((printable_nat index).onOneLine lineEnds)
  have split : lineText (vectorComment abi index name) = "    ".toList ++
      (abi.commentMarker.toList ++
        ((" vector " ++ toString index ++ ": " ++ name).toList ++ ['\n'])) := by
    simp only [lineText, vectorComment, String.toList_append, List.append_assoc]
  rw [split]
  exact LineComments.strip_comment (commentStyle lineEnds abi) false "    ".toList _ '\n' hidden

/-- The calls of vectors whose numbers start at a given one. -/
def callsFrom (abi : Abi) (call : Nat → List String) (start : Nat) (vectors : List TestVector) :
    List String :=
  (vectors.zipIdx start).flatMap (fun (vector, index) =>
    vectorComment abi index vector.name :: call index)

/-- The calls of some vectors are those of the first and those of the others. -/
theorem callsFrom_cons (abi : Abi) (call : Nat → List String) (start : Nat) (vector : TestVector)
    (vectors : List TestVector) :
    callsFrom abi call start (vector :: vectors) =
      vectorComment abi start vector.name ::
        (call start ++ callsFrom abi call (start + 1) vectors) := by
  rw [callsFrom, List.zipIdx_cons, List.flatMap_cons]
  rfl

/-- The vectors have the same name, or names on one line. -/
def SameComment (lineEnds : LineEnds) (vector other : TestVector) : Prop :=
  vector.name = other.name ∨ OnOneLine lineEnds vector.name ∧ OnOneLine lineEnds other.name

/-- The calls of vectors with the same comments have the same code. -/
theorem strip_callsFrom (lineEnds : LineEnds) (abi : Abi) (call : Nat → List String) (start : Nat)
    (vectors others : List TestVector)
    (same : List.Forall₂ (SameComment lineEnds) vectors others) :
    stripComments lineEnds abi (sourceText (callsFrom abi call start vectors)) =
      stripComments lineEnds abi (sourceText (callsFrom abi call start others)) := by
  induction same generalizing start with
  | nil => rfl
  | @cons vector other vectors others first rest inductionHypothesis =>
    have comment : LineComments.strip (commentStyle lineEnds abi) false
          (lineText (vectorComment abi start vector.name)) =
        LineComments.strip (commentStyle lineEnds abi) false
          (lineText (vectorComment abi start other.name)) := by
      rcases first with equal | ⟨one, two⟩
      · rw [equal]
      · rw [strip_vectorComment lineEnds abi start _ one,
          strip_vectorComment lineEnds abi start _ two]
    have later := inductionHypothesis (start + 1)
    simp only [stripComments_lines] at later ⊢
    simp only [callsFrom_cons, List.flatMap_cons, List.flatMap_append, comment, later]

/-- The number of line ends in a text. -/
def lineEndsIn (lineEnds : LineEnds) (text : String) : Nat := text.toList.countP lineEnds.ends

/-- A text without a line end is on one line. -/
theorem lineEndsIn_zero (lineEnds : LineEnds) (text : String) :
    lineEndsIn lineEnds text = 0 ↔ OnOneLine lineEnds text := by
  rw [lineEndsIn, List.countP_eq_zero]
  simp only [OnOneLine, Bool.not_eq_true]

/-- The line ends of a text put together from two parts. -/
theorem lineEndsIn_append (lineEnds : LineEnds) (first second : String) :
    lineEndsIn lineEnds (first ++ second) =
      lineEndsIn lineEnds first + lineEndsIn lineEnds second := by
  rw [lineEndsIn, String.toList_append, List.countP_append]
  rfl

/-- The line ends of a source, line by line. -/
theorem lineEndsIn_cons (lineEnds : LineEnds) (line : String) (lines : List String) :
    lineEndsIn lineEnds (sourceText (line :: lines)) =
      lineEndsIn lineEnds line + 1 + lineEndsIn lineEnds (sourceText lines) := by
  simp only [lineEndsIn, sourceText_toList, List.flatMap_cons, lineText, List.countP_append,
    List.countP_singleton, lineEnds.feed, if_true]

/-- The line ends of a source in two parts. -/
theorem lineEndsIn_lines (lineEnds : LineEnds) (first second : List String) :
    lineEndsIn lineEnds (sourceText (first ++ second)) =
      lineEndsIn lineEnds (sourceText first) + lineEndsIn lineEnds (sourceText second) := by
  simp only [lineEndsIn, sourceText_toList, List.flatMap_append, List.countP_append]

/-- The number of line ends in the names of vectors. -/
def nameEnds (lineEnds : LineEnds) (vectors : List TestVector) : Nat :=
  (vectors.map (fun vector => lineEndsIn lineEnds vector.name)).sum

/-- The names of vectors have no line end when each is on one line. -/
theorem nameEnds_zero (lineEnds : LineEnds) (vectors : List TestVector) :
    nameEnds lineEnds vectors = 0 ↔ ∀ vector ∈ vectors, OnOneLine lineEnds vector.name := by
  rw [nameEnds, List.sum_eq_zero_iff_forall_eq_nat]
  simp only [List.mem_map, forall_exists_index, and_imp, forall_apply_eq_imp_iff₂,
    lineEndsIn_zero]

/-- A source has as many line ends without its comments. -/
theorem countP_stripComments (lineEnds : LineEnds) (abi : Abi) (source : String) :
    (stripComments lineEnds abi source).countP lineEnds.ends = lineEndsIn lineEnds source :=
  LineComments.countP_strip (commentStyle lineEnds abi) false source.toList

/-- The calls of as many vectors differ in line ends as the names do. -/
theorem callsFrom_ends (lineEnds : LineEnds) (abi : Abi) (call : Nat → List String) (start : Nat)
    (vectors others : List TestVector) (same : vectors.length = others.length) :
    lineEndsIn lineEnds (sourceText (callsFrom abi call start vectors)) +
        nameEnds lineEnds others =
      lineEndsIn lineEnds (sourceText (callsFrom abi call start others)) +
        nameEnds lineEnds vectors := by
  induction vectors generalizing others start with
  | nil =>
    cases others with
    | nil => rfl
    | cons other others => cases same
  | cons vector vectors inductionHypothesis =>
    cases others with
    | nil => cases same
    | cons other others =>
      have later := inductionHypothesis (start + 1) others (Nat.succ.inj same)
      simp only [callsFrom_cons, lineEndsIn_cons, lineEndsIn_lines, vectorComment,
        lineEndsIn_append, nameEnds, List.map_cons, List.sum_cons] at later ⊢
      omega

/-- The lines of a harness around its calls. -/
theorem harnessLines_calls (abi : Abi) (vectors : List TestVector) (before : List String)
    (call : Nat → List String) (after : List String) :
    harnessLines abi vectors before call after =
      before ++ callsFrom abi call 0 vectors ++ after := rfl

/-- The harness of vectors with the same inputs differs only in the comments of the calls. -/
theorem generateScalarHarness_inputs (routineSymbol : String) (abi : Abi) (unary : Bool)
    (vectors others : List TestVector)
    (same : vectors.map TestVector.inputs = others.map TestVector.inputs) :
    ∃ before call after,
      generateScalarHarness routineSymbol vectors abi unary =
        before ++ callsFrom abi call 0 vectors ++ after ∧
      generateScalarHarness routineSymbol others abi unary =
        before ++ callsFrom abi call 0 others ++ after := by
  have length : vectors.length = others.length := by
    simpa using congrArg List.length same
  cases abi <;> cases unary <;>
    simp only [generateScalarHarness, generateSysvPureIntHarness,
      generateSysvPureIntUnaryHarness, generateWin64PureIntHarness,
      generateWin64PureIntUnaryHarness, generateAapcs64PureIntHarness,
      generateAapcs64PureIntUnaryHarness, generateRiscvPureIntHarness,
      generateRiscvPureIntUnaryHarness, sysvHarness, win64Harness, aapcs64Harness, riscvHarness,
      emitPureIntVectorData, emitPureIntUnaryVectorData, emitGasPureIntVectorData,
      emitGasPureIntUnaryVectorData, eachInput, harnessLines_calls, same, length] <;>
    exact ⟨_, _, _, rfl, rfl⟩

/-- Harnesses of vectors with the same inputs and comments have the same code. -/
theorem strip_generated (lineEnds : LineEnds) (routineSymbol : String) (abi : Abi) (unary : Bool)
    (vectors others : List TestVector)
    (same : vectors.map TestVector.inputs = others.map TestVector.inputs)
    (comments : List.Forall₂ (SameComment lineEnds) vectors others) :
    stripComments lineEnds abi (sourceText (generateScalarHarness routineSymbol vectors abi unary)) =
      stripComments lineEnds abi
        (sourceText (generateScalarHarness routineSymbol others abi unary)) := by
  obtain ⟨before, call, after, left, right⟩ :=
    generateScalarHarness_inputs routineSymbol abi unary vectors others same
  have calls := strip_callsFrom lineEnds abi call 0 vectors others comments
  rw [left, right]
  simp only [stripComments_lines, List.flatMap_append] at calls ⊢
  rw [calls]

/-- Harnesses of vectors with the same inputs and the same code have as many line ends in
the names of their vectors. -/
theorem nameEnds_generated (lineEnds : LineEnds) (routineSymbol : String) (abi : Abi)
    (unary : Bool) (vectors others : List TestVector)
    (same : vectors.map TestVector.inputs = others.map TestVector.inputs)
    (code : stripComments lineEnds abi
        (sourceText (generateScalarHarness routineSymbol vectors abi unary)) =
      stripComments lineEnds abi
        (sourceText (generateScalarHarness routineSymbol others abi unary))) :
    nameEnds lineEnds vectors = nameEnds lineEnds others := by
  obtain ⟨before, call, after, left, right⟩ :=
    generateScalarHarness_inputs routineSymbol abi unary vectors others same
  have ends := congrArg (List.countP lineEnds.ends) code
  have length : vectors.length = others.length := by
    simpa using congrArg List.length same
  have calls := callsFrom_ends lineEnds abi call 0 vectors others length
  rw [left, right, countP_stripComments, countP_stripComments] at ends
  simp only [lineEndsIn_lines] at ends
  omega

/-- The names of derived vectors are on one line when the ids are. -/
theorem derived_onOneLine (lineEnds : LineEnds) (contract : CheckedContract)
    (cases : List ExternalVectorCase) (vectors : List TestVector)
    (derived : List.Forall₂ (fun case vector => deriveExternalVector contract case = .ok vector)
      cases vectors) :
    (∀ vector ∈ vectors, OnOneLine lineEnds vector.name) ↔
      ∀ case ∈ cases, OnOneLine lineEnds case.id := by
  induction derived with
  | nil => simp
  | @cons case vector cases vectors first rest inductionHypothesis =>
    have named := (deriveExternalVector_ok contract case vector first).2.1
    have own : OnOneLine lineEnds vector.name ↔ OnOneLine lineEnds case.id := by
      rw [named, ← lineEndsIn_zero, ← lineEndsIn_zero, lineEndsIn_append,
        (lineEndsIn_zero lineEnds "external:").mpr
          ((by decide +kernel : Printable "external:").onOneLine lineEnds), Nat.zero_add]
    rw [List.forall_mem_cons, List.forall_mem_cons, own, inductionHypothesis]

/-- Builtin vectors with names on one line after them have the same comments. -/
theorem sameComment_append (lineEnds : LineEnds) (builtin vectors others : List TestVector)
    (length : vectors.length = others.length)
    (one : ∀ vector ∈ vectors, OnOneLine lineEnds vector.name)
    (two : ∀ other ∈ others, OnOneLine lineEnds other.name) :
    List.Forall₂ (SameComment lineEnds) (builtin ++ vectors) (builtin ++ others) := by
  induction builtin with
  | nil =>
    rw [List.nil_append, List.nil_append, List.forall₂_iff_zip]
    refine ⟨length, fun {vector other} member => ?_⟩
    obtain ⟨left, right⟩ := List.of_mem_zip member
    exact .inr ⟨one vector left, two other right⟩
  | cons vector builtin inductionHypothesis => exact .cons (.inl rfl) inductionHypothesis

/-- The code of a document's harness does not depend on the case ids, as compared with all
documents whose ids are on one line, exactly when its own ids are on one line.

Proof: the ids are in the comment lines only. On one line they are stripped with the
comments. A line end in an id is a line end of the code, and the document with the ids
`a`, `aa` and so on has fewer of them. -/
theorem stripComments_externalHarness_iff (lineEnds : LineEnds)
    (generateOther : String → List TestVector → Abi → HarnessShape → Except String String)
    (contract : CheckedContract) (builtin : List TestVector) (abi : Abi)
    (cases : List ExternalVectorCase) (source : String)
    (generated : externalHarness generateOther contract builtin abi cases = .ok source) :
    (∀ others otherSource, SameInputs cases others →
      externalHarness generateOther contract builtin abi others = .ok otherSource →
      (∀ case ∈ others, OnOneLine lineEnds case.id) →
        stripComments lineEnds abi source = stripComments lineEnds abi otherSource) ↔
      ∀ case ∈ cases, OnOneLine lineEnds case.id := by
  obtain ⟨external, unary, derived, resolved, rfl⟩ :=
    externalHarness_ok generateOther contract builtin abi cases source generated
  constructor
  · intro independent
    obtain ⟨otherExternal, collected⟩ :=
      externalVectors_relabeled contract [] 0 cases external derived (by simp)
    have otherDerived := externalVectors_ok contract [] _ otherExternal collected
    have same := externalVectors_inputs contract cases _ external otherExternal derived
      otherDerived (sameInputs_relabeled 0 cases)
    have inhabited : relabeled 0 cases ≠ [] := by
      intro empty
      have none := sameInputs_relabeled 0 cases
      rw [empty, SameInputs, List.map_nil, List.map_eq_nil_iff] at none
      rw [none] at generated
      cases generated
    have otherGenerated := externalHarness_of_inputs generateOther contract builtin external
      otherExternal abi (relabeled 0 cases) unary resolved inhabited collected same
    have plain : ∀ case ∈ relabeled 0 cases, OnOneLine lineEnds case.id := by
      intro case member c held
      rw [relabeled_letters 0 cases case member c held]
      exact lineEnds.printable 'a' (by decide) (by decide)
    have code := independent _ _ (sameInputs_relabeled 0 cases) otherGenerated plain
    have names := nameEnds_generated lineEnds contract.name abi unary _ _
      (by rw [List.map_append, List.map_append, same]) code
    have otherNames := (nameEnds_zero lineEnds otherExternal).mpr
      ((derived_onOneLine lineEnds contract _ otherExternal otherDerived).mpr plain)
    simp only [nameEnds, List.map_append, List.sum_append] at names otherNames
    rw [otherNames] at names
    exact (derived_onOneLine lineEnds contract cases external derived).mp
      ((nameEnds_zero lineEnds external).mp (by simpa [nameEnds] using names))
  · intro plain others otherSource same otherGenerated otherPlain
    obtain ⟨otherExternal, otherUnary, otherDerived, otherResolved, rfl⟩ :=
      externalHarness_ok generateOther contract builtin abi others otherSource otherGenerated
    have inputs := externalVectors_inputs contract cases others external otherExternal derived
      otherDerived same
    have whole : (builtin ++ external).map TestVector.inputs =
        (builtin ++ otherExternal).map TestVector.inputs := by
      rw [List.map_append, List.map_append, inputs]
    have sameUnary : unary = otherUnary := by
      rw [resolveHarnessShape_inputs contract _ _ whole, otherResolved] at resolved
      cases unary <;> cases otherUnary <;> first | rfl | cases resolved
    subst sameUnary
    apply strip_generated lineEnds contract.name abi unary _ _ whole
    apply sameComment_append lineEnds builtin external otherExternal
    · simpa using congrArg List.length inputs
    · exact (derived_onOneLine lineEnds contract cases external derived).mpr plain
    · exact (derived_onOneLine lineEnds contract others otherExternal otherDerived).mpr otherPlain

/-- A contract of one signed parameter. -/
def sumRange : CheckedContract :=
  ⟨"sum_range", [⟨"n", .int 64, none⟩], [⟨"result", .int 64⟩], [], [], [], none⟩

/-- A case of input three. -/
def caseOfThree (id : String) : ExternalVectorCase := ⟨id, ⟨[("n", Json.ofI64 3)], by decide⟩⟩

/-- The vector of that case. -/
def vectorOfThree (id : String) : TestVector := ⟨"external:" ++ id, [Json.ofI64 3], Json.ofI64 6⟩

/-- The vector of that case goes with the contract's oracle. -/
theorem vectorOfThree_shape (id : String) :
    resolveHarnessShape sumRange [vectorOfThree id] = .ok .pureIntUnary := rfl

/-- The harness of a document with that case. -/
theorem caseOfThree_generated (id : String) (shown : (Text.trim id).isEmpty = false) :
    externalHarness (fun _ _ _ _ => .error "") sumRange [] .sysVAmd64 [caseOfThree id] =
      .ok (sourceText (generateScalarHarness "sum_range" [vectorOfThree id] .sysVAmd64 true)) := by
  have first : deriveExternalVector sumRange (caseOfThree "one") = .ok (vectorOfThree "one") := rfl
  have derived : deriveExternalVector sumRange (caseOfThree id) = .ok (vectorOfThree id) :=
    deriveExternalVector_relabel sumRange (caseOfThree "one") _ first id shown
  have collected : externalVectors sumRange [] [caseOfThree id] = .ok [vectorOfThree id] := by
    simp only [externalVectors, derived, List.not_mem_nil, if_false]
    rfl
  exact externalHarness_of_inputs _ sumRange [] [vectorOfThree id] [vectorOfThree id] .sysVAmd64
    [caseOfThree id] true (vectorOfThree_shape id) (by simp) collected rfl

/-- At a harmless document the condition holds. -/
theorem stripComments_externalHarness_one :
    (∀ others otherSource, SameInputs [caseOfThree "one"] others →
      externalHarness (fun _ _ _ _ => .error "") sumRange [] .sysVAmd64 others =
        .ok otherSource →
      (∀ case ∈ others, OnOneLine .feedOnly case.id) →
        stripComments .feedOnly .sysVAmd64 (sourceText (generateScalarHarness "sum_range"
          [vectorOfThree "one"] .sysVAmd64 true)) =
            stripComments .feedOnly .sysVAmd64 otherSource) ↔
      ∀ case ∈ [caseOfThree "one"], OnOneLine .feedOnly case.id :=
  stripComments_externalHarness_iff .feedOnly (fun _ _ _ _ => .error "") sumRange [] .sysVAmd64
    [caseOfThree "one"] _ (caseOfThree_generated "one" (by decide))

/-- An id with a line feed adds an instruction to the code. -/
theorem stripComments_externalHarness_lineFeed : ∃ source other,
    SameInputs [caseOfThree "one"] [caseOfThree "one\nret"] ∧
    externalHarness (fun _ _ _ _ => .error "") sumRange [] .sysVAmd64 [caseOfThree "one"] =
      .ok source ∧
    externalHarness (fun _ _ _ _ => .error "") sumRange [] .sysVAmd64 [caseOfThree "one\nret"] =
      .ok other ∧
    stripComments .feedOnly .sysVAmd64 source ≠ stripComments .feedOnly .sysVAmd64 other := by
  have one := caseOfThree_generated "one" (by decide)
  have two := caseOfThree_generated "one\nret" (by decide)
  refine ⟨_, _, by simp only [SameInputs, List.map_cons, caseOfThree], one, two, ?_⟩
  intro code
  have names := nameEnds_generated .feedOnly "sum_range" .sysVAmd64 true
    [vectorOfThree "one"] [vectorOfThree "one\nret"]
    (by simp only [List.map_cons, vectorOfThree]) code
  exact absurd names (by decide)

end Semasm.Agent.Harness
