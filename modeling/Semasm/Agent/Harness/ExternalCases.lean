import Semasm.Agent.Harness.ScalarSources
import Mathlib.Data.List.Forall2
import Mathlib.Tactic.ByContra

/-!
# Harnesses of external vector documents

The cases of a document become vectors after the builtin ones, and one harness is
generated from all of them. Its shape must be that of the contract's oracle. A derived
vector depends on the id of its case only in its name, and only contracts with a scalar
oracle have external vectors at all. The generators of the other shapes are a parameter:
no external case reaches them.
-/

namespace Semasm.Agent.Harness

open Contract

/-- The vectors of the cases of a document, behind ids that were seen before. -/
def externalVectors (contract : CheckedContract) :
    List String → List ExternalVectorCase → Except String (List TestVector)
  | _, [] => .ok []
  | ids, case :: cases =>
    if case.id ∈ ids then .error ("error: duplicate external case id '" ++ case.id ++ "'")
    else
      match deriveExternalVector contract case with
      | .error message => .error ("error: " ++ message)
      | .ok vector =>
        (externalVectors contract (case.id :: ids) cases).map (fun others => vector :: others)

/-- `generate_harness`. -/
def generateHarness
    (generateOther : String → List TestVector → Abi → HarnessShape → Except String String)
    (routineSymbol : String) (vectors : List TestVector) (abi : Abi) (shape : HarnessShape) :
    Except String String :=
  match shape with
  | .pureInt => .ok (sourceText (generateScalarHarness routineSymbol vectors abi false))
  | .pureIntUnary => .ok (sourceText (generateScalarHarness routineSymbol vectors abi true))
  | other => generateOther routineSymbol vectors abi other

/-- The harness of a contract's builtin vectors and an external document's cases. -/
def externalHarness
    (generateOther : String → List TestVector → Abi → HarnessShape → Except String String)
    (contract : CheckedContract) (builtin : List TestVector) (abi : Abi)
    (cases : List ExternalVectorCase) : Except String String :=
  if cases.isEmpty then .error "error: external vector document must contain at least one case"
  else
    match externalVectors contract [] cases with
    | .error message => .error message
    | .ok external =>
      match resolveHarnessShape contract (builtin ++ external) with
      | .error message => .error ("error: contract/harness mismatch: " ++ message)
      | .ok shape => generateHarness generateOther contract.name (builtin ++ external) abi shape

/-- The documents differ only in the ids of their cases. -/
def SameInputs (cases others : List ExternalVectorCase) : Prop :=
  cases.map ExternalVectorCase.inputs = others.map ExternalVectorCase.inputs

/-- The inputs of a case in the order of the parameters. -/
def orderedInputs (contract : CheckedContract) (inputs : NamedInputs) : List Json :=
  contract.parameters.filterMap (fun param => inputs.get param.name)

/-- A converted signed input is the same under another id. -/
theorem externalI64_relabel (caseId otherId parameter : String) (value : Json) (number : Int64)
    (converted : externalI64 caseId parameter value = .ok number) :
    externalI64 otherId parameter value = .ok number := by
  unfold externalI64 at converted ⊢
  cases read : value.asI64 with
  | none => simp [read] at converted
  | some held => simpa [read] using converted

/-- A converted unsigned input is the same under another id. -/
theorem externalU64_relabel (caseId otherId parameter : String) (value : Json) (number : UInt64)
    (converted : externalU64 caseId parameter value = .ok number) :
    externalU64 otherId parameter value = .ok number := by
  unfold externalU64 at converted ⊢
  cases read : value.asU64 with
  | none => simp [read] at converted
  | some held => simpa [read] using converted

/-- A unary result is the same under another id. -/
theorem expectedUnary_relabel (caseId otherId : String) (op : PureIntUnaryI64Op) (x : Int64)
    (expected : Json) (derived : expectedUnary caseId op x = .ok expected) :
    expectedUnary otherId op x = .ok expected := by
  unfold expectedUnary at derived ⊢
  split
  · rename_i negative
    simp [negative] at derived
  · rename_i positive
    rw [if_neg positive] at derived
    split
    · rename_i large
      simp [large] at derived
    · rename_i small
      rwa [if_neg small] at derived

/-- An expected result is the same under another id. -/
theorem externalExpected_relabel (contract : CheckedContract) (caseId otherId : String)
    (ordered : List Json) (expected : Json)
    (derived : externalExpected contract caseId ordered = .ok expected) :
    externalExpected contract otherId ordered = .ok expected := by
  unfold externalExpected at derived ⊢
  split
  · rename_i op usize
    simp only [usize] at derived
    cases first : firstTwo contract ordered with
    | error message => simp [first, bind, Except.bind] at derived
    | ok pair =>
      simp only [first, bind, Except.bind] at derived ⊢
      cases one : externalU64 caseId pair.1.1 pair.1.2 with
      | error message => simp [one] at derived
      | ok a =>
        cases two : externalU64 caseId pair.2.1 pair.2.2 with
        | error message => simp [one, two] at derived
        | ok b =>
          simp only [one, two] at derived
          simp only [externalU64_relabel caseId otherId _ _ _ one,
            externalU64_relabel caseId otherId _ _ _ two]
          exact derived
  · rename_i op usize signed
    simp only [usize, signed] at derived
    cases first : firstTwo contract ordered with
    | error message => simp [first, bind, Except.bind] at derived
    | ok pair =>
      simp only [first, bind, Except.bind] at derived ⊢
      cases one : externalI64 caseId pair.1.1 pair.1.2 with
      | error message => simp [one] at derived
      | ok a =>
        cases two : externalI64 caseId pair.2.1 pair.2.2 with
        | error message => simp [one, two] at derived
        | ok b =>
          simp only [one, two] at derived
          simp only [externalI64_relabel caseId otherId _ _ _ one,
            externalI64_relabel caseId otherId _ _ _ two]
          exact derived
  · rename_i op usize signed unary
    simp only [usize, signed, unary] at derived
    cases first : firstOne contract ordered with
    | error message => simp [first, bind, Except.bind] at derived
    | ok one =>
      simp only [first, bind, Except.bind] at derived ⊢
      cases read : externalI64 caseId one.1 one.2 with
      | error message => simp [read] at derived
      | ok x =>
        simp only [read] at derived
        simp only [externalI64_relabel caseId otherId _ _ _ read]
        exact expectedUnary_relabel caseId otherId op x expected derived
  · rename_i usize signed unary
    simp [usize, signed, unary] at derived

/-- A contract with an expected result has a scalar shape. -/
theorem externalExpected_scalar (contract : CheckedContract) (caseId : String)
    (ordered : List Json) (expected : Json)
    (derived : externalExpected contract caseId ordered = .ok expected) :
    (pureIntShape contract).isSome ∨ (pureIntI64Shape contract).isSome ∨
      (pureIntUnaryI64Shape contract).isSome := by
  unfold externalExpected at derived
  split at derived
  · rename_i op usize
    simp [usize]
  · rename_i op usize signed
    simp [signed]
  · rename_i op usize signed unary
    simp [unary]
  · cases derived

/-- What a derived vector is. -/
theorem deriveExternalVector_ok (contract : CheckedContract) (case : ExternalVectorCase)
    (vector : TestVector) (derived : deriveExternalVector contract case = .ok vector) :
    (Text.trim case.id).isEmpty = false ∧ vector.name = "external:" ++ case.id ∧
      vector.inputs = orderedInputs contract case.inputs ∧
      externalExpected contract case.id vector.inputs = .ok vector.expected := by
  unfold deriveExternalVector at derived
  split at derived
  · cases derived
  · rename_i shown
    split at derived
    · cases derived
    · cases expected : externalExpected contract case.id
          (contract.parameters.filterMap (fun param => case.inputs.get param.name)) with
      | error message => simp [expected, Except.map] at derived
      | ok value =>
        simp only [expected, Except.map, Except.ok.injEq] at derived
        subst derived
        exact ⟨by simpa using shown, rfl, rfl, expected⟩

/-- A case with another id that is not blank has the same vector under the new name. -/
theorem deriveExternalVector_relabel (contract : CheckedContract) (case : ExternalVectorCase)
    (vector : TestVector) (derived : deriveExternalVector contract case = .ok vector)
    (other : String) (shown : (Text.trim other).isEmpty = false) :
    deriveExternalVector contract ⟨other, case.inputs⟩ =
      .ok ⟨"external:" ++ other, vector.inputs, vector.expected⟩ := by
  obtain ⟨_, _, inputs, expected⟩ := deriveExternalVector_ok contract case vector derived
  unfold deriveExternalVector at derived ⊢
  rw [if_neg (by simp [shown])]
  split at derived
  · cases derived
  · split at derived
    · cases derived
    · rename_i provided
      rw [if_neg provided]
      have same := externalExpected_relabel contract case.id other _ _ expected
      rw [inputs] at same ⊢
      unfold orderedInputs at same ⊢
      simp only [same, Except.map]

/-- The vectors of a document are derived case by case. -/
theorem externalVectors_ok (contract : CheckedContract) (ids : List String)
    (cases : List ExternalVectorCase) (vectors : List TestVector)
    (derived : externalVectors contract ids cases = .ok vectors) :
    List.Forall₂ (fun case vector => deriveExternalVector contract case = .ok vector)
      cases vectors := by
  induction cases generalizing ids vectors with
  | nil =>
    cases derived
    exact .nil
  | cons case cases inductionHypothesis =>
    rw [externalVectors] at derived
    split at derived
    · cases derived
    · split at derived
      · cases derived
      · rename_i vector first
        cases rest : externalVectors contract (case.id :: ids) cases with
        | error message => simp [rest, Except.map] at derived
        | ok others =>
          simp only [rest, Except.map, Except.ok.injEq] at derived
          subst derived
          exact .cons first (inductionHypothesis (case.id :: ids) others rest)

/-- The derived vectors of documents that differ only in ids have the same inputs. -/
theorem externalVectors_inputs (contract : CheckedContract) (cases others : List ExternalVectorCase)
    (vectors otherVectors : List TestVector)
    (derived : List.Forall₂ (fun case vector => deriveExternalVector contract case = .ok vector)
      cases vectors)
    (otherDerived : List.Forall₂
      (fun case vector => deriveExternalVector contract case = .ok vector) others otherVectors)
    (same : SameInputs cases others) :
    vectors.map TestVector.inputs = otherVectors.map TestVector.inputs := by
  induction derived generalizing others otherVectors with
  | nil =>
    cases otherDerived with
    | nil => rfl
    | cons first rest => simp [SameInputs] at same
  | @cons case vector cases vectors first rest inductionHypothesis =>
    cases otherDerived with
    | nil => simp [SameInputs] at same
    | @cons other otherVector others otherVectors otherFirst otherRest =>
      simp only [SameInputs, List.map_cons, List.cons.injEq] at same
      have here : vector.inputs = otherVector.inputs := by
        rw [(deriveExternalVector_ok contract case vector first).2.2.1,
          (deriveExternalVector_ok contract other otherVector otherFirst).2.2.1, same.1]
      rw [List.map_cons, List.map_cons, here,
        inductionHypothesis others otherVectors otherRest same.2]

/-- The layout is read off the inputs of the vectors. -/
theorem detectHarnessShape_inputs (vectors others : List TestVector)
    (same : vectors.map TestVector.inputs = others.map TestVector.inputs) :
    detectHarnessShape vectors = detectHarnessShape others := by
  cases vectors with
  | nil =>
    rw [List.map_nil, eq_comm, List.map_eq_nil_iff] at same
    rw [same]
  | cons vector vectors =>
    cases others with
    | nil => cases same
    | cons other others =>
      simp only [List.map_cons, List.cons.injEq] at same
      unfold detectHarnessShape
      simp only [same.1]

/-- The shape of a harness is read off the inputs of its vectors. -/
theorem resolveHarnessShape_inputs (contract : CheckedContract) (vectors others : List TestVector)
    (same : vectors.map TestVector.inputs = others.map TestVector.inputs) :
    resolveHarnessShape contract vectors = resolveHarnessShape contract others := by
  unfold resolveHarnessShape
  rw [detectHarnessShape_inputs vectors others same]

/-- The oracle of a contract with a scalar shape is the scalar one. -/
theorem recognizeBehaviorOracle_scalar (contract : CheckedContract)
    (scalar : (pureIntShape contract).isSome ∨ (pureIntI64Shape contract).isSome ∨
      (pureIntUnaryI64Shape contract).isSome) :
    recognizeBehaviorOracle contract = recognizeScalar contract := by
  have types : pureIntTypes contract = true ∨ pureIntI64Types contract = true ∨
      pureIntUnaryI64Types contract = true := by
    rcases scalar with usize | signed | unary
    · by_contra untyped
      simp [pureIntShape, not_or.mp untyped] at usize
    · by_contra untyped
      simp [pureIntI64Shape, not_or.mp (not_or.mp untyped).2] at signed
    · by_contra untyped
      simp [pureIntUnaryI64Shape, not_or.mp (not_or.mp untyped).2] at unary
  have buffer := recognizeBuffer_noPtr contract (noPtr_of_scalar contract types)
  rw [recognizeBehaviorOracle, buffer, Option.none_or]
  cases found : recognizeScalar contract with
  | some oracle => rfl
  | none =>
    unfold recognizeScalar at found
    split at found
    · cases found
    · cases found
    · cases found
    · rename_i usize signed unary
      simp [usize, signed, unary] at scalar

/-- A scalar oracle goes with a scalar shape. -/
theorem recognizeScalar_shape (contract : CheckedContract) (oracle : RecognizedOracle)
    (found : recognizeScalar contract = some oracle) :
    oracleExpectedShape oracle.id = .ok .pureInt ∨
      oracleExpectedShape oracle.id = .ok .pureIntUnary := by
  unfold recognizeScalar at found
  split at found
  · cases found
    exact .inl rfl
  · cases found
    exact .inl rfl
  · cases found
    exact .inr rfl
  · cases found

/-- The harness of a contract with a scalar shape is a scalar harness. -/
theorem resolveHarnessShape_scalar (contract : CheckedContract) (vectors : List TestVector)
    (shape : HarnessShape)
    (scalar : (pureIntShape contract).isSome ∨ (pureIntI64Shape contract).isSome ∨
      (pureIntUnaryI64Shape contract).isSome)
    (resolved : resolveHarnessShape contract vectors = .ok shape) :
    shape = .pureInt ∨ shape = .pureIntUnary := by
  unfold resolveHarnessShape at resolved
  rw [recognizeBehaviorOracle_scalar contract scalar] at resolved
  split at resolved
  · cases resolved
  · rename_i oracle found
    have known := recognizeScalar_shape contract oracle found
    cases detected : detectHarnessShape vectors with
    | error message =>
      rcases known with binary | unary
      · simp [binary, detected, bind, Except.bind] at resolved
      · simp [unary, detected, bind, Except.bind] at resolved
    | ok layout =>
      rcases known with binary | unary
      · simp only [binary, detected, bind, Except.bind] at resolved
        split at resolved
        · exact .inl (Except.ok.inj resolved).symm
        · cases resolved
      · simp only [unary, detected, bind, Except.bind] at resolved
        split at resolved
        · exact .inr (Except.ok.inj resolved).symm
        · cases resolved

/-- What the harness of a document is made of. -/
theorem externalHarness_ok
    (generateOther : String → List TestVector → Abi → HarnessShape → Except String String)
    (contract : CheckedContract) (builtin : List TestVector) (abi : Abi)
    (cases : List ExternalVectorCase) (source : String)
    (generated : externalHarness generateOther contract builtin abi cases = .ok source) :
    ∃ external unary,
      List.Forall₂ (fun case vector => deriveExternalVector contract case = .ok vector)
        cases external ∧
      resolveHarnessShape contract (builtin ++ external) =
        .ok (if unary then .pureIntUnary else .pureInt) ∧
      source = sourceText (generateScalarHarness contract.name (builtin ++ external) abi unary) := by
  unfold externalHarness at generated
  split at generated
  · cases generated
  · rename_i inhabited
    split at generated
    · cases generated
    · rename_i external collected
      have derived := externalVectors_ok contract [] cases external collected
      split at generated
      · cases generated
      · rename_i shape resolved
        have scalar : (pureIntShape contract).isSome ∨ (pureIntI64Shape contract).isSome ∨
            (pureIntUnaryI64Shape contract).isSome := by
          cases derived with
          | nil => simp at inhabited
          | @cons case vector cases external first rest =>
            exact externalExpected_scalar contract case.id vector.inputs vector.expected
              (deriveExternalVector_ok contract case vector first).2.2.2
        rcases resolveHarnessShape_scalar contract _ shape scalar resolved with rfl | rfl
        · exact ⟨external, false, derived, resolved, (Except.ok.inj generated).symm⟩
        · exact ⟨external, true, derived, resolved, (Except.ok.inj generated).symm⟩

/-- A document with the same inputs has a harness of the same shape. -/
theorem externalHarness_of_inputs
    (generateOther : String → List TestVector → Abi → HarnessShape → Except String String)
    (contract : CheckedContract) (builtin external otherExternal : List TestVector) (abi : Abi)
    (others : List ExternalVectorCase) (unary : Bool)
    (resolved : resolveHarnessShape contract (builtin ++ external) =
      .ok (if unary then .pureIntUnary else .pureInt))
    (inhabited : others ≠ []) (collected : externalVectors contract [] others = .ok otherExternal)
    (same : external.map TestVector.inputs = otherExternal.map TestVector.inputs) :
    externalHarness generateOther contract builtin abi others =
      .ok (sourceText
        (generateScalarHarness contract.name (builtin ++ otherExternal) abi unary)) := by
  have whole : (builtin ++ external).map TestVector.inputs =
      (builtin ++ otherExternal).map TestVector.inputs := by
    rw [List.map_append, List.map_append, same]
  rw [resolveHarnessShape_inputs contract _ _ whole] at resolved
  rw [externalHarness, if_neg (by simpa using inhabited), collected]
  simp only [resolved]
  cases unary <;> rfl

/-- The cases under the ids `a`, `aa` and so on. -/
def relabeled : Nat → List ExternalVectorCase → List ExternalVectorCase
  | _, [] => []
  | count, case :: cases =>
    ⟨String.ofList (List.replicate (count + 1) 'a'), case.inputs⟩ :: relabeled (count + 1) cases

/-- Relabeling changes nothing but the ids. -/
theorem sameInputs_relabeled (count : Nat) (cases : List ExternalVectorCase) :
    SameInputs cases (relabeled count cases) := by
  induction cases generalizing count with
  | nil => rfl
  | cons case cases inductionHypothesis =>
    simp only [SameInputs, relabeled, List.map_cons, List.cons.injEq, true_and]
    exact inductionHypothesis (count + 1)

/-- The new ids are made of one letter. -/
theorem relabeled_letters (count : Nat) (cases : List ExternalVectorCase) :
    ∀ case ∈ relabeled count cases, ∀ c ∈ case.id.toList, c = 'a' := by
  induction cases generalizing count with
  | nil => simp [relabeled]
  | cons case cases inductionHypothesis =>
    intro other member c held
    rcases List.mem_cons.mp member with rfl | later
    · simp only [String.toList_ofList] at held
      exact List.eq_of_mem_replicate held
    · exact inductionHypothesis (count + 1) other later c held

/-- A word of the letter is not blank. -/
theorem letters_shown (count : Nat) :
    (Text.trim (String.ofList (List.replicate (count + 1) 'a'))).isEmpty = false := by
  have stays : ∀ length, (List.replicate length 'a').dropWhile Text.isWhitespace =
      List.replicate length 'a' := by
    intro length
    cases length <;> rfl
  have trimmed : Text.trim (String.ofList (List.replicate (count + 1) 'a')) =
      String.ofList (List.replicate (count + 1) 'a') := by
    rw [Text.trim, Text.trimChars, String.toList_ofList, stays, List.reverse_replicate, stays,
      List.reverse_replicate]
  rw [trimmed, ← Bool.not_eq_true, String.isEmpty_iff]
  intro empty
  have length := congrArg (fun text => text.toList.length) empty
  simp at length

/-- A document with derived vectors has some under the new ids as well. -/
theorem externalVectors_relabeled (contract : CheckedContract) (ids : List String) (count : Nat)
    (cases : List ExternalVectorCase) (vectors : List TestVector)
    (derived : List.Forall₂ (fun case vector => deriveExternalVector contract case = .ok vector)
      cases vectors)
    (short : ∀ id ∈ ids, id.toList.length ≤ count) :
    ∃ others, externalVectors contract ids (relabeled count cases) = .ok others := by
  induction derived generalizing ids count with
  | nil => exact ⟨[], rfl⟩
  | @cons case vector cases vectors first rest inductionHypothesis =>
    have fresh : String.ofList (List.replicate (count + 1) 'a') ∉ ids := by
      intro member
      have length := short _ member
      rw [String.toList_ofList, List.length_replicate] at length
      omega
    obtain ⟨others, later⟩ := inductionHypothesis
      (String.ofList (List.replicate (count + 1) 'a') :: ids) (count + 1) (by
        intro id member
        rcases List.mem_cons.mp member with rfl | held
        · simp
        · exact Nat.le_succ_of_le (short id held))
    have relabeledFirst := deriveExternalVector_relabel contract case vector first
      (String.ofList (List.replicate (count + 1) 'a')) (letters_shown count)
    rw [relabeled, externalVectors, if_neg fresh]
    simp only [relabeledFirst, later, Except.map]
    exact ⟨_, rfl⟩

end Semasm.Agent.Harness
