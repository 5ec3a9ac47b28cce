import Mathlib.Tactic.Ring
import Semasm.Agent.Harness.ExternalCases
import Semasm.Agent.Harness.VectorTruth
import Semasm.Agent.Harness.CallingOrder
import Semasm.Agent.Harness.Admissible
import Semasm.Contract.DocumentTruth

/-!
# What accepted external cases promise

A case is derived into a vector after its names and the operands at fixed positions were
looked at. Every accepted case of a contract is admissible and rightly expected exactly
when the contract has no parameter beside the operands, when its clauses on operands say
no more than the range the derivation admits, and when the oracle is not the sum of a
range, whose closed form wraps before it is halved.
-/

namespace Semasm.Agent.Harness

open Contract Library.Extremes

/-- The JSON value is a value of the machine type. A type without numbers has no JSON
values, apart from the truth values. -/
def InRange (value : Json) : SemType → Prop
  | .usize => ∃ number, value.asInt = some number ∧ 0 ≤ number ∧ number < 2 ^ 64
  | .isize => ∃ number, value.asInt = some number ∧ -2 ^ 63 ≤ number ∧ number < 2 ^ 63
  | .uint bits => ∃ number, value.asInt = some number ∧ 0 ≤ number ∧ number < 2 ^ bits.toNat
  | .int bits => ∃ number, value.asInt = some number ∧
      -2 ^ (bits.toNat - 1) ≤ number ∧ number < 2 ^ (bits.toNat - 1)
  | .bool => ∃ truth, value = .bool truth
  | _ => False

/-- No type holds `null`. -/
theorem not_inRange_null (ty : SemType) : ¬ InRange .null ty := by
  intro inRange
  have noNumber (bound : Int → Prop) : ¬ ∃ number, Json.null.asInt = some number ∧ bound number := by
    rintro ⟨number, found, _⟩
    cases found
  cases ty with
  | usize => exact noNumber _ inRange
  | isize => exact noNumber _ inRange
  | uint bits => exact noNumber _ inRange
  | int bits => exact noNumber _ inRange
  | bool =>
    obtain ⟨truth, found⟩ := inRange
    cases found
  | _ => exact inRange

/-- The type of the operands of a scalar shape. -/
def RecognizedShape.operandType : RecognizedShape → SemType
  | .pureInt _ => .usize
  | _ => .int 64

/-- The inputs of the parameters of a type. -/
def operands (contract : CheckedContract) (ty : SemType) (inputs : List Json) : List Json :=
  ((contract.parameters.zip inputs).filter (fun pair => pair.1.ty == ty)).map Prod.snd

/-- A case provides the parameters and nothing else, each in range, within the clauses on
literals, and its vector expects what the operation makes of the operands. -/
structure CaseRight (contract : CheckedContract) (case : ExternalVectorCase) (vector : TestVector) :
    Prop where
  provides : ∀ name, name ∈ case.inputs.entries.map Prod.fst ↔
    name ∈ contract.parameters.map CheckedParam.name
  inRange : ∀ param ∈ contract.parameters, ∃ value, case.inputs.get param.name = some value ∧
    InRange value param.ty
  clauses : MeetsClauses contract (orderedInputs contract case.inputs)
  expected : ∃ shape, recognizedShape contract = some shape ∧
    shape.reference (operands contract shape.operandType (orderedInputs contract case.inputs)) =
      some (vector.expected, [])

/-- Every accepted case of the contract is right. -/
def CasesRight (contract : CheckedContract) : Prop :=
  ∀ case vector, deriveExternalVector contract case = .ok vector → CaseRight contract case vector

/-- The least and the greatest operand that a shape is given. -/
def PureIntUnaryI64Op.range : PureIntUnaryI64Op → Int × Int
  | .sumRange => (0, 2 ^ 63 - 1)
  | .countdown => (-maxFixtureCap, maxFixtureCap)
  | _ => (-2 ^ 63, 2 ^ 63 - 1)

/-- The clauses on literals say no more than the range. -/
def ClausesAllow (contract : CheckedContract) (range : Int × Int) : Prop :=
  ∀ position comparison bound, Bound contract position comparison bound →
    comparison.FitsBetween range.1 range.2 bound

/-- The contract asks for no more than the derivation looks at. -/
def LookedAt (contract : CheckedContract) : Prop :=
  match pureIntShape contract, pureIntI64Shape contract, pureIntUnaryI64Shape contract with
  | some _, _, _ => contract.parameters.length = 2 ∧ ClausesAllow contract (0, 2 ^ 64 - 1)
  | none, some _, _ => ClausesAllow contract (-2 ^ 63, 2 ^ 63 - 1)
  | none, none, some op => op ≠ .sumRange ∧ ClausesAllow contract op.range
  | none, none, none => True

/-! ## Accepted cases with given inputs -/

/-- The parameters read their own inputs back. -/
theorem filterMap_lookup_zip (params : List CheckedParam) (values : List Json)
    (distinct : (params.map CheckedParam.name).Nodup) (length : values.length = params.length) :
    params.filterMap (fun param =>
      ((params.map CheckedParam.name).zip values).lookup param.name) = values := by
  induction params generalizing values with
  | nil => simpa using length
  | cons param params inductionHypothesis =>
    obtain ⟨value, values, rfl⟩ := List.exists_cons_of_length_eq_add_one length
    rw [List.map_cons, List.nodup_cons] at distinct
    have rest := inductionHypothesis values distinct.2 (by simpa using length)
    have later : ∀ other ∈ params,
        (((param :: params).map CheckedParam.name).zip (value :: values)).lookup other.name =
          ((params.map CheckedParam.name).zip values).lookup other.name := by
      intro other member
      have different : (other.name == param.name) = false := by
        rw [beq_eq_false_iff_ne]
        intro same
        exact distinct.1 (same ▸ List.mem_map_of_mem member)
      simp [List.lookup_cons, different]
    rw [List.filterMap_cons, List.filterMap_congr later, rest]
    simp

/-- The case that provides values in the order of the parameters. -/
def caseOf (contract : CheckedContract) (values : List Json)
    (distinct : (contract.parameters.map CheckedParam.name).Nodup)
    (length : values.length = contract.parameters.length) : ExternalVectorCase where
  id := "x"
  inputs := ⟨(contract.parameters.map CheckedParam.name).zip values, by
    rwa [List.map_fst_zip (by rw [List.length_map, length])]⟩

theorem orderedInputs_caseOf (contract : CheckedContract) (values : List Json)
    (distinct : (contract.parameters.map CheckedParam.name).Nodup)
    (length : values.length = contract.parameters.length) :
    orderedInputs contract (caseOf contract values distinct length).inputs = values :=
  filterMap_lookup_zip contract.parameters values distinct length

/-- Values with an expected result make an accepted case. -/
theorem derive_caseOf (contract : CheckedContract) (values : List Json) (expected : Json)
    (distinct : (contract.parameters.map CheckedParam.name).Nodup)
    (length : values.length = contract.parameters.length)
    (derived : externalExpected contract "x" values = .ok expected) :
    deriveExternalVector contract (caseOf contract values distinct length) =
      .ok ⟨"external:x", values, expected⟩ := by
  have shown : (Text.trim "x").isEmpty = false := by decide +kernel
  have ordered := orderedInputs_caseOf contract values distinct length
  have provided : ∀ param ∈ contract.parameters,
      ((caseOf contract values distinct length).inputs.get param.name).isSome := by
    have whole : (contract.parameters.filterMap (fun param =>
        (caseOf contract values distinct length).inputs.get param.name)).length =
          contract.parameters.length := by
      rw [← length]
      exact congrArg List.length ordered
    exact List.filterMap_length_eq_length.mp whole
  unfold deriveExternalVector
  rw [if_neg (by simpa [caseOf] using shown), if_neg]
  · unfold orderedInputs at ordered
    rw [ordered]
    simp only [caseOf, derived, Except.map]
    rfl
  · simp only [caseOf, List.length_zip, List.length_map, length, Nat.min_self, ne_eq,
      not_true_eq_false, false_or, List.any_eq_true, not_exists, not_and, Bool.not_eq_true]
    intro param member
    have there := provided param member
    simp only [caseOf] at there
    rw [Option.isNone_eq_false_iff]
    exact there

/-! ## What acceptance looks at -/

/-- Inputs that are all there are listed with their parameters. -/
theorem orderedInputs_related (contract : CheckedContract) (inputs : NamedInputs)
    (provided : ∀ param ∈ contract.parameters, (inputs.get param.name).isSome) :
    List.Forall₂ (fun param value => inputs.get param.name = some value)
      contract.parameters (orderedInputs contract inputs) := by
  unfold orderedInputs
  generalize contract.parameters = params at provided
  induction params with
  | nil => exact .nil
  | cons param params inductionHypothesis =>
    obtain ⟨value, there⟩ := Option.isSome_iff_exists.mp (provided param List.mem_cons_self)
    rw [List.filterMap_cons, there]
    exact .cons there (inductionHypothesis fun other member =>
      provided other (List.mem_cons_of_mem param member))

/-- An accepted case provides the parameters and nothing else. -/
theorem deriveExternalVector_provides (contract : CheckedContract) (case : ExternalVectorCase)
    (vector : TestVector) (derived : deriveExternalVector contract case = .ok vector) :
    case.inputs.entries.length = contract.parameters.length ∧
      ∀ param ∈ contract.parameters, (case.inputs.get param.name).isSome := by
  unfold deriveExternalVector at derived
  split at derived
  · cases derived
  · split at derived
    · cases derived
    · rename_i provided
      rw [not_or, not_ne_iff] at provided
      refine ⟨provided.1, fun param member => ?_⟩
      by_contra absent
      exact provided.2 (List.any_eq_true.mpr ⟨param, member, by simpa using absent⟩)

/-- As many names as parameters, with all of these among them, are the parameters. -/
theorem provides_iff (contract : CheckedContract) (inputs : NamedInputs)
    (distinct : (contract.parameters.map CheckedParam.name).Nodup)
    (length : inputs.entries.length = contract.parameters.length)
    (provided : ∀ param ∈ contract.parameters, (inputs.get param.name).isSome) (name : String) :
    name ∈ inputs.entries.map Prod.fst ↔ name ∈ contract.parameters.map CheckedParam.name := by
  have subset : contract.parameters.map CheckedParam.name ⊆ inputs.entries.map Prod.fst := by
    intro name member
    obtain ⟨param, listed, rfl⟩ := List.mem_map.mp member
    obtain ⟨value, there⟩ := Option.isSome_iff_exists.mp (provided param listed)
    obtain ⟨before, after, split, _⟩ := List.lookup_eq_some_iff.mp there
    simp [split]
  have permuted := (List.subperm_of_subset distinct subset).perm_of_length_le (by simp [length])
  exact (permuted.mem_iff).symm

/-- A number read as unsigned. -/
theorem asInt_of_asU64 {value : Json} {number : UInt64} (read : value.asU64 = some number) :
    value.asInt = some (number.toNat : Int) := by
  unfold Json.asU64 at read
  split at read
  · cases read
    rfl
  · cases read

/-- A number read as signed. -/
theorem asInt_of_asI64 {value : Json} {number : Int64} (read : value.asI64 = some number) :
    value.asInt = some number.toInt := by
  unfold Json.asI64 at read
  split at read
  · rename_i unsigned
    split at read
    · rename_i small
      cases read
      have same : unsigned.toInt64.toInt = unsigned.toBitVec.toInt := rfl
      have half : 2 * unsigned.toBitVec.toNat < 2 ^ 64 := by
        have := UInt64.toNat_toBitVec unsigned
        omega
      rw [same, BitVec.toInt_eq_toNat_of_lt half]
      rfl
    · cases read
  · cases read
    rfl
  · cases read

/-- The operands of a contract without other parameters are its inputs. -/
theorem operands_all (contract : CheckedContract) (ty : SemType) (inputs : List Json)
    (all : ∀ param ∈ contract.parameters, param.ty = ty)
    (length : inputs.length = contract.parameters.length) :
    operands contract ty inputs = inputs := by
  unfold operands
  rw [List.filter_eq_self.mpr, List.map_snd_zip (by omega)]
  intro pair member
  simp [all pair.1 (List.of_mem_zip member).1]

/-- Numbers in the range meet clauses that say no more. -/
theorem ClausesAllow.meets {contract : CheckedContract} {range : Int × Int}
    (allow : ClausesAllow contract range) (ordered : range.1 ≤ range.2) {inputs : List Json}
    (length : inputs.length = contract.parameters.length)
    (inside : ∀ input ∈ inputs, ∃ value, input.asInt = some value ∧
      range.1 ≤ value ∧ value ≤ range.2) : MeetsClauses contract inputs := by
  intro position comparison bound bounded
  obtain ⟨_, _, param, there, _⟩ := id bounded
  have short : position < inputs.length := by
    rw [length]
    exact (List.getElem?_eq_some_iff.mp there).1
  obtain ⟨value, read, above, below⟩ := inside inputs[position] (List.getElem_mem short)
  refine ⟨value, by rw [List.getElem?_eq_getElem short, Option.bind_some, read], ?_⟩
  exact (forall_holds_between_iff ordered comparison bound).mpr
    (allow position comparison bound bounded) value above below

/-- Clauses that all numbers in a range meet say no more than the range. -/
theorem clausesAllow_of_meets (contract : CheckedContract) (range : Int × Int)
    (ordered : range.1 ≤ range.2) (write : Int → Json)
    (read : ∀ value, range.1 ≤ value → value ≤ range.2 → (write value).asInt = some value)
    (meets : ∀ value, range.1 ≤ value → value ≤ range.2 →
      MeetsClauses contract (List.replicate contract.parameters.length (write value))) :
    ClausesAllow contract range := by
  intro position comparison bound bounded
  apply (forall_holds_between_iff ordered comparison bound).mp
  intro value above below
  obtain ⟨other, passed, holds⟩ := meets value above below position comparison bound bounded
  obtain ⟨_, _, param, there, _⟩ := bounded
  have short := (List.getElem?_eq_some_iff.mp there).1
  rw [List.getElem?_replicate_of_lt short, Option.bind_some, read value above below] at passed
  cases passed
  exact holds

/-! ## The shapes -/

/-- A contract without pointers is recognized by its scalar shape. -/
theorem recognizedShape_noPtr (contract : CheckedContract)
    (noPtr : ∀ param ∈ contract.parameters, param.ty.isPtr = false) :
    recognizedShape contract = ((pureIntShape contract).map .pureInt).or
      (((pureIntI64Shape contract).map .pureIntI64).or
        (((pureIntUnaryI64Shape contract).map .pureIntUnaryI64).or
          (if cellLoadShape contract then some .cellLoad
            else if cellStoreShape contract then some .cellStore else none))) := by
  have found : ∀ isConst, contract.parameters.find? (fun param => isPtrOf isConst param.ty) = none := by
    intro isConst
    apply List.find?_eq_none.mpr
    intro param member same
    have own := noPtr param member
    cases ty : param.ty <;> simp [ty, isPtrOf, SemType.isPtr] at own same
  have typed := paramsOf_ptr contract noPtr
  simp [recognizedShape, scanShape, replaceByteShape, memsetShape, memcpyShape, memcmpShape,
    i64SumShape, found, typed]

/-- All parameters have a type that as many have as there are. -/
theorem allTyped (contract : CheckedContract) (ty : SemType)
    (all : (paramsOf contract ty).length = contract.parameters.length) :
    ∀ param ∈ contract.parameters, param.ty = ty := by
  intro param member
  simpa using List.length_filter_eq_length_iff.mp all param member

/-- What makes an accepted case of a contract of operands right. -/
theorem caseRight_of_operands (contract : CheckedContract) (case : ExternalVectorCase)
    (vector : TestVector) (shape : RecognizedShape) (range : Int × Int)
    (distinct : (contract.parameters.map CheckedParam.name).Nodup)
    (derived : deriveExternalVector contract case = .ok vector)
    (recognized : recognizedShape contract = some shape)
    (typed : ∀ param ∈ contract.parameters, param.ty = shape.operandType)
    (allow : ClausesAllow contract range) (ordered : range.1 ≤ range.2)
    (inside : ∀ input ∈ vector.inputs, InRange input shape.operandType ∧
      ∃ value, input.asInt = some value ∧ range.1 ≤ value ∧ value ≤ range.2)
    (expected : shape.reference vector.inputs = some (vector.expected, [])) :
    CaseRight contract case vector := by
  obtain ⟨length, provided⟩ := deriveExternalVector_provides contract case vector derived
  obtain ⟨_, _, inputs, _⟩ := deriveExternalVector_ok contract case vector derived
  have related := orderedInputs_related contract case.inputs provided
  rw [inputs] at inside expected
  refine ⟨provides_iff contract case.inputs distinct length provided, ?_, ?_, ?_⟩
  · intro param member
    obtain ⟨value, there⟩ := Option.isSome_iff_exists.mp (provided param member)
    have listed : value ∈ orderedInputs contract case.inputs :=
      List.mem_filterMap.mpr ⟨param, member, there⟩
    exact ⟨value, there, typed param member ▸ (inside value listed).1⟩
  · exact allow.meets ordered related.length_eq.symm fun input member => (inside input member).2
  · refine ⟨shape, recognized, ?_⟩
    rw [operands_all contract _ _ typed related.length_eq.symm]
    exact expected

/-- Cases that are all right have clauses that allow the range of the operands. -/
theorem clausesAllow_of_casesRight (contract : CheckedContract) (range : Int × Int)
    (distinct : (contract.parameters.map CheckedParam.name).Nodup) (right : CasesRight contract)
    (ordered : range.1 ≤ range.2) (write : Int → Json)
    (read : ∀ value, range.1 ≤ value → value ≤ range.2 → (write value).asInt = some value)
    (accepted : ∀ value, range.1 ≤ value → value ≤ range.2 → ∃ expected,
      externalExpected contract "x"
        (List.replicate contract.parameters.length (write value)) = .ok expected) :
    ClausesAllow contract range := by
  apply clausesAllow_of_meets contract range ordered write read
  intro value above below
  obtain ⟨expected, derived⟩ := accepted value above below
  have length := List.length_replicate (n := contract.parameters.length) (a := write value)
  have case := right _ _ (derive_caseOf contract _ expected distinct length derived)
  have clauses := case.clauses
  rwa [orderedInputs_caseOf contract _ distinct length] at clauses

/-- The expected result of two unsigned operands. -/
theorem externalExpected_usize {contract : CheckedContract} {op : PureIntOp}
    (found : pureIntShape contract = some op) (caseId : String) {first second : CheckedParam}
    {others : List CheckedParam} (params : contract.parameters = first :: second :: others)
    (one two : Json) (rest : List Json) (expected : Json) :
    externalExpected contract caseId (one :: two :: rest) = .ok expected ↔
      ∃ a b, one.asU64 = some a ∧ two.asU64 = some b ∧ expected = .ofU64 (op.reduce a b) := by
  simp only [externalExpected, found, firstTwo, params, externalU64]
  cases readOne : one.asU64 <;> cases readTwo : two.asU64 <;>
    simp [bind, Except.bind, pure, Except.pure, readOne, readTwo, eq_comm]

/-- The expected result of two signed operands. -/
theorem externalExpected_i64 {contract : CheckedContract} {op : PureIntI64Op}
    (other : pureIntShape contract = none) (found : pureIntI64Shape contract = some op)
    (caseId : String) {first second : CheckedParam} {others : List CheckedParam}
    (params : contract.parameters = first :: second :: others)
    (one two : Json) (rest : List Json) (expected : Json) :
    externalExpected contract caseId (one :: two :: rest) = .ok expected ↔
      ∃ a b, one.asI64 = some a ∧ two.asI64 = some b ∧ expected = .ofI64 (op.reduce a b) := by
  simp only [externalExpected, other, found, firstTwo, params, externalI64]
  cases readOne : one.asI64 <;> cases readTwo : two.asI64 <;>
    simp [bind, Except.bind, pure, Except.pure, readOne, readTwo, eq_comm]

/-- Two unsigned operands: the cases are right when there is no other parameter and
the clauses allow every unsigned number. -/
theorem casesRight_usize_iff {contract : CheckedContract} {op : PureIntOp}
    (found : pureIntShape contract = some op)
    (distinct : (contract.parameters.map CheckedParam.name).Nodup) :
    CasesRight contract ↔
      contract.parameters.length = 2 ∧ ClausesAllow contract (0, 2 ^ 64 - 1) := by
  have typed := pureIntTypes_of_shape contract op found
  have two : (paramsOf contract .usize).length = 2 := by
    simp only [pureIntTypes, Bool.and_eq_true, beq_iff_eq] at typed
    exact typed.1.1
  have many : 2 ≤ contract.parameters.length := by
    rw [← two]
    exact List.length_filter_le _ _
  obtain ⟨first, others, shape⟩ := List.exists_cons_of_length_pos (by omega : 0 < contract.parameters.length)
  obtain ⟨second, others, rfl⟩ := List.exists_cons_of_length_pos
    (by rw [shape, List.length_cons] at many; omega : 0 < others.length)
  constructor
  · intro right
    have alone : others = [] := by
      by_contra more
      obtain ⟨third, others, rfl⟩ := List.exists_cons_of_ne_nil more
      have length : ([Json.ofU64 0, Json.ofU64 0, Json.null] ++
          List.replicate others.length Json.null).length = contract.parameters.length := by
        simp [shape]
      have accepted := (externalExpected_usize found "x" shape (.ofU64 0) (.ofU64 0)
        (.null :: List.replicate others.length .null) _).mpr ⟨0, 0, rfl, rfl, rfl⟩
      have case := right _ _ (derive_caseOf contract _ _ distinct length accepted)
      obtain ⟨value, there, inRange⟩ := case.inRange third (by simp [shape])
      have provided := (deriveExternalVector_provides contract _ _
        (derive_caseOf contract _ _ distinct length accepted)).2
      have related := orderedInputs_related contract _ provided
      rw [orderedInputs_caseOf, shape] at related
      simp only [List.cons_append, List.forall₂_cons] at related
      have nothing : value = .null := Option.some.inj (there.symm.trans related.2.2.1)
      rw [nothing] at inRange
      exact not_inRange_null third.ty inRange
    subst alone
    refine ⟨by simp [shape], ?_⟩
    apply clausesAllow_of_casesRight contract _ distinct right (by decide)
      (fun value => .ofU64 (UInt64.ofNat value.toNat))
    · intro value above below
      have small : value.toNat < 2 ^ 64 := by
        simp only at below
        omega
      rw [asInt_ofU64, UInt64.toNat_ofNat_of_lt' small, Int.toNat_of_nonneg above]
    · intro value _ _
      rw [shape]
      exact ⟨_, (externalExpected_usize found "x" shape _ _ _ _).mpr ⟨_, _, rfl, rfl, rfl⟩⟩
  · rintro ⟨length, allow⟩ case vector derived
    have alone : others = [] := by
      rw [shape] at length
      simpa using length
    subst alone
    have all := allTyped contract .usize (by rw [two, length])
    obtain ⟨_, _, inputs, expected⟩ := deriveExternalVector_ok contract case vector derived
    obtain ⟨_, provided⟩ := deriveExternalVector_provides contract case vector derived
    have related := (orderedInputs_related contract case.inputs provided).length_eq
    rw [← inputs, length] at related
    obtain ⟨one, two, same⟩ := List.length_eq_two.mp related.symm
    rw [same] at expected
    obtain ⟨a, b, readOne, readTwo, result⟩ :=
      (externalExpected_usize found case.id shape one two [] vector.expected).mp expected
    have noPtr := noPtr_of_scalar contract (.inl typed)
    have recognized : recognizedShape contract = some (.pureInt op) := by
      rw [recognizedShape_noPtr contract noPtr, found]
      rfl
    apply caseRight_of_operands contract case vector _ _ distinct derived recognized all allow
      (by decide)
    · rw [same]
      intro input member
      have unsigned : ∃ number, input.asU64 = some number := by
        rcases List.mem_cons.mp member with rfl | last
        · exact ⟨a, readOne⟩
        · exact ⟨b, List.mem_singleton.mp last ▸ readTwo⟩
      obtain ⟨number, read⟩ := unsigned
      have small := number.toNat_lt
      exact ⟨⟨number.toNat, asInt_of_asU64 read, by omega, by omega⟩,
        number.toNat, asInt_of_asU64 read, by simp, by simp only; omega⟩
    · rw [same, result, op.reduce_eq]
      simp [RecognizedShape.reference, readOne, readTwo]

/-- A signed number of a machine word is in range. -/
theorem inRange_of_asI64 {input : Json} {number : Int64} (read : input.asI64 = some number) :
    InRange input (.int 64) ∧ ∃ value, input.asInt = some value ∧
      (-2 ^ 63 : Int) ≤ value ∧ value ≤ 2 ^ 63 - 1 := by
  have above := number.le_toInt
  have below := number.toInt_lt
  have bits : (64 : UInt16).toNat - 1 = 63 := by decide
  refine ⟨⟨number.toInt, asInt_of_asI64 read, ?_, ?_⟩, number.toInt, asInt_of_asI64 read,
    above, by omega⟩
  · rw [bits]
    exact above
  · rw [bits]
    exact below

/-- A number of the signed range is written and read as a machine word. -/
theorem asInt_ofInt {value : Int} (above : (-2 ^ 63 : Int) ≤ value) (below : value ≤ 2 ^ 63 - 1) :
    (Json.ofI64 (Int64.ofInt value)).asInt = some value := by
  rw [asInt_ofI64, Int64.toInt_ofInt_of_le above (by omega)]

/-- Two signed operands: the cases are right when the clauses allow every signed
number. -/
theorem casesRight_i64_iff {contract : CheckedContract} {op : PureIntI64Op}
    (other : pureIntShape contract = none) (found : pureIntI64Shape contract = some op)
    (distinct : (contract.parameters.map CheckedParam.name).Nodup) :
    CasesRight contract ↔ ClausesAllow contract (-2 ^ 63, 2 ^ 63 - 1) := by
  have typed := pureIntI64Types_of_shape contract op found
  have two : contract.parameters.length = 2 ∧ (paramsOf contract (.int 64)).length = 2 := by
    simp only [pureIntI64Types, Bool.and_eq_true, beq_iff_eq] at typed
    exact typed.1
  obtain ⟨first, second, shape⟩ := List.length_eq_two.mp two.1
  constructor
  · intro right
    apply clausesAllow_of_casesRight contract _ distinct right (by decide)
      (fun value => .ofI64 (Int64.ofInt value))
    · intro value above below
      exact asInt_ofInt above below
    · intro value _ _
      rw [shape]
      exact ⟨_, (externalExpected_i64 other found "x" shape _ _ _ _).mpr
        ⟨_, _, asI64_ofI64 _, asI64_ofI64 _, rfl⟩⟩
  · intro allow case vector derived
    have all := allTyped contract (.int 64) (by rw [two.1, two.2])
    obtain ⟨_, _, inputs, expected⟩ := deriveExternalVector_ok contract case vector derived
    obtain ⟨_, provided⟩ := deriveExternalVector_provides contract case vector derived
    have related := (orderedInputs_related contract case.inputs provided).length_eq
    rw [← inputs, two.1] at related
    obtain ⟨one, two, same⟩ := List.length_eq_two.mp related.symm
    rw [same] at expected
    obtain ⟨a, b, readOne, readTwo, result⟩ :=
      (externalExpected_i64 other found case.id shape one two [] vector.expected).mp expected
    have noPtr := noPtr_of_scalar contract (.inr (.inl typed))
    have recognized : recognizedShape contract = some (.pureIntI64 op) := by
      rw [recognizedShape_noPtr contract noPtr, other, found]
      rfl
    apply caseRight_of_operands contract case vector _ _ distinct derived recognized all allow
      (by decide)
    · rw [same]
      intro input member
      rcases List.mem_cons.mp member with rfl | last
      · exact inRange_of_asI64 readOne
      · exact inRange_of_asI64 (List.mem_singleton.mp last ▸ readTwo)
    · rw [same, result, op.reduce_eq]
      simp [RecognizedShape.reference, readOne, readTwo]

/-- A unary operation has a result on the operands in its range. -/
theorem expectedUnary_ok (caseId : String) (op : PureIntUnaryI64Op) (x : Int64) (expected : Json) :
    expectedUnary caseId op x = .ok expected ↔
      op.range.1 ≤ x.toInt ∧ x.toInt ≤ op.range.2 ∧ expected = .ofI64 (op.reduce x) := by
  have above : (-2 ^ 63 : Int) ≤ x.toInt := x.le_toInt
  have below : x.toInt ≤ 2 ^ 63 - 1 := by
    have := x.toInt_lt
    omega
  have negative : x < 0 ↔ x.toInt < 0 := Int64.lt_iff_toInt_lt
  unfold expectedUnary
  cases op with
  | sumRange =>
    simp only [true_and, negative, reduceCtorEq, false_and, if_false, PureIntUnaryI64Op.range]
    by_cases nonNegative : x.toInt < 0
    · simp [nonNegative]
    · simp only [if_neg nonNegative, Except.ok.injEq, eq_comm]
      exact ⟨fun same => ⟨by omega, below, same⟩, fun kept => kept.2.2⟩
  | countdown =>
    simp only [reduceCtorEq, false_and, if_false, true_and, PureIntUnaryI64Op.range]
    by_cases large : maxFixtureCap < x.toInt.natAbs
    · simp only [if_pos large, reduceCtorEq, false_iff]
      omega
    · simp only [if_neg large, Except.ok.injEq, eq_comm]
      exact ⟨fun same => ⟨by omega, by omega, same⟩, fun kept => kept.2.2⟩
  | _ =>
    simp only [reduceCtorEq, false_and, if_false, Except.ok.injEq, PureIntUnaryI64Op.range, eq_comm]
    exact ⟨fun same => ⟨above, below, same⟩, fun kept => kept.2.2⟩

/-- The expected result of one signed operand within the range of the operation. -/
theorem externalExpected_unary {contract : CheckedContract} {op : PureIntUnaryI64Op}
    (unsigned : pureIntShape contract = none) (signed : pureIntI64Shape contract = none)
    (found : pureIntUnaryI64Shape contract = some op) (caseId : String) {param : CheckedParam}
    (params : contract.parameters = [param]) (one expected : Json) :
    externalExpected contract caseId [one] = .ok expected ↔
      ∃ x, one.asI64 = some x ∧ op.range.1 ≤ x.toInt ∧ x.toInt ≤ op.range.2 ∧
        expected = .ofI64 (op.reduce x) := by
  simp only [externalExpected, unsigned, signed, found, firstOne, params, externalI64]
  cases read : one.asI64 with
  | none => simp [bind, Except.bind, read]
  | some x =>
    simp only [bind, Except.bind, read, expectedUnary_ok, Option.some.injEq]
    exact ⟨fun kept => ⟨x, rfl, kept⟩, fun ⟨y, same, kept⟩ => same ▸ kept⟩

/-- Every unary operation but the sum of a range gives its result modulo the machine
word. -/
theorem PureIntUnaryI64Op.reduce_ofInt {op : PureIntUnaryI64Op} (closed : op ≠ .sumRange)
    (x : Int64) : op.reduce x = Int64.ofInt (op.meaning x.toInt) := by
  cases op with
  | sumRange => exact absurd rfl closed
  | identity => exact (Int64.ofInt_toInt x).symm
  | countdown => exact (Int64.ofInt_toInt x).symm
  | abs =>
    have negative : x < 0 ↔ x.toInt < 0 := Int64.lt_iff_toInt_lt
    simp only [PureIntUnaryI64Op.reduce, PureIntUnaryI64Op.meaning, negative]
    split
    next below =>
      have absolute : (x.toInt.natAbs : Int) = -x.toInt := by omega
      rw [absolute, Int64.ofInt_neg, Int64.ofInt_toInt]
    next above =>
      have absolute : (x.toInt.natAbs : Int) = x.toInt := by omega
      rw [absolute, Int64.ofInt_toInt]
  | double =>
    have two : Int64.ofInt 2 = 2 := rfl
    simp [PureIntUnaryI64Op.reduce, PureIntUnaryI64Op.meaning, two, Int64.mul_comm]
  | inc =>
    have one : Int64.ofInt 1 = 1 := rfl
    simp [PureIntUnaryI64Op.reduce, PureIntUnaryI64Op.meaning, one]
  | addBase100 =>
    have hundred : Int64.ofInt 100 = 100 := rfl
    simp [PureIntUnaryI64Op.reduce, PureIntUnaryI64Op.meaning, hundred]

/-- The sum of a range in closed form. -/
theorem sum_range_twice (count : Nat) :
    2 * ((List.range (count + 1)).map Int.ofNat).sum = count * (count + 1) := by
  induction count with
  | zero => rfl
  | succ count inductionHypothesis =>
    rw [List.range_succ, List.map_append, List.sum_append, Int.mul_add, inductionHypothesis]
    simp only [List.map_cons, List.map_nil, List.sum_cons, List.sum_nil, Int.ofNat_eq_natCast]
    push_cast
    ring

/-- The closed form goes wrong for the operand 2 ^ 32. -/
theorem sumRange_wraps : PureIntUnaryI64Op.sumRange.reduce (Int64.ofInt (2 ^ 32)) ≠
    Int64.ofInt (PureIntUnaryI64Op.sumRange.meaning (2 ^ 32)) := by
  have count : ((2 : Int) ^ 32).toNat = 2 ^ 32 := by decide
  have twice := sum_range_twice (2 ^ 32)
  simp only [PureIntUnaryI64Op.meaning, count]
  generalize ((List.range (2 ^ 32 + 1)).map Int.ofNat).sum = total at twice ⊢
  have sum : total = 2 ^ 63 + 2 ^ 31 := by
    push_cast at twice
    omega
  rw [sum]
  decide

/-- One signed operand: the cases are right when the operation is not the sum of a
range and the clauses allow the range of the operation. -/
theorem casesRight_unary_iff {contract : CheckedContract} {op : PureIntUnaryI64Op}
    (unsigned : pureIntShape contract = none) (signed : pureIntI64Shape contract = none)
    (found : pureIntUnaryI64Shape contract = some op)
    (distinct : (contract.parameters.map CheckedParam.name).Nodup) :
    CasesRight contract ↔ op ≠ .sumRange ∧ ClausesAllow contract op.range := by
  have typed := pureIntUnaryI64Types_of_shape contract op found
  have one : contract.parameters.length = 1 ∧ (paramsOf contract (.int 64)).length = 1 := by
    simp only [pureIntUnaryI64Types, Bool.and_eq_true, beq_iff_eq] at typed
    exact typed.1
  obtain ⟨param, shape⟩ := List.length_eq_one_iff.mp one.1
  have noPtr := noPtr_of_scalar contract (.inr (.inr typed))
  have recognized : recognizedShape contract = some (.pureIntUnaryI64 op) := by
    rw [recognizedShape_noPtr contract noPtr, unsigned, signed, found]
    rfl
  have all := allTyped contract (.int 64) (by rw [one.1, one.2])
  have expects := externalExpected_unary unsigned signed found
  have word : (-2 ^ 63 : Int) ≤ op.range.1 ∧ op.range.2 ≤ 2 ^ 63 - 1 ∧ op.range.1 ≤ op.range.2 := by
    cases op <;> decide
  constructor
  · intro right
    refine ⟨?_, ?_⟩
    · rintro rfl
      have length : [Json.ofI64 (Int64.ofInt (2 ^ 32))].length = contract.parameters.length := by
        rw [one.1]
        rfl
      have accepted := (expects "x" shape (.ofI64 (Int64.ofInt (2 ^ 32))) _).mpr
        ⟨Int64.ofInt (2 ^ 32), asI64_ofI64 _, by decide, by decide, rfl⟩
      have case := right _ _ (derive_caseOf contract _ _ distinct length accepted)
      obtain ⟨other, same, reference⟩ := case.expected
      rw [recognized] at same
      cases same
      rw [orderedInputs_caseOf contract _ distinct length,
        operands_all contract (RecognizedShape.pureIntUnaryI64 .sumRange).operandType _ all
          length] at reference
      simp only [RecognizedShape.reference, asI64_ofI64, Option.bind_eq_bind, Option.bind_some,
        Option.some.injEq, Prod.mk.injEq, and_true] at reference
      have results := congrArg Json.asI64 reference
      rw [asI64_ofI64, asI64_ofI64] at results
      exact sumRange_wraps (Option.some.inj results).symm
    · apply clausesAllow_of_casesRight contract _ distinct right word.2.2
        (fun value => .ofI64 (Int64.ofInt value))
      · intro value above below
        exact asInt_ofInt (by omega) (by omega)
      · intro value above below
        rw [shape]
        refine ⟨_, (expects "x" shape _ _).mpr ⟨_, asI64_ofI64 _, ?_, ?_, rfl⟩⟩
        · rwa [Int64.toInt_ofInt_of_le (by omega) (by omega)]
        · rwa [Int64.toInt_ofInt_of_le (by omega) (by omega)]
  · rintro ⟨closed, allow⟩ case vector derived
    obtain ⟨_, _, inputs, expected⟩ := deriveExternalVector_ok contract case vector derived
    obtain ⟨_, provided⟩ := deriveExternalVector_provides contract case vector derived
    have related := (orderedInputs_related contract case.inputs provided).length_eq
    rw [← inputs, one.1] at related
    obtain ⟨input, same⟩ := List.length_eq_one_iff.mp related.symm
    rw [same] at expected
    obtain ⟨x, read, above, below, result⟩ := (expects case.id shape input _).mp expected
    apply caseRight_of_operands contract case vector _ _ distinct derived recognized all allow
      word.2.2
    · rw [same]
      intro other member
      rw [List.mem_singleton.mp member]
      exact ⟨(inRange_of_asI64 read).1, x.toInt, asInt_of_asI64 read, above, below⟩
    · rw [same, result, PureIntUnaryI64Op.reduce_ofInt closed]
      simp [RecognizedShape.reference, read]

/-- Every accepted case of a checked contract is admissible and rightly expected
exactly when the contract asks for no more than the derivation looks at.

Proof: shape by shape. A parameter beside the operands may be given anything; a clause
that excludes some number of the admitted range is broken by the case that gives this
number to every operand. -/
theorem external_cases_right_iff (doc : ContractDocument) (contract : CheckedContract)
    (checked : (validateDocument doc).contract = some contract) :
    CasesRight contract ↔ LookedAt contract := by
  have distinct := (validateDocument_accepts checked).parametersDistinct
  unfold LookedAt
  cases unsigned : pureIntShape contract with
  | some op => exact casesRight_usize_iff unsigned distinct
  | none =>
    cases signed : pureIntI64Shape contract with
    | some op => exact casesRight_i64_iff unsigned signed distinct
    | none =>
      cases unary : pureIntUnaryI64Shape contract with
      | some op => exact casesRight_unary_iff unsigned signed unary distinct
      | none =>
        refine iff_of_true (fun case vector derived => ?_) trivial
        have expected := (deriveExternalVector_ok contract case vector derived).2.2.2
        have scalar := externalExpected_scalar contract case.id vector.inputs vector.expected expected
        simp [unsigned, signed, unary] at scalar

/-- The least of two sizes, under some preconditions. -/
def minDocument (requires : List String) : ContractDocument :=
  ⟨"0.1", {
    name := "min_pair"
    parameters := [⟨"a", "usize", none⟩, ⟨"b", "usize", none⟩]
    returns := [⟨"result", "usize"⟩]
    requires := requires
    ensures := []
    effects := []
    memory := none
    targetOverrides := ["x86_64-linux-gnu"] }⟩

/-- A size above the bound of the contract is accepted. -/
theorem bounded_size_is_ignored : ¬ ∀ doc contract,
    (validateDocument doc).contract = some contract → CasesRight contract := by
  intro claimed
  have read : (validateDocument (minDocument ["a <= 10"])).contract.map (fun contract =>
      (pureIntShape contract, contract.parameters,
        contract.requires.map fun condition => literalClause "a" condition.expr)) =
      some (some .min, [⟨"a", .usize, none⟩, ⟨"b", .usize, none⟩], [some (.le, 10)]) := by
    decide +kernel
  obtain ⟨contract, checked, facts⟩ := Option.map_eq_some_iff.mp read
  simp only [Prod.mk.injEq] at facts
  obtain ⟨shape, params, clauses⟩ := facts
  have right := claimed _ contract checked
  have distinct := (validateDocument_accepts checked).parametersDistinct
  have allow := ((casesRight_usize_iff shape distinct).mp right).2
  obtain ⟨condition, member, clause⟩ := List.mem_map.mp
    (clauses ▸ List.mem_cons_self : some (Comparison.le, (10 : Int)) ∈ _)
  have tooLow := allow 0 .le 10 ⟨condition, member, ⟨"a", .usize, none⟩, by rw [params]; rfl, rfl, clause⟩
  simp [Comparison.FitsBetween] at tooLow

/-- Without preconditions every accepted pair of sizes is right. -/
theorem min_pair_cases : ∃ contract,
    (validateDocument (minDocument [])).contract = some contract ∧
      (CasesRight contract ↔ LookedAt contract) := by
  have accepted : (validateDocument (minDocument [])).contract.isSome = true := by decide +kernel
  obtain ⟨contract, same⟩ := Option.isSome_iff_exists.mp accepted
  exact ⟨contract, same, external_cases_right_iff (minDocument []) contract same⟩

end Semasm.Agent.Harness
