import Semasm.Agent.Harness.Preconditions

/-!
# Vectors inside the preconditions

The vectors of a recognized contract stay inside its preconditions exactly when each
clause fits the numbers of the shape and null is allowed where the shape passes it. The
bounds of the contract only lower the fixture length: the other lengths are fixed, and most
shapes pass null for the empty input without asking.
-/

namespace Semasm.Agent.Harness

open Contract

/-- The contract allows null at one position when the length at the other is zero. -/
def AllowsNull (contract : CheckedContract) (pointer length : Nat) : Prop :=
  ∃ buffer, contract.parameters[pointer]? = some buffer ∧
    ∃ size, contract.parameters[length]? = some size ∧
      allowsNullWhenEmpty contract buffer.name size.name = true

/-- The length follows the buffers. -/
def lengthPosition (inputs : List Json) : Nat := inputs.findIdx (fun input => !input.isBuffer)

/-- A null is passed with a zero length, and where the contract allows it. -/
def NullAllowed (contract : CheckedContract) (inputs : List Json) : Prop :=
  ∀ position, inputs[position]? = some .null →
    inputs[lengthPosition inputs]? = some (.ofU64 0) ∧
      AllowsNull contract position (lengthPosition inputs)

/-- The vectors of a contract respect its preconditions. -/
def VectorsRespect (contract : CheckedContract) : Prop :=
  ∀ vector ∈ synthesizeVectors contract,
    MeetsClauses contract vector.inputs ∧ NullAllowed contract vector.inputs

/-- Null is allowed where the vectors of a shape pass it. -/
def NullsFit (contract : CheckedContract) : RecognizedShape → Prop
  | .scan _ | .replaceByte _ | .memset _ | .i64Sum _ => AllowsNull contract 0 1
  | .memcpy _ => AllowsNull contract 0 2 ∧ AllowsNull contract 1 2
  | .memcmp shape => shape.allowsNull = true → AllowsNull contract 0 2 ∧ AllowsNull contract 1 2
  | .pureInt _ | .pureIntI64 _ | .pureIntUnaryI64 _ | .cellLoad | .cellStore => True

/-- The preconditions of a contract fit the vectors of its shape. -/
def PreconditionsFit (contract : CheckedContract) : Prop :=
  match recognizedShape contract with
  | some shape => ClausesFit contract shape.columns ∧ NullsFit contract shape
  | none => True

/-! ## Null inputs -/

/-- Inputs without a null ask for nothing. -/
theorem nullAllowed_of_absent (contract : CheckedContract) (inputs : List Json)
    (absent : Json.null ∉ inputs) : NullAllowed contract inputs :=
  fun _ found => absurd (List.mem_of_getElem? found) absent

/-- A null buffer before a zero length and further numbers. -/
theorem nullAllowed_buffer (contract : CheckedContract) (numbers : List Json)
    (noNull : Json.null ∉ numbers) :
    NullAllowed contract (.null :: .ofU64 0 :: numbers) ↔ AllowsNull contract 0 1 := by
  constructor
  · intro allowed
    exact (allowed 0 rfl).2
  · intro allows position found
    match position with
    | 0 => exact ⟨rfl, allows⟩
    | 1 => cases found
    | position + 2 =>
      have among : numbers[position]? = some .null := found
      exact absurd (List.mem_of_getElem? among) noNull

/-- Two null buffers before a zero length. -/
theorem nullAllowed_buffers (contract : CheckedContract) :
    NullAllowed contract [.null, .null, .ofU64 0] ↔
      AllowsNull contract 0 2 ∧ AllowsNull contract 1 2 := by
  constructor
  · intro allowed
    exact ⟨(allowed 0 rfl).2, (allowed 1 rfl).2⟩
  · rintro ⟨first, second⟩ position found
    match position with
    | 0 => exact ⟨rfl, first⟩
    | 1 => exact ⟨rfl, second⟩
    | 2 => cases found
    | position + 3 => cases found

@[simp] theorem bytesJson_ne_null (bytes : List UInt8) : Json.null ≠ bytesJson bytes := nofun

@[simp] theorem wordsJson_ne_null (words : List Int64) : Json.null ≠ wordsJson words := nofun

@[simp] theorem byteJson_ne_null (byte : UInt8) : Json.null ≠ byteJson byte := nofun

@[simp] theorem ofU64_ne_null (value : UInt64) : Json.null ≠ .ofU64 value := nofun

@[simp] theorem ofI64_ne_null (value : Int64) : Json.null ≠ .ofI64 value := by
  unfold Json.ofI64
  split <;> nofun

/-- A scan asks for null as soon as its first vector does. -/
theorem nullAllowed_scan_iff (contract : CheckedContract) (shape : ScanShape) (rest : List TestVector)
    (others : ∀ vector ∈ rest, Json.null ∉ vector.inputs) (name : String) (expected : UInt64) :
    (∀ vector ∈ scanVector shape.needle name .null 0 expected :: rest ++ nullScanVector shape,
      NullAllowed contract vector.inputs) ↔ AllowsNull contract 0 1 := by
  have asked := nullAllowed_buffer contract [byteJson shape.needle] (by simp)
  constructor
  · intro all
    exact asked.mp (all _ List.mem_cons_self)
  · intro allows vector member
    rcases List.mem_append.mp member with listed | extra
    · rcases List.mem_cons.mp listed with rfl | other
      · exact asked.mpr allows
      · exact nullAllowed_of_absent contract vector.inputs (others vector other)
    · unfold nullScanVector at extra
      split at extra
      · rw [List.mem_singleton.mp extra]
        exact asked.mpr allows
      · cases extra

/-- Vectors of which only the first has a null. -/
theorem nullAllowed_first_iff (contract : CheckedContract) (first : TestVector)
    (rest : List TestVector) (others : ∀ vector ∈ rest, Json.null ∉ vector.inputs) :
    (∀ vector ∈ first :: rest, NullAllowed contract vector.inputs) ↔
      NullAllowed contract first.inputs := by
  rw [List.forall_mem_cons]
  exact and_iff_left (fun vector member =>
    nullAllowed_of_absent contract vector.inputs (others vector member))

/-- Vectors without a null. -/
theorem nullAllowed_all (contract : CheckedContract) (vectors : List TestVector)
    (none : ∀ vector ∈ vectors, Json.null ∉ vector.inputs) :
    ∀ vector ∈ vectors, NullAllowed contract vector.inputs :=
  fun vector member => nullAllowed_of_absent contract vector.inputs (none vector member)

/-- The nulls of a shape are allowed exactly when they fit.

Proof: the templates list their buffers, so which vectors pass null is read off them. -/
theorem nullAllowed_iff (contract : CheckedContract) (shape : RecognizedShape)
    (recognized : recognizedShape contract = some shape) :
    (∀ vector ∈ synthesizeVectors contract, NullAllowed contract vector.inputs) ↔
      NullsFit contract shape := by
  unfold synthesizeVectors
  rw [recognized]
  cases shape with
  | scan shape =>
    dsimp only
    cases shape.op with
    | count => exact nullAllowed_scan_iff contract shape _ (by simp) _ _
    | findFirst => exact nullAllowed_scan_iff contract shape _ (by simp) _ _
    | findLast => exact nullAllowed_scan_iff contract shape _ (by simp) _ _
  | replaceByte shape =>
    refine (nullAllowed_first_iff contract _ _ ?_).trans
      (nullAllowed_buffer contract [byteJson shape.needle, byteJson shape.replacement] (by simp))
    by_cases same : shape.needle = shape.replacement <;> simp [same]
  | memset shape =>
    exact (nullAllowed_first_iff contract _ _ (by simp)).trans
      (nullAllowed_buffer contract [byteJson shape.value] (by simp))
  | memcpy shape =>
    exact (nullAllowed_first_iff contract _ _ (by simp)).trans (nullAllowed_buffers contract)
  | memcmp shape =>
    dsimp only
    unfold synthesizeMemcmpVectors NullsFit
    rw [List.forall_mem_append]
    refine (and_iff_right (nullAllowed_all contract _ (by simp))).trans ?_
    by_cases allows : shape.allowsNull = true <;> simp [allows, nullAllowed_buffers]
  | i64Sum shape =>
    have asked := nullAllowed_buffer contract [] (by simp)
    dsimp only
    unfold synthesizeI64SumVectors NullsFit
    rw [List.forall_mem_append, nullAllowed_first_iff contract _ _ (by simp), sumVector_inputs, asked]
    refine and_iff_left_of_imp fun allows => ?_
    by_cases allowed : shape.allowsNullWhenEmpty = true <;> simp [allowed, asked, allows]
  | pureInt op =>
    exact iff_of_true (nullAllowed_all contract _ (by simp [synthesizePureIntVectors])) trivial
  | pureIntI64 op =>
    exact iff_of_true (nullAllowed_all contract _ (by simp [synthesizePureIntI64Vectors])) trivial
  | pureIntUnaryI64 op =>
    refine iff_of_true (nullAllowed_all contract _ ?_) trivial
    intro vector member
    obtain ⟨⟨name, x⟩, _, rfl⟩ := List.mem_map.mp member
    simp
  | cellLoad =>
    exact iff_of_true (nullAllowed_all contract _ (by simp [synthesizeCellLoadVectors])) trivial
  | cellStore =>
    exact iff_of_true (nullAllowed_all contract _ (by simp [synthesizeCellStoreVectors])) trivial

/-- The columns of a recognized contract describe its vectors. -/
theorem columns_describe (contract : CheckedContract) (shape : RecognizedShape)
    (recognized : recognizedShape contract = some shape) :
    shape.columns.Describe (synthesizeVectors contract) := by
  unfold synthesizeVectors
  rw [recognized]
  cases shape with
  | scan shape =>
    dsimp only
    cases shape.op with
    | count => exact describe_count shape
    | findFirst => exact describe_findFirst shape
    | findLast => exact describe_findLast shape
  | replaceByte shape => exact describe_replaceByte shape
  | memset shape => exact describe_memset shape
  | memcpy shape => exact describe_memcpy shape
  | memcmp shape => exact describe_memcmp shape
  | i64Sum shape => exact describe_sum shape
  | pureInt op => exact describe_pureInt op
  | pureIntI64 op => exact describe_pureIntI64 op
  | pureIntUnaryI64 op => exact describe_pureIntUnaryI64 op
  | cellLoad => exact describe_cellLoad
  | cellStore => exact describe_cellStore

/-- The vectors respect the preconditions exactly when the preconditions fit them.

Proof: clauses and nulls apart; a clause is about one position, whose numbers the column
of the shape lists, and it holds of all of them when it holds of the extremes. -/
theorem vectorsRespect_iff (contract : CheckedContract) :
    VectorsRespect contract ↔ PreconditionsFit contract := by
  have apart : VectorsRespect contract ↔
      (∀ vector ∈ synthesizeVectors contract, MeetsClauses contract vector.inputs) ∧
        ∀ vector ∈ synthesizeVectors contract, NullAllowed contract vector.inputs :=
    forall₂_and
  rw [apart]
  unfold PreconditionsFit
  cases recognized : recognizedShape contract with
  | none => simp [synthesizeVectors, recognized]
  | some shape =>
    exact and_congr
      (meetsClauses_iff contract _ _ (columns_describe contract shape recognized))
      (nullAllowed_iff contract shape recognized)

/-! ## What the bounds reach -/

/-- The least bound found so far, after one more condition. -/
def leastBound (name : String) (best : Option UInt64) (condition : CheckedCondition) : Option UInt64 :=
  match lengthBoundFromExpr name condition.expr, best with
  | some bound, some existing => some (if bound < existing then bound else existing)
  | some bound, none => some bound
  | none, best => best

/-- One more condition leaves a bound no greater than the one before and its own. -/
theorem leastBound_le (name : String) (best : Option UInt64) (condition : CheckedCondition)
    (bound : UInt64) (known : best = some bound ∨ lengthBoundFromExpr name condition.expr = some bound) :
    ∃ least, leastBound name best condition = some least ∧ least ≤ bound := by
  unfold leastBound
  rcases known with rfl | found
  · cases lengthBoundFromExpr name condition.expr with
    | none => exact ⟨bound, rfl, UInt64.le_refl bound⟩
    | some other =>
      refine ⟨_, rfl, ?_⟩
      split
      next less => exact UInt64.le_of_lt less
      next => exact UInt64.le_refl bound
  · rw [found]
    cases best with
    | none => exact ⟨bound, rfl, UInt64.le_refl bound⟩
    | some existing =>
      refine ⟨_, rfl, ?_⟩
      split
      next => exact UInt64.le_refl bound
      next notLess => exact UInt64.not_lt.mp notLess

/-- A bound found once is kept or lowered. -/
theorem foldl_leastBound_le (name : String) (conditions : List CheckedCondition) (best : Option UInt64)
    (bound : UInt64) (known : ∃ least, best = some least ∧ least ≤ bound) :
    ∃ least, conditions.foldl (leastBound name) best = some least ∧ least ≤ bound := by
  induction conditions generalizing best with
  | nil => exact known
  | cons condition rest inductionHypothesis =>
    obtain ⟨before, held, below⟩ := known
    obtain ⟨least, next, lower⟩ := leastBound_le name best condition before (.inl held)
    exact inductionHypothesis _ ⟨least, next, UInt64.le_trans lower below⟩

/-- The bound read off a contract is at most that of any of its conditions. -/
theorem lengthBoundFromRequires_le (contract : CheckedContract) (name : String) (condition : CheckedCondition)
    (member : condition ∈ contract.requires) (bound : UInt64)
    (found : lengthBoundFromExpr name condition.expr = some bound) :
    ∃ least, lengthBoundFromRequires contract name = some least ∧ least ≤ bound := by
  obtain ⟨before, after, split⟩ := List.append_of_mem member
  have folded : lengthBoundFromRequires contract name =
      contract.requires.foldl (leastBound name) none := rfl
  rw [folded, split, List.foldl_append, List.foldl_cons]
  exact foldl_leastBound_le name after _ bound (leastBound_le name _ condition bound (.inr found))

/-- The fixture length stays within every upper bound on the length that is not zero. -/
theorem fixtureLength_le_bound (contract : CheckedContract) (name : String) (condition : CheckedCondition)
    (member : condition ∈ contract.requires) (bound : UInt64)
    (found : lengthBoundFromExpr name condition.expr = some bound) :
    fixtureLength (lengthBoundFromRequires contract name) ≤ max 1 bound.toNat := by
  obtain ⟨least, known, below⟩ := lengthBoundFromRequires_le contract name condition member bound found
  have lower := UInt64.le_iff_toNat_le.mp below
  rw [known]
  simp only [fixtureLength, Option.elim]
  omega

/-! ## Fixed lengths above a bound -/

/-- A count over at most two bytes. -/
def countPair : CheckedContract where
  name := "count_byte"
  parameters := [⟨"ptr", .ptr (.uint 8) true, none⟩, ⟨"length", .usize, none⟩,
    ⟨"needle", .uint 8, none⟩]
  returns := [⟨"result", .usize⟩]
  requires := [⟨.binary .le (.ident "length" ⟨0, 6⟩) (.int 2 ⟨10, 11⟩) ⟨0, 11⟩, "length <= 2"⟩]
  ensures := []
  effects := [⟨"memory_read", some "ptr[0..length]", none⟩]
  memory := none

/-- Three bytes are passed where the contract allows two. -/
theorem three_bytes_are_passed : ¬ VectorsRespect countPair := by
  intro respect
  have recognized : recognizedShape countPair = some (.scan ⟨.count, 65, some 2, true⟩) := by
    decide +kernel
  have made : synthesizeVectors countPair =
      synthesizeBufferScanVectors ⟨.count, 65, some 2, true⟩ := by
    rw [synthesizeVectors, recognized]
  have listed : scanVector 65 "no match" (bytesJson (nonNeedleBytes 65)) 3 0 ∈
      synthesizeVectors countPair := by
    rw [made]
    simp [synthesizeBufferScanVectors]
  have bounded : Bound countPair 1 .le 2 :=
    ⟨_, List.mem_cons_self, _, rfl, rfl, by decide +kernel⟩
  obtain ⟨value, passed, holds⟩ := (respect _ listed).1 1 .le 2 bounded
  rw [scanVector_inputs, List.getElem?_cons_succ, List.getElem?_cons_zero, Option.bind_some,
    asInt_ofU64] at passed
  cases passed
  have tooLong : ¬ ((3 : Int) ≤ 2) := by decide
  exact tooLong holds

end Semasm.Agent.Harness
