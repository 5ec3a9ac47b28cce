import Mathlib.Data.List.Forall2
import Semasm.Agent.Harness.Preconditions
import Semasm.Agent.Harness.ShapeAgreement

/-!
# Inputs in the order of the parameters

A shape passes its inputs in the order of its documented signature, but is recognized by
searching the parameters by type, and the cells by a word of the name. The inputs belong to
the parameters exactly when the parameters stand in the order of the signature.
-/

namespace Semasm.Agent.Harness

open Contract

/-- What a harness passes at a position. -/
inductive Role where
  | source | target | words | size | byte | signed
deriving DecidableEq, Repr

/-- The input is of the kind that the role needs. -/
def Role.Holds (input : Json) : Role → Prop
  | .source | .target => (elementsOf byteOf input).isSome = true
  | .words => (elementsOf Json.asI64 input).isSome = true
  | .size => input.asU64.isSome = true
  | .byte => (byteOf input).isSome = true
  | .signed => input.asI64.isSome = true

/-- A parameter of the type can take the role. Only the buffer that is written needs a
pointer to mutable bytes. -/
def Role.Suits (ty : SemType) : Role → Prop
  | .source => ∃ isConst, ty = .ptr (.uint 8) isConst
  | .target => ty = .ptr (.uint 8) false
  | .words => ∃ isConst, ty = .ptr (.int 64) isConst
  | .size => ty = .usize
  | .byte => ty = .uint 8
  | .signed => ty = .int 64

/-- The roles of a shape, in the order of its signature. -/
def RecognizedShape.roles : RecognizedShape → List Role
  | .scan _ => [.source, .size, .byte]
  | .replaceByte _ => [.target, .size, .byte, .byte]
  | .memset _ => [.target, .size, .byte]
  | .memcpy _ => [.target, .source, .size]
  | .memcmp _ => [.source, .source, .size]
  | .i64Sum _ => [.words, .size]
  | .pureInt _ => [.size, .size]
  | .pureIntI64 _ => [.signed, .signed]
  | .pureIntUnaryI64 _ => [.signed]
  | .cellLoad => [.source]
  | .cellStore => [.source, .byte]

/-- Every vector has one input for each parameter, and each input has the role of its
position and goes to a parameter whose type suits that role. -/
def CallsInOrder (contract : CheckedContract) : Prop :=
  ∀ shape, recognizedShape contract = some shape → ∀ vector ∈ synthesizeVectors contract,
    vector.inputs.length = contract.parameters.length ∧
      ∀ (position : Nat) input param, vector.inputs[position]? = some input →
        contract.parameters[position]? = some param →
          ∃ role, shape.roles[position]? = some role ∧ role.Holds input ∧ role.Suits param.ty

/-- The parameter types of a shape in the order of its signature. -/
def RecognizedShape.Ordered (types : List SemType) : RecognizedShape → Prop
  | .scan _ => ∃ isConst, types = [.ptr (.uint 8) isConst, .usize, .uint 8]
  | .replaceByte _ => types = [.ptr (.uint 8) false, .usize, .uint 8, .uint 8]
  | .memset _ => types = [.ptr (.uint 8) false, .usize, .uint 8]
  | .memcpy _ => ∃ isConst, types = [.ptr (.uint 8) false, .ptr (.uint 8) isConst, .usize]
  | .memcmp _ => ∃ one two, types = [.ptr (.uint 8) one, .ptr (.uint 8) two, .usize]
  | .i64Sum _ => ∃ isConst, types = [.ptr (.int 64) isConst, .usize]
  | .pureInt _ => types.length = 2
  | .pureIntI64 _ | .pureIntUnaryI64 _ => True
  | .cellLoad => ∃ isConst, types = [.ptr (.uint 8) isConst]
  | .cellStore => ∃ isConst, types = [.ptr (.uint 8) isConst, .uint 8]

/-- The parameters of a recognized contract stand in the order of the signature. -/
def ParametersOrdered (contract : CheckedContract) : Prop :=
  ∀ shape, recognizedShape contract = some shape →
    shape.Ordered (contract.parameters.map CheckedParam.ty)

/-! ## The vectors hold the roles -/

@[simp] theorem elementsOf_bytesJson (bytes : List UInt8) :
    elementsOf byteOf (bytesJson bytes) = some bytes :=
  elementsOf_map byteOf byteJson byteOf_byteJson bytes

@[simp] theorem elementsOf_wordsJson (words : List Int64) :
    elementsOf Json.asI64 (wordsJson words) = some words :=
  elementsOf_map Json.asI64 Json.ofI64 asI64_ofI64 words

@[simp] theorem elementsOf_null {α : Type} (read : Json → Option α) :
    elementsOf read .null = some [] := rfl

@[simp] theorem Role.holds_source (input : Json) :
    Role.source.Holds input ↔ (elementsOf byteOf input).isSome = true := Iff.rfl

@[simp] theorem Role.holds_target (input : Json) :
    Role.target.Holds input ↔ (elementsOf byteOf input).isSome = true := Iff.rfl

@[simp] theorem Role.holds_words (input : Json) :
    Role.words.Holds input ↔ (elementsOf Json.asI64 input).isSome = true := Iff.rfl

@[simp] theorem Role.holds_size (input : Json) :
    Role.size.Holds input ↔ input.asU64.isSome = true := Iff.rfl

@[simp] theorem Role.holds_byte (input : Json) :
    Role.byte.Holds input ↔ (byteOf input).isSome = true := Iff.rfl

@[simp] theorem Role.holds_signed (input : Json) :
    Role.signed.Holds input ↔ input.asI64.isSome = true := Iff.rfl

/-- The vector with a null pointer has the roles of a scan. -/
theorem nullScanVector_holds (shape : ScanShape) :
    ∀ vector ∈ nullScanVector shape,
      List.Forall₂ (fun role input => Role.Holds input role) [.source, .size, .byte]
        vector.inputs := by
  unfold nullScanVector
  split <;> simp

/-- Every synthesized input has the role of its position. -/
theorem synthesized_holds (contract : CheckedContract) (shape : RecognizedShape)
    (recognized : recognizedShape contract = some shape) :
    ∀ vector ∈ synthesizeVectors contract,
      List.Forall₂ (fun role input => Role.Holds input role) shape.roles vector.inputs := by
  unfold synthesizeVectors RecognizedShape.roles
  rw [recognized]
  cases shape with
  | scan shape =>
    have null := nullScanVector_holds shape
    dsimp only
    cases shape.op with
    | count => exact List.forall_mem_append.mpr ⟨by simp, null⟩
    | findFirst => exact List.forall_mem_append.mpr ⟨by simp, null⟩
    | findLast => exact List.forall_mem_append.mpr ⟨by simp, null⟩
  | replaceByte shape =>
    by_cases same : shape.needle = shape.replacement <;>
      simp [synthesizeReplaceByteVectors, same]
  | memset shape => simp [synthesizeMemsetVectors]
  | memcpy shape => simp [synthesizeMemcpyVectors]
  | memcmp shape =>
    by_cases allows : shape.allowsNull = true <;>
      simp [synthesizeMemcmpVectors, allows]
  | i64Sum shape =>
    by_cases allows : shape.allowsNullWhenEmpty = true <;>
      simp [synthesizeI64SumVectors, allows]
  | pureInt op => simp [synthesizePureIntVectors]
  | pureIntI64 op => simp [synthesizePureIntI64Vectors]
  | pureIntUnaryI64 op =>
    intro vector member
    obtain ⟨⟨name, x⟩, _, rfl⟩ := List.mem_map.mp member
    simp
  | cellLoad => simp [synthesizeCellLoadVectors]
  | cellStore => simp [synthesizeCellStoreVectors]

/-- Inputs that hold the roles go in order exactly when the types suit the roles. -/
theorem inOrder_iff (roles : List Role) (inputs : List Json) (params : List CheckedParam)
    (holds : List.Forall₂ (fun role input => Role.Holds input role) roles inputs) :
    (inputs.length = params.length ∧
      ∀ (position : Nat) input param, inputs[position]? = some input →
        params[position]? = some param →
          ∃ role, roles[position]? = some role ∧ role.Holds input ∧ role.Suits param.ty) ↔
      List.Forall₂ (fun role ty => Role.Suits ty role) roles (params.map CheckedParam.ty) := by
  rw [List.forall₂_map_right_iff]
  induction holds generalizing params with
  | nil => cases params <;> simp
  | @cons role input roles inputs first rest inductionHypothesis =>
    cases params with
    | nil => simp
    | cons param params =>
      rw [List.forall₂_cons, ← inductionHypothesis params]
      constructor
      · rintro ⟨length, inOrder⟩
        refine ⟨?_, by simpa using length, fun position input param atInput atParam =>
          inOrder (position + 1) input param (by simpa using atInput) (by simpa using atParam)⟩
        obtain ⟨own, atRole, _, suits⟩ := inOrder 0 input param rfl rfl
        cases atRole
        exact suits
      · rintro ⟨suits, length, inOrder⟩
        refine ⟨by simpa using length, fun position other next atInput atParam => ?_⟩
        cases position with
        | zero =>
          cases atInput
          cases atParam
          exact ⟨role, rfl, first, suits⟩
        | succ position => exact inOrder position other next atInput atParam

/-! ## The types suit the roles -/

/-- All parameters have the type when as many do as there are. -/
theorem types_of_count (contract : CheckedContract) (ty : SemType)
    (all : (paramsOf contract ty).length = contract.parameters.length) :
    contract.parameters.map CheckedParam.ty = List.replicate contract.parameters.length ty := by
  have every := List.length_filter_eq_length_iff.mp all
  refine List.eq_replicate_iff.mpr ⟨by simp, ?_⟩
  intro other member
  obtain ⟨param, listed, rfl⟩ := List.mem_map.mp member
  simpa using every param listed

@[simp] theorem Role.suits_source (ty : SemType) :
    Role.source.Suits ty ↔ ∃ isConst, ty = .ptr (.uint 8) isConst := Iff.rfl

@[simp] theorem Role.suits_target (ty : SemType) :
    Role.target.Suits ty ↔ ty = .ptr (.uint 8) false := Iff.rfl

@[simp] theorem Role.suits_words (ty : SemType) :
    Role.words.Suits ty ↔ ∃ isConst, ty = .ptr (.int 64) isConst := Iff.rfl

@[simp] theorem Role.suits_size (ty : SemType) : Role.size.Suits ty ↔ ty = .usize := Iff.rfl

@[simp] theorem Role.suits_byte (ty : SemType) : Role.byte.Suits ty ↔ ty = .uint 8 := Iff.rfl

@[simp] theorem Role.suits_signed (ty : SemType) : Role.signed.Suits ty ↔ ty = .int 64 := Iff.rfl

/-- The recognizer of a shape found it. -/
def RecognizedShape.Recognizes (contract : CheckedContract) : RecognizedShape → Prop
  | .scan shape => scanShape contract = some shape
  | .replaceByte shape => replaceByteShape contract = some shape
  | .memset shape => memsetShape contract = some shape
  | .memcpy shape => memcpyShape contract = some shape
  | .memcmp shape => memcmpShape contract = some shape
  | .i64Sum shape => i64SumShape contract = some shape
  | .pureInt op => pureIntShape contract = some op
  | .pureIntI64 op => pureIntI64Shape contract = some op
  | .pureIntUnaryI64 op => pureIntUnaryI64Shape contract = some op
  | .cellLoad => cellLoadShape contract = true
  | .cellStore => cellStoreShape contract = true

/-- The recognized shape comes from its recognizer. -/
theorem recognizes (contract : CheckedContract) (shape : RecognizedShape)
    (recognized : recognizedShape contract = some shape) : shape.Recognizes contract := by
  simp only [recognizedShape, Option.or_eq_some_iff, Option.map_eq_some_iff] at recognized
  rcases recognized with ⟨shape, found, rfl⟩ | ⟨_, ⟨shape, found, rfl⟩ | ⟨_, ⟨shape, found, rfl⟩ |
    ⟨_, ⟨shape, found, rfl⟩ | ⟨_, ⟨shape, found, rfl⟩ | ⟨_, ⟨shape, found, rfl⟩ |
    ⟨_, ⟨op, found, rfl⟩ | ⟨_, ⟨op, found, rfl⟩ | ⟨_, ⟨op, found, rfl⟩ | ⟨_, cell⟩⟩⟩⟩⟩⟩⟩⟩⟩
  all_goals first
    | exact found
    | skip
  split at cell
  · cases cell
    assumption
  · split at cell
    · cases cell
      assumption
    · cases cell

theorem pureIntTypes_of_shape (contract : CheckedContract) (op : PureIntOp)
    (found : pureIntShape contract = some op) : pureIntTypes contract = true := by
  unfold pureIntShape at found
  split at found
  · assumption
  · cases found

theorem pureIntI64Types_of_shape (contract : CheckedContract) (op : PureIntI64Op)
    (found : pureIntI64Shape contract = some op) : pureIntI64Types contract = true := by
  unfold pureIntI64Shape at found
  split at found
  · assumption
  · cases found

theorem pureIntUnaryI64Types_of_shape (contract : CheckedContract) (op : PureIntUnaryI64Op)
    (found : pureIntUnaryI64Shape contract = some op) : pureIntUnaryI64Types contract = true := by
  unfold pureIntUnaryI64Shape at found
  split at found
  · assumption
  · cases found

/-- The types of a recognized contract suit the roles exactly when they are ordered.

Proof: the roles spell out the types; of two words the recognizer has seen both. -/
theorem suits_iff_ordered (contract : CheckedContract) (shape : RecognizedShape)
    (recognized : recognizedShape contract = some shape) :
    List.Forall₂ (fun role ty => Role.Suits ty role) shape.roles
        (contract.parameters.map CheckedParam.ty) ↔
      shape.Ordered (contract.parameters.map CheckedParam.ty) := by
  have found := recognizes contract shape recognized
  cases shape with
  | pureInt op =>
    have typed := pureIntTypes_of_shape contract op found
    have two : (paramsOf contract .usize).length = 2 := by
      simp only [pureIntTypes, Bool.and_eq_true, beq_iff_eq] at typed
      exact typed.1.1
    constructor
    · intro suits
      exact suits.length_eq.symm
    · intro length
      have length : contract.parameters.length = 2 := by
        simpa only [RecognizedShape.Ordered, List.length_map] using length
      rw [types_of_count contract .usize (by omega), length]
      exact .cons rfl (.cons rfl .nil)
  | pureIntI64 op =>
    have typed := pureIntI64Types_of_shape contract op found
    simp only [pureIntI64Types, Bool.and_eq_true, beq_iff_eq] at typed
    rw [types_of_count contract (.int 64) (by omega), typed.1.1]
    exact iff_of_true (.cons rfl (.cons rfl .nil)) trivial
  | pureIntUnaryI64 op =>
    have typed := pureIntUnaryI64Types_of_shape contract op found
    simp only [pureIntUnaryI64Types, Bool.and_eq_true, beq_iff_eq] at typed
    rw [types_of_count contract (.int 64) (by omega), typed.1.1]
    exact iff_of_true (.cons rfl .nil) trivial
  | _ =>
    simp only [RecognizedShape.roles, RecognizedShape.Ordered, List.forall₂_cons_left_iff,
      List.forall₂_nil_left_iff, Role.suits_source, Role.suits_target, Role.suits_words,
      Role.suits_size, Role.suits_byte]
    generalize contract.parameters.map CheckedParam.ty = types
    grind

/-- A count that takes the length first. -/
def countLengthFirst : CheckedContract where
  name := "count_byte"
  parameters := [⟨"length", .usize, none⟩, ⟨"ptr", .ptr (.uint 8) true, none⟩,
    ⟨"needle", .uint 8, none⟩]
  returns := [⟨"result", .usize⟩]
  requires := []
  ensures := []
  effects := [⟨"memory_read", some "ptr[0..length]", none⟩]
  memory := none

end Semasm.Agent.Harness
