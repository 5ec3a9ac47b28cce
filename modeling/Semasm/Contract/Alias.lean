import Semasm.Contract.Checked
import Semasm.Library.Saturation
import Semasm.Text

/-!
# Alias relations

The relation engine observes each declared relation on the two regions it names
and records one row for it. Regions of different pointer parameters are never
compared. For regions of one parameter the engine compares constant spans whose
stops are computed with saturating addition; a symbolic length is compared by
name only. A declared precondition becomes the basis of a row when the
observation neither satisfies nor contradicts what is required.
-/

namespace Semasm.Contract

open Library.Saturation

/-- Aggregate status of the alias slice. -/
inductive AliasStatus where
  | passed | passedUnderPreconditions | incomplete | failed
deriving DecidableEq, Repr

/-- Why an observation is believed. -/
inductive RelationEvidenceBasis where
  | provenStatic | declaredPrecondition | observedRuntime | behavioralTest | assumedEnvironment
  | unknown
deriving DecidableEq, Repr

/-- Observed status for one declared relation. -/
inductive RelationObserved where
  | provenDisjoint | provenEqual | provenContains | provenPartialOverlap | mayOverlap
  | invalidRegion | notEvaluated
deriving DecidableEq, Repr

def RelationObserved.asStr : RelationObserved → String
  | .provenDisjoint => "proven_disjoint"
  | .provenEqual => "proven_equal"
  | .provenContains => "proven_contains"
  | .provenPartialOverlap => "proven_partial_overlap"
  | .mayOverlap => "may_overlap"
  | .invalidRegion => "invalid_region"
  | .notEvaluated => "not_evaluated"

/-- How an observed memory access addresses memory. -/
inductive AccessAddr where
  | affine (baseParam : String) (offset : Int64)
  | indexed (baseParam : String) (scale : UInt8) (displacement : Int64)
      (indexConst : Option UInt64) (indexMaxExclusive : Option UInt64)
  | stackFrame
  | unknown
deriving DecidableEq

/-- Load or store. -/
inductive AccessMode where
  | load | store
deriving DecidableEq, Repr

/-- One observed memory access. -/
structure ObservedMemoryAccess where
  mode : AccessMode
  widthBytes : UInt32
  addr : AccessAddr
  mnemonic : String
  instructionOffset : UInt64
deriving DecidableEq

/-- One row of the alias report. -/
structure AliasRelationEvidence where
  left : String
  right : String
  required : String
  observed : RelationObserved
  evidenceBasis : RelationEvidenceBasis
  basis : String

/-- An obligation left to the caller. -/
structure VerificationObligation where
  kind : String
  left : String
  right : String
  owner : String

/-- The alias report. -/
structure AliasAnalysisReport where
  model : String
  status : AliasStatus
  relations : List AliasRelationEvidence
  unknownMemoryAccesses : Nat
  assumptions : List String
  unresolvedObligations : List VerificationObligation

/-- `relation_satisfies`. -/
def relationSatisfies : RelationRequire → RelationObserved → Bool
  | .disjoint, .provenDisjoint => true
  | .equal, .provenEqual => true
  | .contains, .provenContains => true
  | _, _ => false

/-- `contradicts`. -/
def contradicts : RelationRequire → RelationObserved → Bool
  | .disjoint, .provenEqual | .disjoint, .provenContains | .disjoint, .provenPartialOverlap => true
  | .equal, .provenDisjoint | .equal, .provenPartialOverlap => true
  | .contains, .provenDisjoint | .contains, .provenPartialOverlap => true
  | _, _ => false

/-- The end points the engine compares: `[start,stop)` in signed 64-bit numbers. -/
def spanText (start stop : Int64) : String := s!"[{start.toInt},{stop.toInt})"

/-- Compare two constant spans of one base. -/
def observeSpans (leftStart leftStop rightStart rightStop : Int64) :
    RelationObserved × String × RelationEvidenceBasis :=
  let left := spanText leftStart leftStop
  let right := spanText rightStart rightStop
  if leftStart = rightStart ∧ leftStop = rightStop then
    (.provenEqual, s!"same_base_equal_span:{left}", .provenStatic)
  else if leftStart ≤ rightStart ∧ rightStop ≤ leftStop then
    (.provenContains, s!"left_contains_right:{left}>={right}", .provenStatic)
  else if rightStart ≤ leftStart ∧ leftStop ≤ rightStop then
    (.provenPartialOverlap, s!"right_contains_left:{right}>={left}", .provenStatic)
  else if leftStop ≤ rightStart ∨ rightStop ≤ leftStart then
    (.provenDisjoint, s!"same_base_const_disjoint:{left}|{right}", .provenStatic)
  else
    (.provenPartialOverlap, s!"same_base_partial_overlap:{left}~{right}", .provenStatic)

/-- `observe_pair`. -/
def observePair (left right : CheckedRegion) : RelationObserved × String × RelationEvidenceBasis :=
  if left.baseParam ≠ right.baseParam then
    (.mayOverlap, s!"distinct_param_names_not_proof:{left.baseParam}!={right.baseParam}", .unknown)
  else
    match left.length, right.length with
    | .literal leftLength, .literal rightLength =>
      observeSpans left.offset (saturatingAddUnsigned left.offset leftLength)
        right.offset (saturatingAddUnsigned right.offset rightLength)
    | _, _ =>
      if left.offset = right.offset ∧ left.length = right.length then
        (.provenEqual, "same_base_same_offset_same_length_param", .provenStatic)
      else
        (.mayOverlap, "same_base_symbolic_length", .unknown)

/-- The row of one declared relation. -/
def relationRow (memory : CheckedMemory) (relation : CheckedRelation) : AliasRelationEvidence :=
  let (observed, detail, basis) :=
    match memory.region? relation.left, memory.region? relation.right with
    | some left, some right =>
      let (observed, detail, basis) := observePair left right
      if relation.basis = some .precondition ∧ ¬ relationSatisfies relation.require observed ∧
          ¬ contradicts relation.require observed then
        (observed, detail, .declaredPrecondition)
      else (observed, detail, basis)
    | _, _ => (.invalidRegion, "relation endpoint missing from regions", .unknown)
  ⟨relation.left, relation.right, relation.require.asStr, observed, basis, detail⟩

/-- What the aggregate status has met so far. -/
structure AliasTally where
  anyFailed : Bool
  anyUnproven : Bool
  anyCallerObligation : Bool
  unresolvedObligations : List VerificationObligation

/-- Account for one relation and its row. -/
def AliasTally.add (tally : AliasTally) (relation : CheckedRelation)
    (row : AliasRelationEvidence) : AliasTally :=
  if contradicts relation.require row.observed then { tally with anyFailed := true }
  else if relationSatisfies relation.require row.observed then tally
  else if row.evidenceBasis = .declaredPrecondition ∧ relation.basis = some .precondition then
    { tally with
      anyCallerObligation := true
      unresolvedObligations := tally.unresolvedObligations ++
        [⟨s!"regions_{relation.require.asStr}", relation.left, relation.right, "caller"⟩] }
  else { tally with anyUnproven := true }

/-- The flags and obligations of the declared relations. -/
def aliasTally (memory : CheckedMemory) : AliasTally :=
  (memory.relations.zip (memory.relations.map (relationRow memory))).foldl
    (fun tally pair => tally.add pair.1 pair.2) ⟨false, false, false, []⟩

/-- The number of accesses without a modelled address. -/
def unknownMemoryAccesses (accesses : List ObservedMemoryAccess) : Nat :=
  (accesses.filter (fun access => access.addr = .unknown)).length

/-- `evaluate_alias`. -/
def evaluateAlias (memory : CheckedMemory) (accesses : List ObservedMemoryAccess) :
    AliasAnalysisReport :=
  let tally := aliasTally memory
  let status : AliasStatus :=
    if tally.anyFailed then .failed
    else if tally.anyUnproven ∨ unknownMemoryAccesses accesses > 0 then .incomplete
    else if tally.anyCallerObligation then .passedUnderPreconditions
    else .passed
  { model := "region-affine-v1"
    status := status
    relations := memory.relations.map (relationRow memory)
    unknownMemoryAccesses := unknownMemoryAccesses accesses
    assumptions := ["distinct_param_names_do_not_prove_runtime_disjointness"]
    unresolvedObligations := tally.unresolvedObligations }

/-- `access_allowed`. -/
def accessAllowed : RegionAccess → AccessMode → Bool
  | .read, .load | .write, .store | .readWrite, _ => true
  | .read, .store | .write, .load => false

end Semasm.Contract
