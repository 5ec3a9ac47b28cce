import Semasm.Contract.Alias

/-!
# Region access

Every recorded access that is not a frame access is judged against the regions
declared on its base parameter. An affine access is compared with each region in
saturating arithmetic. An access with a constant index becomes affine; one with
an index range is judged at both ends of the range; one without index facts is
left to the caller. A row's bounds and permission feed the status of the slice.
-/

namespace Semasm.Contract

open Library.Saturation

/-- Aggregate status of the region-access slice. -/
inductive RegionAccessStatus where
  | passed | passedUnderPreconditions | incomplete | failed
deriving DecidableEq, Repr

/-- Bounds judgement for one access. -/
inductive BoundsStatus where
  | provenInside | provenOutside | mayEscape | unknown
deriving DecidableEq, Repr

/-- Permission judgement for one access. -/
inductive PermissionStatus where
  | allowed | denied | unknown
deriving DecidableEq, Repr

/-- One row of the region-access report. -/
structure MemoryAccessEvidence where
  instructionOffset : UInt64
  operation : AccessMode
  width : UInt32
  address : String
  region : Option String
  bounds : BoundsStatus
  permission : PermissionStatus
  evidenceBasis : RelationEvidenceBasis
deriving DecidableEq

/-- The region-access report. -/
structure RegionAccessReport where
  model : String
  status : RegionAccessStatus
  accessesTotal : Nat
  accessesProvenInside : Nat
  accessesUnknown : Nat
  accesses : List MemoryAccessEvidence

/-- How an affine access lies to one region. -/
inductive RegionClass where
  | inside | outside | mayEscape
deriving DecidableEq, Repr

/-- `classify_vs_region`. -/
def classifyVsRegion (region : CheckedRegion) (accessLo accessHi : Int64) : RegionClass :=
  match region.length with
  | .literal length =>
    let regionHi := saturatingAddUnsigned region.offset length
    if accessLo ≥ region.offset ∧ accessHi ≤ regionHi then .inside
    else if accessHi ≤ region.offset ∨ accessLo ≥ regionHi then .outside
    else .mayEscape
  | .param _ =>
    if accessLo = region.offset then .mayEscape
    else if accessHi ≤ region.offset then .outside
    else .mayEscape

/-- The row of an access, from what its judgement decides. -/
def ObservedMemoryAccess.evidence (access : ObservedMemoryAccess) (address : String)
    (region : Option String) (bounds : BoundsStatus) (permission : PermissionStatus)
    (basis : RelationEvidenceBasis) : MemoryAccessEvidence :=
  ⟨access.instructionOffset, access.mode, access.widthBytes, address, region, bounds, permission,
    basis⟩

/-- The regions declared on a base parameter. -/
def CheckedMemory.candidates (memory : CheckedMemory) (baseParam : String) : List CheckedRegion :=
  memory.regions.filter (fun region => region.baseParam == baseParam)

/-- The region a row reports: the first that allows the mode, else the first. -/
def preferredRegion (mode : AccessMode) (regions : List CheckedRegion) : Option CheckedRegion :=
  (regions.find? (fun region => accessAllowed region.access mode)).orElse
    (fun _ => regions.head?)

/-- The permission of a mode on a region. -/
def permissionOf (region : CheckedRegion) (mode : AccessMode) : PermissionStatus :=
  if accessAllowed region.access mode then .allowed else .denied

/-- The row of an access without a region of its base. -/
def ObservedMemoryAccess.unmatched (access : ObservedMemoryAccess) (address : String) :
    MemoryAccessEvidence :=
  access.evidence address none .unknown .unknown .unknown

/-- `evidence_proven_inside`; the list of regions is not empty. -/
def evidenceProvenInside (access : ObservedMemoryAccess) (address : String)
    (inside : List CheckedRegion) : MemoryAccessEvidence :=
  match preferredRegion access.mode inside with
  | none => access.unmatched address
  | some region =>
    access.evidence address (some region.name) .provenInside (permissionOf region access.mode)
      .provenStatic

/-- `evidence_may_escape`; the list of regions is not empty. -/
def evidenceMayEscape (access : ObservedMemoryAccess) (address : String)
    (candidates : List CheckedRegion) : MemoryAccessEvidence :=
  match preferredRegion access.mode candidates with
  | none => access.unmatched address
  | some region =>
    let permission := permissionOf region access.mode
    let basis := match region.length with
      | .param _ => if permission = .allowed then .declaredPrecondition else .unknown
      | .literal _ => .unknown
    access.evidence address (some region.name) .mayEscape permission basis

/-- `judge_affine_access`. -/
def judgeAffineAccess (memory : CheckedMemory) (access : ObservedMemoryAccess)
    (baseParam : String) (offset : Int64) : MemoryAccessEvidence :=
  let address := if offset = 0 then baseParam else s!"{baseParam}{Text.signed offset.toInt}"
  let candidates := memory.candidates baseParam
  if candidates.isEmpty then access.unmatched address
  else
    let accessHi := saturatingAddUnsigned offset access.widthBytes.toUInt64
    let classOf := fun region => classifyVsRegion region offset accessHi
    let inside := candidates.filter (fun region => classOf region = .inside)
    if !inside.isEmpty then evidenceProvenInside access address inside
    else if candidates.all (fun region => classOf region = .outside) then
      access.evidence address none .provenOutside .unknown .provenStatic
    else evidenceMayEscape access address candidates

/-- `judge_indexed_access`: no static range of the index. -/
def judgeIndexedAccess (memory : CheckedMemory) (access : ObservedMemoryAccess)
    (baseParam : String) (scale : UInt8) (displacement : Int64) : MemoryAccessEvidence :=
  let address := s!"{baseParam}+index*{scale.toNat}{Text.signed displacement.toInt}"
  match preferredRegion access.mode (memory.candidates baseParam) with
  | none => access.unmatched address
  | some region =>
    let permission := permissionOf region access.mode
    access.evidence address (some region.name) .mayEscape permission
      (if permission = .denied then .provenStatic else .declaredPrecondition)

/-- The signed value of a scale. -/
def scaleI64 (scale : UInt8) : Int64 := Int64.ofInt scale.toNat

/-- The offset of an index in saturating arithmetic. -/
def indexOffset (index : UInt64) (scale : UInt8) (displacement : Int64) : Int64 :=
  saturatingAdd (saturatingMul (fromUnsigned index) (scaleI64 scale)) displacement

/-- `judge_indexed_range_access`: both ends of `[0, maxExclusive)`. -/
def judgeIndexedRangeAccess (memory : CheckedMemory) (access : ObservedMemoryAccess)
    (baseParam : String) (scale : UInt8) (displacement : Int64) (maxExclusive : UInt64) :
    MemoryAccessEvidence :=
  if maxExclusive = 0 then judgeIndexedAccess memory access baseParam scale displacement
  else
    let low := judgeAffineAccess memory access baseParam displacement
    let high := judgeAffineAccess memory access baseParam
      (indexOffset (maxExclusive - 1) scale displacement)
    if low.bounds = .provenInside ∧ high.bounds = .provenInside ∧ low.permission = .allowed ∧
        high.permission = .allowed then
      let address := s!"{baseParam}+[0..{maxExclusive.toNat})*{scale.toNat}" ++
        Text.signed displacement.toInt
      access.evidence address (high.region.orElse (fun _ => low.region)) .provenInside .allowed
        .provenStatic
    else judgeIndexedAccess memory access baseParam scale displacement

/-- `judge_access`. Frame accesses are filtered out before and have no row. -/
def judgeAccess (memory : CheckedMemory) (access : ObservedMemoryAccess) :
    Option MemoryAccessEvidence :=
  match access.addr with
  | .unknown => some (access.unmatched "unknown")
  | .stackFrame => none
  | .affine baseParam offset => some (judgeAffineAccess memory access baseParam offset)
  | .indexed baseParam scale displacement (some index) _ =>
    some (judgeAffineAccess memory access baseParam (indexOffset index scale displacement))
  | .indexed baseParam scale displacement none (some maxExclusive) =>
    some (judgeIndexedRangeAccess memory access baseParam scale displacement maxExclusive)
  | .indexed baseParam scale displacement none none =>
    some (judgeIndexedAccess memory access baseParam scale displacement)

/-- What the rows have met so far. -/
structure RegionAccessTally where
  anyFailed : Bool
  anyIncomplete : Bool
  anyUnderPreconditions : Bool

/-- Account for one row. -/
def RegionAccessTally.add (tally : RegionAccessTally) (row : MemoryAccessEvidence) :
    RegionAccessTally :=
  if row.bounds = .provenOutside ∨ row.permission = .denied then { tally with anyFailed := true }
  else if row.bounds = .unknown ∨ row.permission = .unknown then
    { tally with anyIncomplete := true }
  else if row.bounds = .mayEscape then
    if row.evidenceBasis = .declaredPrecondition ∧ row.permission = .allowed then
      { tally with anyUnderPreconditions := true }
    else { tally with anyIncomplete := true }
  else if row.bounds ≠ .provenInside ∨ row.permission ≠ .allowed then
    { tally with anyIncomplete := true }
  else tally

/-- The rows with unknown bounds or permission. -/
def unknownRows (rows : List MemoryAccessEvidence) : List MemoryAccessEvidence :=
  rows.filter (fun row => row.bounds = .unknown ∨ row.permission = .unknown)

/-- The status of the slice, from its rows. -/
def regionAccessStatus (rows : List MemoryAccessEvidence) : RegionAccessStatus :=
  let tally := rows.foldl RegionAccessTally.add ⟨false, false, false⟩
  if tally.anyFailed then .failed
  else if tally.anyIncomplete ∨ (unknownRows rows).length > 0 then .incomplete
  else if tally.anyUnderPreconditions then .passedUnderPreconditions
  else .passed

/-- `evaluate_region_access`. -/
def evaluateRegionAccess (memory : CheckedMemory) (accesses : List ObservedMemoryAccess) :
    RegionAccessReport :=
  let rows := accesses.filterMap (judgeAccess memory)
  { model := "region-access-affine-v1"
    status := regionAccessStatus rows
    accessesTotal := rows.length
    accessesProvenInside := (rows.filter (fun row => row.bounds = .provenInside)).length
    accessesUnknown := (unknownRows rows).length
    accesses := rows }

end Semasm.Contract
