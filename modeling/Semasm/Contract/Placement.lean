import Semasm.Contract.SliceStatus
import Mathlib.Algebra.Order.Floor.Div

/-!
# Whether the caller can meet the region-access slice

A slice that passes under preconditions asks the caller for region lengths and index
values that put every access inside a region. An access that is neither inside a region
nor outside all of them is attributed to the first region that permits its mode, whether
or not the region can ever hold it. The caller can meet the slice exactly when each
access has a permitting region that starts at or before it and, with a literal length,
reaches beyond it. A region of symbolic length can be made long enough for all accesses
at once.
-/

namespace Semasm.Contract

open Library Library.Saturation

/-- The lengths an assignment can give. -/
def Assignment.NonNegative (assignment : Assignment) : Prop := ∀ name, 0 ≤ assignment.length name

namespace ObservedMemoryAccess

/-- For some index that the facts admit, the access lies inside the region of its base. -/
def PlacedIn (assignment : Assignment) (access : ObservedMemoryAccess) (region : CheckedRegion) :
    Prop :=
  ∃ index baseParam offset, access.addr.Admits index ∧
    access.addr.offsetAt index = some (baseParam, offset) ∧ region.baseParam = baseParam ∧
    (region.span assignment).Encloses (accessSpan assignment baseParam offset access.widthBytes)

end ObservedMemoryAccess

/-- What the verdicts of the slice promise about assignments. -/
structure Realizable (memory : CheckedMemory) (accesses : List ObservedMemoryAccess) : Prop where
  placed : (evaluateRegionAccess memory accesses).status = .passedUnderPreconditions →
    ∃ assignment : Assignment, assignment.NonNegative ∧ ∀ access ∈ accesses,
      access.addr ≠ .stackFrame → ∃ region ∈ memory.regions,
        accessAllowed region.access access.mode = true ∧ access.PlacedIn assignment region
  outside : ∀ access ∈ accesses, ∀ row, judgeAccess memory access = some row →
    row.bounds = .provenOutside → ∀ assignment : Assignment, assignment.NonNegative →
      ∀ region ∈ memory.regions, ¬ access.PlacedIn assignment region

/-- The region starts at or before the offset and a literal length reaches beyond it. -/
def CheckedRegion.Room (region : CheckedRegion) (offset : Int) (width : UInt32) : Prop :=
  region.offset.toInt ≤ offset ∧
    match region.length with
    | .literal length => offset + width.toNat ≤ region.offset.toInt + length.toNat
    | .param _ => True

instance (region : CheckedRegion) (offset : Int) (width : UInt32) :
    Decidable (region.Room offset width) := by
  unfold CheckedRegion.Room
  split <;> infer_instance

/-- The least index whose scaled value closes the gap. -/
def reachIndex (scale : UInt8) (gap : Int) : Nat :=
  if gap ≤ 0 then 0 else (gap.toNat + scale.toNat - 1) / scale.toNat

/-- The region has room for the access, at the least index that reaches its start. -/
def ObservedMemoryAccess.Reaches (access : ObservedMemoryAccess) (region : CheckedRegion) : Prop :=
  match access.addr with
  | .affine baseParam offset =>
    region.baseParam = baseParam ∧ region.Room offset.toInt access.widthBytes
  | .indexed baseParam scale displacement (some index) bound =>
    region.baseParam = baseParam ∧ (∀ limit, bound = some limit → index < limit) ∧
      region.Room (index.toNat * scale.toNat + displacement.toInt) access.widthBytes
  | .indexed baseParam scale displacement none bound =>
    region.baseParam = baseParam ∧
      (∀ limit, bound = some limit →
        reachIndex scale (region.offset.toInt - displacement.toInt) < limit.toNat) ∧
      region.Room (reachIndex scale (region.offset.toInt - displacement.toInt) * scale.toNat +
        displacement.toInt) access.widthBytes
  | .stackFrame | .unknown => False

section Kinds

variable (memory : CheckedMemory) (mode : AccessMode) (width : UInt32) (baseParam : String)
  (offset : Int64)

/-- How an access at an offset lies to a region. -/
def classAt (region : CheckedRegion) : RegionClass :=
  classifyVsRegion region offset (saturatingAddUnsigned offset width.toUInt64)

/-- A region of the base permits the mode. -/
def PermittedBase : Prop :=
  ∃ region ∈ memory.candidates baseParam, accessAllowed region.access mode = true

/-- A region of the base permits the mode and holds the access. -/
def InsideAt : Prop :=
  ∃ region ∈ memory.candidates baseParam, classAt width offset region = .inside ∧
    accessAllowed region.access mode = true

/-- The base has regions and the access lies outside all of them. -/
def OutsideAt : Prop :=
  memory.candidates baseParam ≠ [] ∧
    ∀ region ∈ memory.candidates baseParam, classAt width offset region = .outside

/-- No region of the base holds the access, not all of them exclude it, and the first one
that permits the mode has a symbolic length. -/
def OpenAt : Prop :=
  (∀ region ∈ memory.candidates baseParam, classAt width offset region ≠ .inside) ∧
    (∃ region ∈ memory.candidates baseParam, classAt width offset region ≠ .outside) ∧
    ∃ region name, preferredRegion mode (memory.candidates baseParam) = some region ∧
      accessAllowed region.access mode = true ∧ region.length = .param name

end Kinds

namespace ObservedMemoryAccess

variable (memory : CheckedMemory) (access : ObservedMemoryAccess)

/-- The access seems to lie inside a region that permits it. -/
def Settles : Prop :=
  match access.addr with
  | .affine baseParam offset => InsideAt memory access.mode access.widthBytes baseParam offset
  | .indexed baseParam scale displacement (some index) _ =>
    InsideAt memory access.mode access.widthBytes baseParam (indexOffset index scale displacement)
  | .indexed baseParam scale displacement none (some bound) =>
    bound ≠ 0 ∧ InsideAt memory access.mode access.widthBytes baseParam displacement ∧
      InsideAt memory access.mode access.widthBytes baseParam
        (indexOffset (bound - 1) scale displacement)
  | _ => False

/-- The access is left to the caller. -/
def LeftOpen : Prop :=
  match access.addr with
  | .affine baseParam offset => OpenAt memory access.mode access.widthBytes baseParam offset
  | .indexed baseParam scale displacement (some index) _ =>
    OpenAt memory access.mode access.widthBytes baseParam (indexOffset index scale displacement)
  | .indexed baseParam _ _ none _ =>
    ¬ access.Settles memory ∧ PermittedBase memory access.mode baseParam
  | _ => False

/-- The access seems to lie outside every region of its base. -/
def OutsideAll : Prop :=
  match access.addr with
  | .affine baseParam offset => OutsideAt memory access.widthBytes baseParam offset
  | .indexed baseParam scale displacement (some index) _ =>
    OutsideAt memory access.widthBytes baseParam (indexOffset index scale displacement)
  | _ => False

/-- The access has a constant index and seems to lie outside every region. -/
def SeemsOutside : Prop :=
  match access.addr with
  | .indexed baseParam scale displacement (some index) _ =>
    OutsideAt memory access.widthBytes baseParam (indexOffset index scale displacement)
  | _ => False

end ObservedMemoryAccess

/-- Each access that is left to the caller, or counted beside one, reaches a region that
permits it; and no access that seems outside reaches a region. -/
structure Reachable (memory : CheckedMemory) (accesses : List ObservedMemoryAccess) : Prop where
  placed :
    (∀ access ∈ accesses, access.addr ≠ .stackFrame →
      access.Settles memory ∨ access.LeftOpen memory) →
    (∃ access ∈ accesses, access.LeftOpen memory) →
    ∀ access ∈ accesses, access.addr ≠ .stackFrame → ∃ region ∈ memory.regions,
      accessAllowed region.access access.mode = true ∧ access.Reaches region
  outside : ∀ access ∈ accesses, access.SeemsOutside memory →
    ∀ region ∈ memory.regions, ¬ access.Reaches region

/-- The least index closes the gap as soon as some index does. -/
theorem reachIndex_least (scale : UInt8) (gap : Int) (index : Nat)
    (closes : gap ≤ (index * scale.toNat : Nat)) :
    reachIndex scale gap ≤ index ∧ gap ≤ (reachIndex scale gap * scale.toNat : Nat) := by
  unfold reachIndex
  by_cases closed : gap ≤ 0
  · rw [if_pos closed]
    exact ⟨Nat.zero_le index, by omega⟩
  · rw [if_neg closed, ← Nat.ceilDiv_eq_add_pred_div]
    have positive : 0 < scale.toNat := by
      rcases Nat.eq_zero_or_pos scale.toNat with zero | positive
      · rw [zero] at closes
        omega
      · exact positive
    have enough : gap.toNat ≤ scale.toNat * index := by
      rw [Nat.mul_comm]
      omega
    have reached : gap.toNat ≤ scale.toNat * (gap.toNat ⌈/⌉ scale.toNat) :=
      (ceilDiv_le_iff_le_mul positive).mp le_rfl
    refine ⟨(ceilDiv_le_iff_le_mul positive).mpr enough, ?_⟩
    rw [Nat.mul_comm]
    omega

/-- The least index is no larger than the gap. -/
theorem reachIndex_le (scale : UInt8) (gap : Int) : reachIndex scale gap ≤ gap.toNat := by
  unfold reachIndex
  split_ifs with closed
  · exact Nat.zero_le _
  · rcases Nat.eq_zero_or_pos scale.toNat with zero | positive
    · rw [zero, Nat.div_zero]
      exact Nat.zero_le _
    · rw [← Nat.ceilDiv_eq_add_pred_div]
      exact (ceilDiv_le_iff_le_mul positive).mpr (Nat.le_mul_of_pos_left _ positive)

/-- Room at an offset is what an enclosing region of the same base leaves. -/
theorem room_of_encloses (assignment : Assignment) (region : CheckedRegion) (offset : Int)
    (width : UInt32)
    (encloses : (region.span assignment).Encloses
      (accessSpan assignment region.baseParam offset width)) :
    region.Room offset width := by
  obtain ⟨starts, stops⟩ := encloses
  simp only [CheckedRegion.span, accessSpan] at starts stops
  refine ⟨by omega, ?_⟩
  cases literal : region.length with
  | literal length =>
    simp only [literal, LengthSpec.bytes] at stops
    simp only
    omega
  | param name => trivial

/-- Every symbolic length is larger than any offset of an access. -/
def vast : Assignment := ⟨fun _ => 0, fun _ => 2 ^ 100⟩

theorem vast_nonNegative : vast.NonNegative := fun _ => by simp [vast]

/-- Room at an offset is enough under vast lengths. -/
theorem encloses_of_room (region : CheckedRegion) (offset : Int) (width : UInt32)
    (small : offset < 2 ^ 80) (room : region.Room offset width) :
    (region.span vast).Encloses (accessSpan vast region.baseParam offset width) := by
  obtain ⟨starts, stops⟩ := room
  have narrow := width.toNat_lt
  have lower := min_le_toInt region.offset
  unfold minI64 at lower
  simp only [Span.Encloses, CheckedRegion.span, accessSpan, vast]
  refine ⟨by omega, ?_⟩
  cases literal : region.length with
  | literal length =>
    simp only [literal] at stops
    simp only [LengthSpec.bytes]
    omega
  | param name =>
    simp only [LengthSpec.bytes]
    omega

/-- Room at some admitted index is room at the least index that reaches the region. -/
theorem room_least (region : CheckedRegion) (scale : UInt8) (displacement : Int64)
    (width : UInt32) (index : Nat)
    (room : region.Room (index * scale.toNat + displacement.toInt) width) :
    reachIndex scale (region.offset.toInt - displacement.toInt) ≤ index ∧
      region.Room (reachIndex scale (region.offset.toInt - displacement.toInt) * scale.toNat +
        displacement.toInt) width := by
  obtain ⟨starts, stops⟩ := room
  have closes : region.offset.toInt - displacement.toInt ≤ (index * scale.toNat : Nat) := by
    push_cast
    omega
  obtain ⟨below, reached⟩ := reachIndex_least scale _ index closes
  have lower := Nat.mul_le_mul_right scale.toNat below
  push_cast at reached
  refine ⟨below, by omega, ?_⟩
  cases literal : region.length with
  | literal length =>
    simp only [literal] at stops ⊢
    have scaled : (reachIndex scale (region.offset.toInt - displacement.toInt) *
        scale.toNat : Int) ≤ index * scale.toNat := by exact_mod_cast lower
    omega
  | param name => trivial

/-- An access placed in a region reaches it. -/
theorem reaches_of_placed (assignment : Assignment) (access : ObservedMemoryAccess)
    (region : CheckedRegion) (placed : access.PlacedIn assignment region) :
    access.Reaches region := by
  obtain ⟨index, baseParam, offset, admits, at_, rfl, encloses⟩ := placed
  have room := room_of_encloses assignment region offset access.widthBytes encloses
  unfold ObservedMemoryAccess.Reaches
  cases addr : access.addr with
  | affine param displacement =>
    rw [addr] at at_
    cases at_
    exact ⟨rfl, room⟩
  | indexed param scale displacement indexConst bound =>
    rw [addr] at at_ admits
    cases at_
    cases indexConst with
    | some value =>
      rw [admits.1 value rfl] at room
      exact ⟨rfl, fun limit same => (admits.1 value rfl) ▸ admits.2 limit same, room⟩
    | none =>
      obtain ⟨below, least⟩ := room_least region scale displacement access.widthBytes index.toNat
        room
      refine ⟨rfl, fun limit same => ?_, least⟩
      exact Nat.lt_of_le_of_lt below (UInt64.lt_iff_toNat_lt.mp (admits.2 limit same))
  | stackFrame =>
    rw [addr] at at_
    cases at_
  | unknown =>
    rw [addr] at at_
    cases at_

/-- Under vast lengths an access is placed in every region it reaches. -/
theorem placed_of_reaches (access : ObservedMemoryAccess) (region : CheckedRegion)
    (reaches : access.Reaches region) : access.PlacedIn vast region := by
  have place (index : UInt64) (offset : Int) (admits : access.addr.Admits index)
      (at_ : access.addr.offsetAt index = some (region.baseParam, offset))
      (room : region.Room offset access.widthBytes) : access.PlacedIn vast region :=
    ⟨index, region.baseParam, offset, admits, at_, rfl,
      encloses_of_room region offset _ (offsetAt_lt _ _ _ _ at_) room⟩
  unfold ObservedMemoryAccess.Reaches at reaches
  split at reaches
  next baseParam offset addr =>
    obtain ⟨rfl, room⟩ := reaches
    exact place 0 offset.toInt (by rw [addr]; trivial) (by rw [addr]; rfl) room
  next baseParam scale displacement index bound addr =>
    obtain ⟨rfl, within, room⟩ := reaches
    refine place index _ ?_ (by rw [addr]; rfl) room
    rw [addr]
    exact ⟨fun value same => Option.some.inj same, within⟩
  next baseParam scale displacement bound addr =>
    obtain ⟨rfl, within, room⟩ := reaches
    have fits : reachIndex scale (region.offset.toInt - displacement.toInt) < 2 ^ 64 := by
      have small := reachIndex_le scale (region.offset.toInt - displacement.toInt)
      have upper := toInt_le_max region.offset
      have lower := min_le_toInt displacement
      unfold maxI64 at upper
      unfold minI64 at lower
      omega
    have same : (UInt64.ofNat (reachIndex scale
        (region.offset.toInt - displacement.toInt))).toNat =
          reachIndex scale (region.offset.toInt - displacement.toInt) :=
      UInt64.toNat_ofNat_of_lt' fits
    refine place (UInt64.ofNat (reachIndex scale
      (region.offset.toInt - displacement.toInt))) _ ?_ (by rw [addr]; rfl) (by rw [same]; exact room)
    rw [addr]
    refine ⟨nofun, fun limit known => ?_⟩
    rw [UInt64.lt_iff_toNat_lt, same]
    exact within limit known
  next => exact reaches.elim
  next => exact reaches.elim

/-- Some region of a nonempty list is reported, one that permits the mode if there is any. -/
theorem preferredRegion_some (mode : AccessMode) (regions : List CheckedRegion)
    (inhabited : regions ≠ []) :
    ∃ region, preferredRegion mode regions = some region ∧
      (accessAllowed region.access mode = true ↔
        ∃ other ∈ regions, accessAllowed other.access mode = true) := by
  unfold preferredRegion
  cases found : regions.find? (fun region => accessAllowed region.access mode) with
  | some region =>
    have permitted := List.find?_some found
    exact ⟨region, rfl, iff_of_true permitted ⟨region, List.mem_of_find?_eq_some found, permitted⟩⟩
  | none =>
    obtain ⟨first, rest, rfl⟩ := List.exists_cons_of_ne_nil inhabited
    have denied := List.find?_eq_none.mp found
    refine ⟨first, rfl, iff_of_false (denied first (by simp)) ?_⟩
    rintro ⟨other, member, permitted⟩
    exact denied other member permitted

/-- How a row settles its access. -/
structure RowKind (row : MemoryAccessEvidence) (settled open_ outside : Prop) : Prop where
  settled : row.Settled ↔ settled
  conditional : row.Conditional ↔ open_
  outside : row.bounds = .provenOutside ↔ outside

/-- A row without a region is of no kind. -/
theorem unmatched_kind (access : ObservedMemoryAccess) (address : String) :
    RowKind (access.unmatched address) False False False := by
  refine ⟨?_, ?_, ?_⟩ <;>
    simp [ObservedMemoryAccess.unmatched, ObservedMemoryAccess.evidence,
      MemoryAccessEvidence.Settled, MemoryAccessEvidence.Conditional]

section Rows

variable (memory : CheckedMemory) (access : ObservedMemoryAccess) (baseParam : String)

/-- The kind of an affine row. -/
theorem judgeAffineAccess_kind (offset : Int64) :
    RowKind (judgeAffineAccess memory access baseParam offset)
      (InsideAt memory access.mode access.widthBytes baseParam offset)
      (OpenAt memory access.mode access.widthBytes baseParam offset)
      (OutsideAt memory access.widthBytes baseParam offset) := by
  simp only [judgeAffineAccess]
  generalize (if offset = 0 then baseParam else s!"{baseParam}{Text.signed offset.toInt}") =
    address
  have classes (region : CheckedRegion) : classifyVsRegion region offset
      (saturatingAddUnsigned offset access.widthBytes.toUInt64) =
        classAt access.widthBytes offset region := rfl
  simp only [classes]
  by_cases unmatched : (memory.candidates baseParam).isEmpty
  · rw [if_pos unmatched]
    have none_ := List.isEmpty_iff.mp unmatched
    have kind := unmatched_kind access address
    refine ⟨kind.settled.trans ?_, kind.conditional.trans ?_, kind.outside.trans ?_⟩
    · simp [InsideAt, none_]
    · simp [OpenAt, none_]
    · simp [OutsideAt, none_]
  · rw [if_neg unmatched]
    have inhabited : memory.candidates baseParam ≠ [] := fun none_ => unmatched (by simp [none_])
    by_cases inside : ∃ region ∈ memory.candidates baseParam,
        classAt access.widthBytes offset region = .inside
    · obtain ⟨inner, innerMember, innerClass⟩ := inside
      have held : (memory.candidates baseParam).filter
          (fun region => classAt access.widthBytes offset region = .inside) ≠ [] :=
        List.ne_nil_of_mem (List.mem_filter.mpr ⟨innerMember, by simp [innerClass]⟩)
      obtain ⟨region, preferred, permits⟩ := preferredRegion_some access.mode _ held
      rw [if_pos (by simpa using held), evidenceProvenInside, preferred]
      simp only [List.mem_filter, decide_eq_true_eq, and_assoc] at permits
      refine ⟨?_, iff_of_false ?_ ?_, iff_of_false ?_ ?_⟩
      · simp [ObservedMemoryAccess.evidence, MemoryAccessEvidence.Settled, permissionOf_eq_allowed,
          permits, InsideAt]
      · simp [ObservedMemoryAccess.evidence, MemoryAccessEvidence.Conditional]
      · exact fun opened => opened.1 inner innerMember innerClass
      · simp [ObservedMemoryAccess.evidence]
      · rintro ⟨_, all⟩
        rw [all inner innerMember] at innerClass
        cases innerClass
    · have none_ : (memory.candidates baseParam).filter
          (fun region => classAt access.widthBytes offset region = .inside) = [] := by
        apply List.filter_eq_nil_iff.mpr
        intro region member class_
        exact inside ⟨region, member, of_decide_eq_true class_⟩
      rw [if_neg (by simp [none_])]
      have notInside : ¬ InsideAt memory access.mode access.widthBytes baseParam offset :=
        fun found => found.elim fun region held => inside ⟨region, held.1, held.2.1⟩
      by_cases outside : ∀ region ∈ memory.candidates baseParam,
          classAt access.widthBytes offset region = .outside
      · rw [if_pos (by simpa using outside)]
        refine ⟨iff_of_false ?_ notInside, iff_of_false ?_ ?_, iff_of_true rfl ⟨inhabited, outside⟩⟩
        · simp [ObservedMemoryAccess.evidence, MemoryAccessEvidence.Settled]
        · simp [ObservedMemoryAccess.evidence, MemoryAccessEvidence.Conditional]
        · rintro ⟨_, ⟨region, member, class_⟩, _⟩
          exact class_ (outside region member)
      · rw [if_neg (by simpa using outside)]
        obtain ⟨region, preferred, permits⟩ :=
          preferredRegion_some access.mode (memory.candidates baseParam) inhabited
        have opened : OpenAt memory access.mode access.widthBytes baseParam offset ↔
            accessAllowed region.access access.mode = true ∧
              ∃ name, region.length = .param name := by
          constructor
          · rintro ⟨_, _, other, name, found, allowed, symbolic⟩
            rw [preferred] at found
            cases found
            exact ⟨allowed, name, symbolic⟩
          · rintro ⟨allowed, name, symbolic⟩
            refine ⟨fun other member class_ => inside ⟨other, member, class_⟩, ?_, region, name,
              preferred, allowed, symbolic⟩
            simpa using outside
        rw [evidenceMayEscape, preferred]
        refine ⟨iff_of_false ?_ notInside, ?_, iff_of_false ?_ (fun all => outside all.2)⟩
        · simp [ObservedMemoryAccess.evidence, MemoryAccessEvidence.Settled]
        · rw [opened]
          simp only [ObservedMemoryAccess.evidence, MemoryAccessEvidence.Conditional, true_and,
            permissionOf_eq_allowed]
          cases literal : region.length with
          | literal length => simp
          | param name => simp
        · simp [ObservedMemoryAccess.evidence]

/-- The kind of an indexed row without a range. -/
theorem judgeIndexedAccess_kind (scale : UInt8) (displacement : Int64) :
    RowKind (judgeIndexedAccess memory access baseParam scale displacement)
      False (PermittedBase memory access.mode baseParam) False := by
  simp only [judgeIndexedAccess]
  generalize s!"{baseParam}+index*{scale.toNat}{Text.signed displacement.toInt}" = address
  by_cases inhabited : memory.candidates baseParam = []
  · have kind := unmatched_kind access address
    simp only [inhabited, preferredRegion, List.find?_nil, List.head?_nil, Option.orElse_none]
    refine ⟨kind.settled, kind.conditional.trans ?_, kind.outside⟩
    simp [PermittedBase, inhabited]
  · obtain ⟨region, preferred, permits⟩ :=
      preferredRegion_some access.mode (memory.candidates baseParam) inhabited
    simp only [preferred]
    refine ⟨?_, ?_, ?_⟩
    · simp [ObservedMemoryAccess.evidence, MemoryAccessEvidence.Settled]
    · simp only [ObservedMemoryAccess.evidence, MemoryAccessEvidence.Conditional, true_and,
        permissionOf_eq_allowed, PermittedBase, ← permits]
      constructor
      · exact fun conditional => conditional.1
      · intro allowed
        refine ⟨allowed, ?_⟩
        rw [(permissionOf_eq_allowed region access.mode).mpr allowed]
        rfl
    · simp [ObservedMemoryAccess.evidence]

/-- The kind of a row of an index range. -/
theorem judgeIndexedRangeAccess_kind (scale : UInt8) (displacement : Int64) (bound : UInt64)
    (addr : access.addr = .indexed baseParam scale displacement none (some bound)) :
    RowKind (judgeIndexedRangeAccess memory access baseParam scale displacement bound)
      (access.Settles memory) (access.LeftOpen memory) False := by
  have indexed := judgeIndexedAccess_kind memory access baseParam scale displacement
  have low := (judgeAffineAccess_kind memory access baseParam displacement).settled
  have high := (judgeAffineAccess_kind memory access baseParam
    (indexOffset (bound - 1) scale displacement)).settled
  simp only [ObservedMemoryAccess.LeftOpen, ObservedMemoryAccess.Settles, addr,
    judgeIndexedRangeAccess]
  split_ifs with empty both
  · refine ⟨indexed.settled.trans ?_, indexed.conditional.trans ?_, indexed.outside⟩
    · simp [empty]
    · simp [empty]
  · obtain ⟨lowInside, highInside, lowAllowed, highAllowed⟩ := both
    have held : bound ≠ 0 ∧ InsideAt memory access.mode access.widthBytes baseParam displacement ∧
        InsideAt memory access.mode access.widthBytes baseParam
          (indexOffset (bound - 1) scale displacement) :=
      ⟨empty, low.mp ⟨lowInside, lowAllowed⟩, high.mp ⟨highInside, highAllowed⟩⟩
    refine ⟨iff_of_true ⟨rfl, rfl⟩ held, iff_of_false ?_ (fun opened => opened.1 held), ?_⟩
    · simp [ObservedMemoryAccess.evidence, MemoryAccessEvidence.Conditional]
    · simp [ObservedMemoryAccess.evidence]
  · have missed : ¬ (bound ≠ 0 ∧
        InsideAt memory access.mode access.widthBytes baseParam displacement ∧
        InsideAt memory access.mode access.widthBytes baseParam
          (indexOffset (bound - 1) scale displacement)) := by
      rintro ⟨_, lowHeld, highHeld⟩
      obtain ⟨lowInside, lowAllowed⟩ := low.mpr lowHeld
      obtain ⟨highInside, highAllowed⟩ := high.mpr highHeld
      exact both ⟨lowInside, highInside, lowAllowed, highAllowed⟩
    refine ⟨indexed.settled.trans ?_, indexed.conditional.trans ?_, indexed.outside⟩
    · exact (iff_false_intro missed).symm
    · exact ⟨fun permitted => ⟨missed, permitted⟩, fun opened => opened.2⟩

/-- The kind of a judged row. -/
theorem judgeAccess_kind (row : MemoryAccessEvidence) (judged : judgeAccess memory access = some row) :
    RowKind row (access.Settles memory) (access.LeftOpen memory) (access.OutsideAll memory) := by
  unfold judgeAccess at judged
  split at judged
  next addr =>
    cases judged
    simp only [ObservedMemoryAccess.LeftOpen, ObservedMemoryAccess.Settles,
      ObservedMemoryAccess.OutsideAll, addr]
    exact unmatched_kind access "unknown"
  next => cases judged
  next baseParam offset addr =>
    cases judged
    simp only [ObservedMemoryAccess.LeftOpen, ObservedMemoryAccess.Settles,
      ObservedMemoryAccess.OutsideAll, addr]
    exact judgeAffineAccess_kind memory access baseParam offset
  next baseParam scale displacement index bound addr =>
    cases judged
    simp only [ObservedMemoryAccess.LeftOpen, ObservedMemoryAccess.Settles,
      ObservedMemoryAccess.OutsideAll, addr]
    exact judgeAffineAccess_kind memory access baseParam _
  next baseParam scale displacement bound addr =>
    cases judged
    have outside : access.OutsideAll memory ↔ False := by
      simp only [ObservedMemoryAccess.OutsideAll, addr]
    have kind := judgeIndexedRangeAccess_kind memory access baseParam scale displacement bound addr
    exact ⟨kind.settled, kind.conditional, kind.outside.trans outside.symm⟩
  next baseParam scale displacement addr =>
    cases judged
    have kind := judgeIndexedAccess_kind memory access baseParam scale displacement
    refine ⟨kind.settled.trans ?_, kind.conditional.trans ?_, kind.outside.trans ?_⟩
    · simp only [ObservedMemoryAccess.Settles, addr]
    · simp only [ObservedMemoryAccess.LeftOpen, ObservedMemoryAccess.Settles, addr, not_false_eq_true,
        true_and]
    · simp only [ObservedMemoryAccess.OutsideAll, addr]

/-- Every access but those of the frame has a row. -/
theorem judgeAccess_some (frame : access.addr ≠ .stackFrame) :
    ∃ row, judgeAccess memory access = some row := by
  unfold judgeAccess
  split
  next => exact ⟨_, rfl⟩
  next addr => exact absurd addr frame
  all_goals exact ⟨_, rfl⟩

/-- Only accesses that are not of the frame have a row. -/
theorem frame_of_judged (row : MemoryAccessEvidence)
    (judged : judgeAccess memory access = some row) : access.addr ≠ .stackFrame := by
  intro addr
  rw [judgeAccess, addr] at judged
  cases judged

end Rows

/-- When the slice passes under preconditions. -/
theorem evaluateRegionAccess_conditional_iff (memory : CheckedMemory)
    (accesses : List ObservedMemoryAccess) :
    (evaluateRegionAccess memory accesses).status = .passedUnderPreconditions ↔
      (∀ access ∈ accesses, access.addr ≠ .stackFrame →
        access.Settles memory ∨ access.LeftOpen memory) ∧
      ∃ access ∈ accesses, access.LeftOpen memory := by
  have rows (row : MemoryAccessEvidence) : row ∈ accesses.filterMap (judgeAccess memory) ↔
      ∃ access ∈ accesses, judgeAccess memory access = some row := List.mem_filterMap
  have status : (evaluateRegionAccess memory accesses).status = .passedUnderPreconditions ↔
      (∀ row ∈ accesses.filterMap (judgeAccess memory), row.Settled ∨ row.Conditional) ∧
        ∃ row ∈ accesses.filterMap (judgeAccess memory), row.Conditional := by
    simp only [evaluateRegionAccess, regionAccessStatus_eq]
    constructor
    · intro conditional
      split_ifs at conditional with refuted undecided obliged
      refine ⟨fun row member => ?_, obliged⟩
      by_contra neither
      obtain ⟨unsettled, unconditional⟩ := not_or.mp neither
      exact undecided ⟨row, member, fun fails => refuted ⟨row, member, fails⟩, unconditional,
        unsettled⟩
    · rintro ⟨each, obliged⟩
      have notRefuted : ¬ ∃ row ∈ accesses.filterMap (judgeAccess memory), row.Refuted := by
        rintro ⟨row, member, refuted⟩
        rcases each row member with settled | conditional
        · simp [MemoryAccessEvidence.Refuted, settled.1, settled.2] at refuted
        · simp [MemoryAccessEvidence.Refuted, conditional.1, conditional.2.1] at refuted
      have notUndecided : ¬ ∃ row ∈ accesses.filterMap (judgeAccess memory), row.Undecided := by
        rintro ⟨row, member, undecided⟩
        rcases each row member with settled | conditional
        · exact undecided.2.2 settled
        · exact undecided.2.1 conditional
      rw [if_neg notRefuted, if_neg notUndecided, if_pos obliged]
  rw [status]
  constructor
  · rintro ⟨each, row, member, conditional⟩
    refine ⟨fun access inList frame => ?_, ?_⟩
    · obtain ⟨own, judged⟩ := judgeAccess_some memory access frame
      have kind := judgeAccess_kind memory access own judged
      exact (each own ((rows own).mpr ⟨access, inList, judged⟩)).imp kind.settled.mp
        kind.conditional.mp
    · obtain ⟨access, inList, judged⟩ := (rows row).mp member
      exact ⟨access, inList, (judgeAccess_kind memory access row judged).conditional.mp conditional⟩
  · rintro ⟨each, access, inList, opened⟩
    refine ⟨fun row member => ?_, ?_⟩
    · obtain ⟨other, otherList, judged⟩ := (rows row).mp member
      have kind := judgeAccess_kind memory other row judged
      exact (each other otherList (frame_of_judged memory other row judged)).imp kind.settled.mpr
        kind.conditional.mpr
    · have frame : access.addr ≠ .stackFrame := by
        intro addr
        simp [ObservedMemoryAccess.LeftOpen, addr] at opened
      obtain ⟨row, judged⟩ := judgeAccess_some memory access frame
      exact ⟨row, (rows row).mpr ⟨access, inList, judged⟩,
        (judgeAccess_kind memory access row judged).conditional.mpr opened⟩

/-- An affine access outside every region reaches none. -/
theorem not_outside_of_room (region : CheckedRegion) (offset : Int64) (width : UInt32)
    (room : region.Room offset.toInt width) : classAt width offset region ≠ .outside := by
  obtain ⟨starts, stops⟩ := room
  have least := min_le_add_length offset width.toUInt64
  have greatest := toInt_le_max offset
  have widened : width.toUInt64.toNat = width.toNat := by simp
  unfold classAt classifyVsRegion
  cases literal : region.length with
  | literal length =>
    simp only [literal] at stops
    have inner := min_le_add_length region.offset length
    have within : offset ≥ region.offset ∧ saturatingAddUnsigned offset width.toUInt64 ≤
        saturatingAddUnsigned region.offset length := by
      simp only [ge_iff_le, Int64.le_iff_toInt_le, toInt_saturatingAddUnsigned, widened]
      refine ⟨starts, ?_⟩
      rw [widened] at least
      rw [clamp_eq_min least, clamp_eq_min inner]
      omega
    simp only [within, if_true, and_self]
    simp
  | param name =>
    simp only
    split_ifs with begins below
    · simp
    · simp only [Int64.le_iff_toInt_le, toInt_saturatingAddUnsigned, widened] at below
      rw [widened] at least
      rw [clamp_eq_min least] at below
      have same : offset = region.offset := Int64.toInt_inj.mp (by omega)
      exact absurd same begins
    · simp

/-- The caller can meet a slice that passes under preconditions, and what is refuted is
impossible, exactly when every access left open reaches a region.

Proof: region lengths only help, so one assignment of vast lengths places every access that
reaches a region; the least index that reaches the region's start is the best. -/
theorem evaluateRegionAccess_realizable_iff (memory : CheckedMemory)
    (accesses : List ObservedMemoryAccess) :
    Realizable memory accesses ↔ Reachable memory accesses := by
  constructor
  · intro realizable
    refine ⟨fun each opened access member frame => ?_, fun access member seems region declared
      reaches => ?_⟩
    · obtain ⟨assignment, _, placed⟩ := realizable.placed
        ((evaluateRegionAccess_conditional_iff memory accesses).mpr ⟨each, opened⟩)
      obtain ⟨region, declared, permitted, inside⟩ := placed access member frame
      exact ⟨region, declared, permitted, reaches_of_placed assignment access region inside⟩
    · have outside : access.OutsideAll memory := by
        unfold ObservedMemoryAccess.SeemsOutside at seems
        unfold ObservedMemoryAccess.OutsideAll
        split at seems
        next addr =>
          simp only [addr]
          exact seems
        next => exact seems.elim
      have frame : access.addr ≠ .stackFrame := by
        intro addr
        simp [ObservedMemoryAccess.OutsideAll, addr] at outside
      obtain ⟨row, judged⟩ := judgeAccess_some memory access frame
      exact realizable.outside access member row judged
        ((judgeAccess_kind memory access row judged).outside.mpr outside) vast vast_nonNegative
        region declared (placed_of_reaches access region reaches)
  · intro reachable
    refine ⟨fun conditional => ?_, fun access member row judged bounds assignment _ region declared
      placed => ?_⟩
    · obtain ⟨each, opened⟩ := (evaluateRegionAccess_conditional_iff memory accesses).mp conditional
      refine ⟨vast, vast_nonNegative, fun access member frame => ?_⟩
      obtain ⟨region, declared, permitted, reaches⟩ :=
        reachable.placed each opened access member frame
      exact ⟨region, declared, permitted, placed_of_reaches access region reaches⟩
    · have reaches := reaches_of_placed assignment access region placed
      have outside := (judgeAccess_kind memory access row judged).outside.mp bounds
      cases addr : access.addr with
      | affine baseParam offset =>
        simp only [ObservedMemoryAccess.OutsideAll, addr] at outside
        simp only [ObservedMemoryAccess.Reaches, addr] at reaches
        obtain ⟨base, room⟩ := reaches
        have candidate : region ∈ memory.candidates baseParam :=
          List.mem_filter.mpr ⟨declared, by simp [base]⟩
        exact not_outside_of_room region offset access.widthBytes room
          (outside.2 region candidate)
      | indexed baseParam scale displacement indexConst bound =>
        cases indexConst with
        | some index =>
          have seems : access.SeemsOutside memory := by
            simp only [ObservedMemoryAccess.OutsideAll, addr] at outside
            simp only [ObservedMemoryAccess.SeemsOutside, addr]
            exact outside
          exact reachable.outside access member seems region declared reaches
        | none => simp [ObservedMemoryAccess.OutsideAll, addr] at outside
      | stackFrame => simp [ObservedMemoryAccess.OutsideAll, addr] at outside
      | unknown => simp [ObservedMemoryAccess.OutsideAll, addr] at outside

/-- One region of symbolic length that starts behind its parameter. -/
def behindPointer : CheckedMemory where
  regions := [⟨"buf", "p", 16, .param "n", .read⟩]
  relations := []

/-- A load of four bytes that begins before the region does. -/
def straddlingLoad : ObservedMemoryAccess where
  mode := .load
  widthBytes := 4
  addr := .affine "p" 14
  mnemonic := "mov"
  instructionOffset := 0

/-- No length puts a load that begins before the region inside it. -/
theorem straddlingLoad_passes :
    Accepted behindPointer ∧
      (evaluateRegionAccess behindPointer [straddlingLoad]).status = .passedUnderPreconditions ∧
      ¬ Realizable behindPointer [straddlingLoad] := by
  have status : (evaluateRegionAccess behindPointer [straddlingLoad]).status =
      .passedUnderPreconditions := by decide
  refine ⟨⟨⟨[⟨"buf", "p", some "16", "n", "read"⟩], []⟩,
    [⟨"p", .ptr (.uint 8) true, none⟩, ⟨"n", .uint 64, none⟩], by decide⟩, status, ?_⟩
  intro realizable
  obtain ⟨assignment, _, placed⟩ := realizable.placed status
  obtain ⟨region, declared, _, index, baseParam, offset, _, address, _, inside⟩ :=
    placed straddlingLoad (List.mem_singleton.mpr rfl) (by simp [straddlingLoad])
  obtain rfl := List.mem_singleton.mp declared
  obtain ⟨rfl, rfl⟩ : "p" = baseParam ∧ (14 : Int) = offset := by
    simpa [straddlingLoad, AccessAddr.offsetAt] using address
  have begins : assignment.base "p" + 16 ≤ assignment.base "p" + 14 := inside.1
  omega

end Semasm.Contract
