import Semasm.Contract.RegionAccess
import Semasm.Contract.Atoms

/-!
# What an inside judgement says about memory

An assignment of the parameters and an index value give an access an exact range
of addresses. An inside judgement should place that range, for every assignment
and every index the recorded facts admit, in one declared region that permits
the access. The judgement itself is made on saturated numbers and, for a range
of indices, on the two ends of the range only, so it is right exactly when each
admitted index fits on the exact numbers.
-/

namespace Semasm.Contract

open Library Library.Saturation

namespace AccessAddr

/-- The index values consistent with the facts recorded on the address. -/
def Admits : AccessAddr → UInt64 → Prop
  | .indexed _ _ _ indexConst indexMaxExclusive, index =>
    (∀ value, indexConst = some value → index = value) ∧
      ∀ bound, indexMaxExclusive = some bound → index < bound
  | _, _ => True

/-- The base parameter and the exact offset of the address for an index value. -/
def offsetAt : AccessAddr → UInt64 → Option (String × Int)
  | .affine baseParam offset, _ => some (baseParam, offset.toInt)
  | .indexed baseParam scale displacement _ _, index =>
    some (baseParam, index.toNat * scale.toNat + displacement.toInt)
  | .stackFrame, _ | .unknown, _ => none

end AccessAddr

/-- The exact addresses of a number of bytes at an offset from a base parameter. -/
def accessSpan (assignment : Assignment) (baseParam : String) (offset : Int) (width : UInt32) :
    Span Int :=
  ⟨assignment.base baseParam + offset, assignment.base baseParam + offset + width.toNat⟩

/-- Every byte of the access lies in one region that permits it, whatever the
parameters and the admitted index. -/
def InsideHolds (memory : CheckedMemory) (access : ObservedMemoryAccess) : Prop :=
  ∀ assignment index baseParam offset, access.addr.Admits index →
    access.addr.offsetAt index = some (baseParam, offset) →
    ∃ region ∈ memory.regions, accessAllowed region.access access.mode ∧
      (region.span assignment).Covers (accessSpan assignment baseParam offset access.widthBytes)

/-- The region permits the mode and its literal length reaches the exact range. -/
def CheckedRegion.Fits (region : CheckedRegion) (mode : AccessMode) (baseParam : String)
    (offset : Int) (width : UInt32) : Prop :=
  region.baseParam = baseParam ∧ accessAllowed region.access mode ∧
    ∃ length, region.length = .literal length ∧ region.offset.toInt ≤ offset ∧
      offset + width.toNat ≤ region.offset.toInt + length.toNat

/-- Each admitted index fits a region, computed without saturation. -/
def FitsExactly (memory : CheckedMemory) (access : ObservedMemoryAccess) : Prop :=
  access.widthBytes = 0 ∨
    ∀ index baseParam offset, access.addr.Admits index →
      access.addr.offsetAt index = some (baseParam, offset) →
      ∃ region ∈ memory.regions, region.Fits access.mode baseParam offset access.widthBytes

/-- The reported region is one of those offered. -/
theorem preferredRegion_mem (mode : AccessMode) (regions : List CheckedRegion)
    (region : CheckedRegion) (preferred : preferredRegion mode regions = some region) :
    region ∈ regions := by
  unfold preferredRegion at preferred
  cases found : regions.find? (fun region => accessAllowed region.access mode) with
  | some first =>
    rw [found] at preferred
    cases preferred
    exact List.mem_of_find?_eq_some found
  | none =>
    rw [found] at preferred
    exact List.mem_of_mem_head? preferred

theorem permissionOf_eq_allowed (region : CheckedRegion) (mode : AccessMode) :
    permissionOf region mode = .allowed ↔ accessAllowed region.access mode = true := by
  unfold permissionOf
  split_ifs with permitted
  · simp [permitted]
  · simp [permitted]

/-- The saturated comparison that puts an access inside a region. -/
theorem classifyVsRegion_inside (region : CheckedRegion) (accessLo accessHi : Int64)
    (inside : classifyVsRegion region accessLo accessHi = .inside) :
    ∃ length, region.length = .literal length ∧ region.offset.toInt ≤ accessLo.toInt ∧
      accessHi.toInt ≤ clamp (region.offset.toInt + length.toNat) := by
  simp only [classifyVsRegion] at inside
  split at inside
  next length literal =>
    refine ⟨length, literal, ?_⟩
    split_ifs at inside with within
    rw [← toInt_saturatingAddUnsigned]
    exact ⟨Int64.le_iff_toInt_le.mp within.1, Int64.le_iff_toInt_le.mp within.2⟩
  next => split_ifs at inside

/-- A row that reports an inside proof and permits it names a permitting region. -/
theorem evidenceProvenInside_allowed (access : ObservedMemoryAccess) (address : String)
    (inside : List CheckedRegion)
    (allowed : (evidenceProvenInside access address inside).permission = .allowed) :
    ∃ region ∈ inside, accessAllowed region.access access.mode := by
  unfold evidenceProvenInside at allowed
  split at allowed
  · cases allowed
  next region preferred =>
    exact ⟨region, preferredRegion_mem _ _ _ preferred, (permissionOf_eq_allowed _ _).mp allowed⟩

/-- A row that may escape reports no inside proof. -/
theorem evidenceMayEscape_bounds (access : ObservedMemoryAccess) (address : String)
    (candidates : List CheckedRegion) :
    (evidenceMayEscape access address candidates).bounds ≠ .provenInside := by
  unfold evidenceMayEscape
  split <;> simp [ObservedMemoryAccess.unmatched, ObservedMemoryAccess.evidence]

/-- The region contains the saturated range at the offset and permits the mode. -/
def CheckedRegion.Seems (region : CheckedRegion) (mode : AccessMode) (baseParam : String)
    (offset : Int64) (width : UInt32) : Prop :=
  region.baseParam = baseParam ∧ accessAllowed region.access mode ∧
    ∃ length, region.length = .literal length ∧ region.offset.toInt ≤ offset.toInt ∧
      clamp (offset.toInt + width.toNat) ≤ clamp (region.offset.toInt + length.toNat)

/-- An affine access judged inside and allowed has a region that permits it and
contains its saturated range. -/
theorem judgeAffineAccess_inside (memory : CheckedMemory) (access : ObservedMemoryAccess)
    (baseParam : String) (offset : Int64)
    (inside : (judgeAffineAccess memory access baseParam offset).bounds = .provenInside)
    (allowed : (judgeAffineAccess memory access baseParam offset).permission = .allowed) :
    ∃ region ∈ memory.regions, region.Seems access.mode baseParam offset access.widthBytes := by
  simp only [judgeAffineAccess] at inside allowed
  generalize (if offset = 0 then baseParam else s!"{baseParam}{Text.signed offset.toInt}") =
    address at inside allowed
  by_cases unmatched : (memory.candidates baseParam).isEmpty
  · rw [if_pos unmatched] at inside
    cases inside
  · rw [if_neg unmatched] at inside allowed
    split_ifs at inside allowed with some_ outside
    · obtain ⟨region, member, permitted⟩ := evidenceProvenInside_allowed _ _ _ allowed
      obtain ⟨candidate, class_⟩ := List.mem_filter.mp member
      obtain ⟨declared, base⟩ := List.mem_filter.mp candidate
      obtain ⟨length, literal, starts, stops⟩ := classifyVsRegion_inside region _ _
        (of_decide_eq_true class_)
      refine ⟨region, declared, by simpa using base, permitted, length, literal, starts, ?_⟩
      simpa using stops
    · cases inside
    · exact absurd inside (evidenceMayEscape_bounds _ _ _)

/-- An indexed access without a range is never judged inside. -/
theorem judgeIndexedAccess_bounds (memory : CheckedMemory) (access : ObservedMemoryAccess)
    (baseParam : String) (scale : UInt8) (displacement : Int64) :
    (judgeIndexedAccess memory access baseParam scale displacement).bounds ≠ .provenInside := by
  simp only [judgeIndexedAccess]
  split <;> simp [ObservedMemoryAccess.unmatched, ObservedMemoryAccess.evidence]

/-- A range judged inside and allowed has both of its ends in a permitting region. -/
theorem judgeIndexedRangeAccess_inside (memory : CheckedMemory) (access : ObservedMemoryAccess)
    (baseParam : String) (scale : UInt8) (displacement : Int64) (maxExclusive : UInt64)
    (inside : (judgeIndexedRangeAccess memory access baseParam scale displacement
      maxExclusive).bounds = .provenInside) :
    maxExclusive ≠ 0 ∧
      (∃ region ∈ memory.regions,
        region.Seems access.mode baseParam displacement access.widthBytes) ∧
      ∃ region ∈ memory.regions, region.Seems access.mode baseParam
        (indexOffset (maxExclusive - 1) scale displacement) access.widthBytes := by
  simp only [judgeIndexedRangeAccess] at inside
  split_ifs at inside with empty both
  · exact absurd inside (judgeIndexedAccess_bounds _ _ _ _ _)
  · obtain ⟨lowInside, highInside, lowAllowed, highAllowed⟩ := both
    exact ⟨empty, judgeAffineAccess_inside _ _ _ _ lowInside lowAllowed,
      judgeAffineAccess_inside _ _ _ _ highInside highAllowed⟩
  · exact absurd inside (judgeIndexedAccess_bounds _ _ _ _ _)

/-- An access judged inside and allowed has some region that permits it. -/
theorem judgeAccess_permitted (memory : CheckedMemory) (access : ObservedMemoryAccess)
    (row : MemoryAccessEvidence) (judged : judgeAccess memory access = some row)
    (inside : row.bounds = .provenInside) (allowed : row.permission = .allowed) :
    ∃ region ∈ memory.regions, accessAllowed region.access access.mode := by
  unfold judgeAccess at judged
  split at judged
  · cases judged
    cases inside
  · cases judged
  next baseParam offset _ =>
    cases judged
    obtain ⟨region, declared, _, permitted, _⟩ := judgeAffineAccess_inside _ _ _ _ inside allowed
    exact ⟨region, declared, permitted⟩
  next baseParam scale displacement index _ _ =>
    cases judged
    obtain ⟨region, declared, _, permitted, _⟩ := judgeAffineAccess_inside _ _ _ _ inside allowed
    exact ⟨region, declared, permitted⟩
  next baseParam scale displacement bound _ =>
    cases judged
    obtain ⟨_, ⟨region, declared, _, permitted, _⟩, _⟩ :=
      judgeIndexedRangeAccess_inside _ _ _ _ _ _ inside
    exact ⟨region, declared, permitted⟩
  · cases judged
    exact absurd inside (judgeIndexedAccess_bounds _ _ _ _ _)

/-- Offsets of 64-bit indices with 8-bit scales stay well below the addresses of
a distant base. -/
theorem offsetAt_lt (addr : AccessAddr) (index : UInt64) (baseParam : String) (offset : Int)
    (at_ : addr.offsetAt index = some (baseParam, offset)) : offset < 2 ^ 80 := by
  cases addr with
  | affine param displacement =>
    cases at_
    have bound := displacement.toInt_lt
    omega
  | indexed param scale displacement indexConst indexMaxExclusive =>
    cases at_
    have bound := displacement.toInt_lt
    have product : index.toNat * scale.toNat ≤ 2 ^ 64 * 2 ^ 8 :=
      Nat.mul_le_mul index.toNat_lt.le scale.toNat_lt.le
    have cast : (index.toNat * scale.toNat : Int) = ((index.toNat * scale.toNat : Nat) : Int) := by
      simp
    omega
  | stackFrame => cases at_
  | unknown => cases at_

/-- The base of the access at address zero, every other base far away, and no
bytes behind a symbolic length. -/
def isolated (baseParam : String) : Assignment where
  base := fun name => if name = baseParam then 0 else 2 ^ 100
  length := fun _ => 0

/-- A region that holds a nonempty range under the isolating assignment fits it. -/
theorem fits_of_covers (region : CheckedRegion) (mode : AccessMode) (baseParam : String)
    (offset : Int) (width : UInt32) (small : offset < 2 ^ 80) (some_ : width ≠ 0)
    (permitted : accessAllowed region.access mode)
    (covers : (region.span (isolated baseParam)).Covers
      (accessSpan (isolated baseParam) baseParam offset width)) :
    region.Fits mode baseParam offset width := by
  have positive : 0 < width.toNat := by
    rcases Nat.eq_zero_or_pos width.toNat with zero | positive
    · exact absurd (UInt32.toNat_inj.mp zero) some_
    · exact positive
  have ends := (Span.covers_iff (by simp only [accessSpan]; omega)).mp covers
  simp only [CheckedRegion.span, accessSpan, isolated, if_true] at ends
  have lower := min_le_toInt region.offset
  unfold minI64 at lower
  by_cases sameBase : region.baseParam = baseParam
  · rw [if_pos sameBase] at ends
    cases literal : region.length with
    | literal length =>
      rw [literal] at ends
      simp only [LengthSpec.bytes] at ends
      exact ⟨sameBase, permitted, length, literal, by omega, by omega⟩
    | param name =>
      rw [literal] at ends
      simp only [LengthSpec.bytes] at ends
      omega
  · rw [if_neg sameBase] at ends
    omega

/-- A fitting region holds the range under every assignment. -/
theorem covers_of_fits (region : CheckedRegion) (mode : AccessMode) (baseParam : String)
    (offset : Int) (width : UInt32) (assignment : Assignment)
    (fits : region.Fits mode baseParam offset width) :
    (region.span assignment).Covers (accessSpan assignment baseParam offset width) := by
  obtain ⟨sameBase, _, length, literal, starts, stops⟩ := fits
  refine Span.covers_of_le ?_ ?_
  · simp only [CheckedRegion.span, accessSpan, sameBase]
    omega
  · simp only [CheckedRegion.span, accessSpan, sameBase, literal, LengthSpec.bytes]
    omega

/-- Without saturation at the end of the access the saturated check is exact. -/
theorem fits_of_seems (region : CheckedRegion) (mode : AccessMode) (baseParam : String)
    (offset : Int64) (width : UInt32) (unsaturated : offset.toInt + width.toNat ≤ maxI64)
    (seems : region.Seems mode baseParam offset width) :
    region.Fits mode baseParam offset.toInt width := by
  obtain ⟨sameBase, permitted, length, literal, starts, stops⟩ := seems
  refine ⟨sameBase, permitted, length, literal, starts, ?_⟩
  have lower := min_le_toInt offset
  have regionLower := min_le_add_length region.offset length
  rw [clamp_of_mem (by omega) unsaturated, clamp_eq_min regionLower] at stops
  omega

/-- A region that fits both ends of a range fits every offset between them. -/
theorem fits_between (region : CheckedRegion) (mode : AccessMode) (baseParam : String)
    (low high offset : Int) (width : UInt32) (above : low ≤ offset) (below : offset ≤ high)
    (fitsLow : region.Fits mode baseParam low width)
    (fitsHigh : region.Fits mode baseParam high width) :
    region.Fits mode baseParam offset width := by
  obtain ⟨sameBase, permitted, length, literal, starts, _⟩ := fitsLow
  obtain ⟨_, _, other, same, _, stops⟩ := fitsHigh
  have one : other = length := by
    rw [literal] at same
    exact (LengthSpec.literal.inj same).symm
  exact ⟨sameBase, permitted, length, literal, by omega, by rw [one] at stops; omega⟩

/-- The range access judged on two ends fits when one region fits both on the
exact numbers. -/
theorem fitsExactly_of_one_region (memory : CheckedMemory) (access : ObservedMemoryAccess)
    (baseParam : String) (scale : UInt8) (displacement : Int64) (bound : UInt64)
    (region : CheckedRegion) (declared : region ∈ memory.regions)
    (address : access.addr = .indexed baseParam scale displacement none (some bound))
    (fitsLow : region.Fits access.mode baseParam displacement.toInt access.widthBytes)
    (fitsHigh : region.Fits access.mode baseParam
      (((bound.toNat - 1) * scale.toNat : Nat) + displacement.toInt) access.widthBytes) :
    FitsExactly memory access := by
  refine Or.inr (fun index param offset admits at_ => ?_)
  rw [address] at admits at_
  cases at_
  have below : index.toNat < bound.toNat := UInt64.lt_iff_toNat_lt.mp (admits.2 bound rfl)
  have product : index.toNat * scale.toNat ≤ (bound.toNat - 1) * scale.toNat :=
    Nat.mul_le_mul_right _ (by omega)
  have cast : (index.toNat * scale.toNat : Int) = ((index.toNat * scale.toNat : Nat) : Int) := by
    simp
  exact ⟨region, declared, fits_between region _ _ _ _ _ _ (by omega) (by omega) fitsLow fitsHigh⟩

/-- Four writable bytes, a gap of four, and four writable bytes. -/
def gapped : CheckedMemory where
  regions := [⟨"head", "p", 0, .literal 4, .readWrite⟩, ⟨"tail", "p", 8, .literal 4, .readWrite⟩]
  relations := []

/-- A store of four bytes at one of the first three words. -/
def wordStore : ObservedMemoryAccess where
  mode := .store
  widthBytes := 4
  addr := .indexed "p" 4 0 none (some 3)
  mnemonic := "mov"
  instructionOffset := 0

end Semasm.Contract
