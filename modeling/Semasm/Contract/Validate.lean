import Semasm.Contract.Checked
import Semasm.Text

/-!
# Validation of the memory block

Validation reads the region declarations in order, then the relation
declarations. A declaration that fails a check leaves one diagnostic and is
dropped; every region name counts as declared, whether or not its region
passed. A document whose diagnostics contain an error has no checked contract,
so an accepted block is one validated without diagnostics: its region names are
distinct and each of its relations names two declared regions.
-/

namespace Semasm.Contract

/-- A region declaration as parsed from the document. -/
structure MemoryRegionSchema where
  name : String
  base : String
  offset : Option String
  length : String
  access : String

/-- A relation declaration as parsed from the document. -/
structure MemoryRelationSchema where
  left : String
  right : String
  require : String
  basis : Option String

/-- The `[function.memory]` block as parsed from the document. -/
structure MemoryBlockSchema where
  regions : List MemoryRegionSchema
  relations : List MemoryRelationSchema

/-- An error diagnostic. -/
structure Diagnostic where
  code : String
  message : String
deriving DecidableEq, Repr

/-- The code of every memory-block diagnostic. -/
def ctr008 (message : String) : Diagnostic := ⟨"CTR008", message⟩

/-- `parse_u64_literal`, on characters. -/
def parseU64LiteralChars (raw : List Char) : Option UInt64 :=
  let digits := Text.trimChars raw
  if digits.isEmpty || !Text.allAsciiDigits digits then none
  else Text.parseU64 10 digits

/-- `parse_u64_literal`. -/
def parseU64Literal (raw : String) : Option UInt64 := parseU64LiteralChars raw.toList

/-- `i64::try_from` of an unsigned literal. -/
def tryI64 (value : UInt64) : Option Int64 :=
  if value.toNat < 2 ^ 63 then some (Int64.ofInt value.toNat) else none

/-- `parse_i64_literal`. The least value of the type has no literal. -/
def parseI64Literal (raw : String) : Option Int64 :=
  match Text.trimChars raw.toList with
  | '-' :: rest => ((parseU64LiteralChars rest).bind tryI64).map (fun value => -value)
  | digits => (parseU64LiteralChars digits).bind tryI64

/-- `parse_length_spec`. A decimal literal is tried before a parameter name. -/
def parseLengthSpec (raw : String) (parameters : List CheckedParam) : Except String LengthSpec :=
  match parseU64Literal raw with
  | some literal => .ok (.literal literal)
  | none =>
    match parameters.find? (fun param => param.name == raw) with
    | none => .error s!"length `{raw}` must be an integer parameter or decimal literal"
    | some param =>
      if param.ty.isInteger then .ok (.param raw)
      else .error s!"length parameter `{raw}` must be an integer type"

/-- The offset of a region declaration; none and the two spelled zeros are zero. -/
def parseOffset (region : MemoryRegionSchema) : Except String Int64 :=
  match region.offset with
  | none => .ok 0
  | some raw =>
    if raw = "" ∨ raw = "0" then .ok 0
    else
      match parseI64Literal raw with
      | some value => .ok value
      | none =>
        .error s!"memory region `{region.name}`: offset `{raw}` must be a decimal literal"

/-- The checks on one region declaration, in the order of the source. -/
def checkRegion (parameters : List CheckedParam) (declared : List String)
    (region : MemoryRegionSchema) : Except String CheckedRegion := do
  if region.name ∈ declared then
    throw s!"duplicate memory region `{region.name}`"
  match parameters.find? (fun param => param.name == region.base) with
  | none => throw s!"memory region `{region.name}`: base `{region.base}` is not a parameter"
  | some base =>
    if !base.ty.isPtr then
      throw s!"memory region `{region.name}`: base `{region.base}` must be a pointer parameter"
    let offset ← parseOffset region
    match parseLengthSpec region.length parameters with
    | .error message => throw s!"memory region `{region.name}`: {message}"
    | .ok length =>
      match RegionAccess.parse region.access with
      | none =>
        throw (s!"memory region `{region.name}`: access `{region.access}` must be " ++
          "read|write|read_write")
      | some access => return ⟨region.name, region.base, offset, length, access⟩

/-- The checks on one relation declaration. -/
def checkRelation (declared : List String) (relation : MemoryRelationSchema) :
    Except String CheckedRelation := do
  if relation.left ∉ declared ∨ relation.right ∉ declared then
    throw (s!"memory relation `{relation.left}`/`{relation.right}`: endpoints must name " ++
      "declared regions")
  match RelationRequire.parse relation.require with
  | none =>
    throw (s!"memory relation `{relation.left}`/`{relation.right}`: require " ++
      s!"`{relation.require}` must be disjoint|equal|contains")
  | some require =>
    match relation.basis with
    | none => return ⟨relation.left, relation.right, require, none⟩
    | some raw =>
      match RelationBasisDecl.parse raw with
      | some basis => return ⟨relation.left, relation.right, require, some basis⟩
      | none =>
        throw (s!"memory relation `{relation.left}`/`{relation.right}`: basis `{raw}` must be " ++
          "precondition")

/-- Check the region declarations that remain, given the names declared so far. -/
def checkRegions (parameters : List CheckedParam) :
    List String → List MemoryRegionSchema → List CheckedRegion × List Diagnostic
  | _, [] => ([], [])
  | declared, region :: rest =>
    let (regions, diagnostics) := checkRegions parameters (region.name :: declared) rest
    match checkRegion parameters declared region with
    | .ok checked => (checked :: regions, diagnostics)
    | .error message => (regions, ctr008 message :: diagnostics)

/-- Check the relation declarations. -/
def checkRelations (declared : List String) :
    List MemoryRelationSchema → List CheckedRelation × List Diagnostic
  | [] => ([], [])
  | relation :: rest =>
    let (relations, diagnostics) := checkRelations declared rest
    match checkRelation declared relation with
    | .ok checked => (checked :: relations, diagnostics)
    | .error message => (relations, ctr008 message :: diagnostics)

/-- `check_memory`, with the diagnostics it pushes. -/
def checkMemory (memory : Option MemoryBlockSchema) (parameters : List CheckedParam) :
    Option CheckedMemory × List Diagnostic :=
  match memory with
  | none => (none, [])
  | some block =>
    let (regions, regionDiagnostics) := checkRegions parameters [] block.regions
    let (relations, relationDiagnostics) :=
      checkRelations (block.regions.map (·.name)) block.relations
    (some ⟨regions, relations⟩, regionDiagnostics ++ relationDiagnostics)

/-- A checked block that some document validates to without diagnostics. -/
def Accepted (memory : CheckedMemory) : Prop :=
  ∃ block parameters, checkMemory (some block) parameters = (some memory, [])

/-- A region that passes its checks keeps its name, and the name is new. -/
theorem checkRegion_name (parameters : List CheckedParam) (declared : List String)
    (region : MemoryRegionSchema) (checked : CheckedRegion)
    (passed : checkRegion parameters declared region = .ok checked) :
    checked.name = region.name ∧ region.name ∉ declared := by
  unfold checkRegion at passed
  by_cases repeated : region.name ∈ declared
  · simp [repeated, throw, throwThe, MonadExceptOf.throw, bind, Except.bind] at passed
  · refine ⟨?_, repeated⟩
    simp only [repeated, if_false] at passed
    split at passed
    · cases passed
    · split at passed
      · cases passed
      · simp only [bind, Except.bind] at passed
        split at passed
        · cases passed
        · simp only [pure, Except.pure] at passed
          split at passed
          · cases passed
          · split at passed
            · cases passed
            · cases passed
              rfl

/-- Without diagnostics every declared region is kept, under its own new name. -/
theorem checkRegions_names (parameters : List CheckedParam) (declared : List String)
    (schemas : List MemoryRegionSchema) (regions : List CheckedRegion)
    (passed : checkRegions parameters declared schemas = (regions, [])) :
    regions.map (·.name) = schemas.map (·.name) ∧ (schemas.map (·.name)).Nodup ∧
      ∀ name ∈ schemas.map (·.name), name ∉ declared := by
  induction schemas generalizing declared regions with
  | nil =>
    simp only [checkRegions] at passed
    cases passed
    simp
  | cons schema rest inductionHypothesis =>
    simp only [checkRegions] at passed
    split at passed
    next checked accepted =>
      have tail := inductionHypothesis (schema.name :: declared)
        (checkRegions parameters (schema.name :: declared) rest).1
        (Prod.ext rfl (Prod.mk.inj passed).2)
      obtain ⟨names, distinct, fresh⟩ := tail
      obtain ⟨kept, unused⟩ := checkRegion_name parameters declared schema checked accepted
      rw [← (Prod.mk.inj passed).1]
      refine ⟨by simp [kept, names], ?_, ?_⟩
      · rw [List.map_cons, List.nodup_cons]
        refine ⟨fun repeated => ?_, distinct⟩
        exact fresh schema.name repeated (List.mem_cons_self ..)
      · intro name member
        rcases List.mem_cons.mp member with same | later
        · exact same ▸ unused
        · exact fun earlier => fresh name later (List.mem_cons_of_mem _ earlier)
    next message refused =>
      exact absurd (Prod.mk.inj passed).2 (by simp)

/-- A relation that passes its checks names two declared regions. -/
theorem checkRelation_endpoints (declared : List String) (relation : MemoryRelationSchema)
    (checked : CheckedRelation) (passed : checkRelation declared relation = .ok checked) :
    checked.left ∈ declared ∧ checked.right ∈ declared := by
  unfold checkRelation at passed
  by_cases missing : relation.left ∉ declared ∨ relation.right ∉ declared
  · simp [missing, throw, throwThe, MonadExceptOf.throw, bind, Except.bind] at passed
  · have both : relation.left ∈ declared ∧ relation.right ∈ declared := by
      simpa [not_or] using missing
    simp only [missing, if_false] at passed
    split at passed
    · cases passed
    · split at passed
      · cases passed
        exact both
      · split at passed
        · cases passed
          exact both
        · cases passed

theorem checkRelations_endpoints (declared : List String) (schemas : List MemoryRelationSchema)
    (relation : CheckedRelation) (member : relation ∈ (checkRelations declared schemas).1) :
    relation.left ∈ declared ∧ relation.right ∈ declared := by
  induction schemas with
  | nil => simp [checkRelations] at member
  | cons schema rest inductionHypothesis =>
    simp only [checkRelations] at member
    split at member
    next checked accepted =>
      rcases List.mem_cons.mp member with same | later
      · exact same ▸ checkRelation_endpoints declared schema checked accepted
      · exact inductionHypothesis later
    next => exact inductionHypothesis member

/-- An accepted block has distinct region names. -/
theorem Accepted.nodup {memory : CheckedMemory} (accepted : Accepted memory) :
    (memory.regions.map (·.name)).Nodup := by
  obtain ⟨block, parameters, checked⟩ := accepted
  simp only [checkMemory] at checked
  obtain ⟨same, silent⟩ := Prod.mk.inj checked
  obtain ⟨names, distinct, _⟩ := checkRegions_names parameters [] block.regions _
    (Prod.ext rfl (List.append_eq_nil_iff.mp silent).1)
  rw [← Option.some.inj same, names]
  exact distinct

/-- In an accepted block both regions of a relation are declared. -/
theorem Accepted.endpoints {memory : CheckedMemory} (accepted : Accepted memory)
    {relation : CheckedRelation} (member : relation ∈ memory.relations) :
    (∃ region, memory.region? relation.left = some region) ∧
      ∃ region, memory.region? relation.right = some region := by
  obtain ⟨block, parameters, checked⟩ := accepted
  simp only [checkMemory] at checked
  obtain ⟨same, silent⟩ := Prod.mk.inj checked
  obtain ⟨names, _, _⟩ := checkRegions_names parameters [] block.regions _
    (Prod.ext rfl (List.append_eq_nil_iff.mp silent).1)
  have declared (name : String) (mem : name ∈ block.regions.map (·.name)) :
      ∃ region, memory.region? name = some region := by
    rw [← names] at mem
    obtain ⟨region, inRegions, named⟩ := List.mem_map.mp mem
    rw [← Option.some.inj same]
    refine Option.isSome_iff_exists.mp (List.find?_isSome.mpr ⟨region, inRegions, ?_⟩)
    simp [named]
  rw [← Option.some.inj same] at member
  obtain ⟨left, right⟩ := checkRelations_endpoints _ _ _ member
  exact ⟨declared _ left, declared _ right⟩

end Semasm.Contract
