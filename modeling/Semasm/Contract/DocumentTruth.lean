import Mathlib.Data.List.Forall2
import Mathlib.Tactic.SplitIfs
import Semasm.Contract.Alias
import Semasm.Contract.Document

/-!
# What an accepted contract is

A document is accepted when no pass pushed an error. Each pass without errors
kept everything it was given, so what the passes checked holds of the whole
document: the names are unique where they must be, every reference resolves, and
the alias engine finds both regions of every relation.
-/

namespace Semasm.Contract

/-- What a checked region keeps of its declaration. -/
def RegionKept (schema : MemoryRegionSchema) (region : CheckedRegion) : Prop :=
  region.name = schema.name ∧ region.baseParam = schema.base ∧
    parseOffset schema = .ok region.offset ∧
    RegionAccess.parse schema.access = some region.access

/-- What a checked relation keeps of its declaration. -/
def RelationKept (schema : MemoryRelationSchema) (relation : CheckedRelation) : Prop :=
  relation.left = schema.left ∧ relation.right = schema.right ∧
    RelationRequire.parse schema.require = some relation.require ∧
    schema.basis.map RelationBasisDecl.parse = relation.basis.map some

/-- What is kept of the memory block, if there is one. -/
def MemoryKept (schema : Option MemoryBlockSchema) (checked : Option CheckedMemory) : Prop :=
  match schema with
  | none => checked = none
  | some block => ∃ memory, checked = some memory ∧
      List.Forall₂ RegionKept block.regions memory.regions ∧
      List.Forall₂ RelationKept block.relations memory.relations

/-- A memory block whose references resolve among the parameters and its own regions. -/
structure CheckedMemory.WellFormed (memory : CheckedMemory) (parameters : List CheckedParam) :
    Prop where
  distinct : (memory.regions.map (·.name)).Nodup
  bases : ∀ region ∈ memory.regions,
    ∃ param ∈ parameters, param.name = region.baseParam ∧ param.ty.isPtr = true
  lengths : ∀ region ∈ memory.regions, ∀ name, region.length = .param name →
    ∃ param ∈ parameters, param.name = name ∧ param.ty.isInteger = true
  endpoints : ∀ relation ∈ memory.relations,
    (∃! region, region ∈ memory.regions ∧ region.name = relation.left) ∧
      ∃! region, region ∈ memory.regions ∧ region.name = relation.right

/-- The names an expression of the contract may use. -/
def CheckedContract.declaredNames (contract : CheckedContract) : List String :=
  contract.parameters.map (·.name) ++ contract.returns.map (·.name) ++
    "regions" :: (contract.memory.map (fun memory => memory.regions.map (·.name))).getD []

/-- The contract a document is accepted as: nothing is dropped, and everything
the later slices look up is there. -/
structure WellFormedContract (doc : ContractDocument) (contract : CheckedContract) : Prop where
  parametersKept : contract.parameters.map (·.name) = doc.function.parameters.map (·.name)
  parametersDistinct : (contract.parameters.map (·.name)).Nodup
  returnsKept : contract.returns.map (·.name) = doc.function.returns.map (·.name)
  requiresKept : contract.requires.map (·.source) = doc.function.requires
  ensuresKept : contract.ensures.map (·.source) = doc.function.ensures
  conditions : ∀ condition ∈ contract.requires ++ contract.ensures,
    Expr.parse condition.source = .ok condition.expr ∧
      ∀ name ∈ freeIdents condition.expr, name ∈ contract.declaredNames
  memoryKept : MemoryKept doc.function.memory contract.memory
  memory : ∀ memory ∈ contract.memory, memory.WellFormed contract.parameters

/-! ## One pass -/

/-- Without errors every parameter is kept, under its own new name. -/
theorem checkParameters_silent {names : List String} {schemas : List ParameterSchema}
    {parameters : List CheckedParam} (silent : checkParameters names schemas = (parameters, [])) :
    parameters.map (·.name) = schemas.map (·.name) ∧ (schemas.map (·.name)).Nodup ∧
      ∀ schema ∈ schemas, schema.name ∉ names := by
  induction schemas generalizing names parameters with
  | nil =>
    obtain ⟨rfl, _⟩ := Prod.mk.inj silent
    simp
  | cons schema rest inductionHypothesis =>
    simp only [checkParameters] at silent
    split at silent
    next ty span parsed =>
      obtain ⟨rfl, errors⟩ := Prod.mk.inj silent
      obtain ⟨repeated, later⟩ := List.append_eq_nil_iff.1 errors
      have fresh : schema.name ∉ names := by
        intro member
        rw [if_pos member] at repeated
        cases repeated
      obtain ⟨kept, distinct, others⟩ := inductionHypothesis (Prod.ext rfl later)
      refine ⟨by rw [List.map_cons, List.map_cons, kept], ?_, ?_⟩
      · rw [List.map_cons, List.nodup_cons]
        refine ⟨fun again => ?_, distinct⟩
        obtain ⟨other, member, same⟩ := List.mem_map.1 again
        exact others other member (same ▸ List.mem_cons_self ..)
      · intro other member
        rcases List.mem_cons.1 member with rfl | later
        · exact fresh
        · exact fun earlier => others other later (List.mem_cons_of_mem _ earlier)
    next message refused =>
      obtain ⟨_, errors⟩ := Prod.mk.inj silent
      exact absurd (List.append_eq_nil_iff.1 errors).2 (by simp)

/-- Without errors every return is kept. -/
theorem checkReturns_silent {schemas : List ReturnSchema} {returns : List CheckedReturn}
    (silent : checkReturns schemas = (returns, [])) :
    returns.map (·.name) = schemas.map (·.name) := by
  induction schemas generalizing returns with
  | nil =>
    obtain ⟨rfl, _⟩ := Prod.mk.inj silent
    rfl
  | cons schema rest inductionHypothesis =>
    simp only [checkReturns] at silent
    split at silent
    next ty span parsed =>
      obtain ⟨rfl, errors⟩ := Prod.mk.inj silent
      rw [List.map_cons, List.map_cons, inductionHypothesis (Prod.ext rfl errors)]
    next message refused => exact absurd (Prod.mk.inj silent).2 (by simp)

/-- A free identifier of an expression that pushes no error is declared. -/
theorem unknownIdents_silent {names : List String} {place : String} {expr : Expr}
    (silent : unknownIdents names place expr = []) : ∀ name ∈ freeIdents expr, name ∈ names := by
  intro name member
  by_contra unknown
  rw [unknownIdents, List.map_eq_nil_iff, List.filter_eq_nil_iff] at silent
  exact silent name member (by simpa using unknown)

/-- A condition that pushes no error is parsed, and uses declared names only. -/
theorem checkCondition_silent {names : List String} {source : String}
    (silent : (checkCondition source names).2 = []) :
    ∃ condition : CheckedCondition, (checkCondition source names).1 = some condition ∧
      condition.source = source ∧ Expr.parse source = .ok condition.expr ∧
      ∀ name ∈ freeIdents condition.expr, name ∈ names := by
  unfold checkCondition at silent ⊢
  cases parsed : Expr.parse source with
  | error message =>
    rw [parsed] at silent
    cases silent
  | ok expr =>
    rw [parsed] at silent
    exact ⟨⟨expr, source⟩, rfl, rfl, rfl, unknownIdents_silent silent⟩

/-- Without errors every condition is kept, parsed, and uses declared names only. -/
theorem checkConditions_silent {names : List String} {sources : List String}
    (silent : (checkConditions names sources).2 = []) :
    (checkConditions names sources).1.map (·.source) = sources ∧
      ∀ condition ∈ (checkConditions names sources).1,
        Expr.parse condition.source = .ok condition.expr ∧
          ∀ name ∈ freeIdents condition.expr, name ∈ names := by
  induction sources with
  | nil => exact ⟨rfl, by simp [checkConditions]⟩
  | cons source rest inductionHypothesis =>
    rw [checkConditions] at silent ⊢
    obtain ⟨own, later⟩ := List.append_eq_nil_iff.1 silent
    obtain ⟨kept, checked⟩ := inductionHypothesis later
    obtain ⟨condition, found, same, parsed, declared⟩ := checkCondition_silent own
    rw [found]
    refine ⟨by simp only [Option.toList, List.singleton_append, List.map_cons, kept, same], ?_⟩
    intro other member
    rcases List.mem_cons.1 member with rfl | later
    · rw [same]
      exact ⟨parsed, declared⟩
    · exact checked other later

/-! ## The memory block -/

/-- A region that passes its checks has what the checks looked for. -/
theorem checkRegion_spec {parameters : List CheckedParam} {declared : List String}
    {schema : MemoryRegionSchema} {region : CheckedRegion}
    (passed : checkRegion parameters declared schema = .ok region) :
    RegionKept schema region ∧
      (∃ param ∈ parameters, param.name = region.baseParam ∧ param.ty.isPtr = true) ∧
      parseLengthSpec schema.length parameters = .ok region.length := by
  unfold checkRegion at passed
  by_cases repeated : schema.name ∈ declared
  · simp [repeated, throw, throwThe, MonadExceptOf.throw, bind, Except.bind] at passed
  simp only [repeated, if_false] at passed
  split at passed
  next => cases passed
  next base found =>
    by_cases pointer : base.ty.isPtr = true
    · simp only [pointer, Bool.not_true, Bool.false_eq_true, if_false] at passed
      obtain ⟨offset, offsetRead, passed⟩ := ok_of_bind passed
      split at passed
      next => cases passed
      next length lengthRead =>
        split at passed
        next => cases passed
        next access accessRead =>
          obtain rfl := Except.ok.inj passed
          have named : base.name = schema.base := by simpa using List.find?_some found
          exact ⟨⟨rfl, rfl, offsetRead, accessRead⟩,
            ⟨base, List.mem_of_find?_eq_some found, named, pointer⟩, lengthRead⟩
    · simp [pointer, throw, throwThe, MonadExceptOf.throw, bind, Except.bind] at passed

/-- A length that is a parameter names an integer parameter. -/
theorem parseLengthSpec_param {raw name : String} {parameters : List CheckedParam}
    (read : parseLengthSpec raw parameters = .ok (.param name)) :
    ∃ param ∈ parameters, param.name = name ∧ param.ty.isInteger = true := by
  unfold parseLengthSpec at read
  split at read
  next => cases read
  next =>
    split at read
    next => cases read
    next param found =>
      split at read
      next integer =>
        obtain rfl : raw = name := by simpa using read
        exact ⟨param, List.mem_of_find?_eq_some found, by simpa using List.find?_some found, integer⟩
      next => cases read

/-- Without errors every region is kept, with its references checked. -/
theorem checkRegions_kept {parameters : List CheckedParam} {declared : List String}
    {schemas : List MemoryRegionSchema} {regions : List CheckedRegion}
    (silent : checkRegions parameters declared schemas = (regions, [])) :
    List.Forall₂ RegionKept schemas regions ∧ ∀ region ∈ regions,
      (∃ param ∈ parameters, param.name = region.baseParam ∧ param.ty.isPtr = true) ∧
        ∀ name, region.length = .param name →
          ∃ param ∈ parameters, param.name = name ∧ param.ty.isInteger = true := by
  induction schemas generalizing declared regions with
  | nil =>
    obtain ⟨rfl, _⟩ := Prod.mk.inj silent
    exact ⟨.nil, by simp⟩
  | cons schema rest inductionHypothesis =>
    simp only [checkRegions] at silent
    split at silent
    next region passed =>
      obtain ⟨rfl, errors⟩ := Prod.mk.inj silent
      obtain ⟨kept, checked⟩ := inductionHypothesis (Prod.ext rfl errors)
      obtain ⟨own, base, length⟩ := checkRegion_spec passed
      refine ⟨.cons own kept, ?_⟩
      intro other member
      rcases List.mem_cons.1 member with rfl | later
      · refine ⟨base, fun name same => ?_⟩
        rw [same] at length
        exact parseLengthSpec_param length
      · exact checked other later
    next message refused => exact absurd (Prod.mk.inj silent).2 (by simp)

theorem checkRelation_kept {declared : List String} {schema : MemoryRelationSchema}
    {relation : CheckedRelation} (passed : checkRelation declared schema = .ok relation) :
    RelationKept schema relation := by
  unfold checkRelation at passed
  by_cases missing : schema.left ∉ declared ∨ schema.right ∉ declared
  · simp [missing, throw, throwThe, MonadExceptOf.throw, bind, Except.bind] at passed
  simp only [missing, if_false] at passed
  split at passed
  next => cases passed
  next require requireRead =>
    split at passed
    next none =>
      obtain rfl := Except.ok.inj passed
      exact ⟨rfl, rfl, requireRead, by rw [none]; rfl⟩
    next raw some =>
      split at passed
      next basis basisRead =>
        obtain rfl := Except.ok.inj passed
        exact ⟨rfl, rfl, requireRead, by rw [some, Option.map_some, basisRead]; rfl⟩
      next => cases passed

/-- Without errors every relation is kept. -/
theorem checkRelations_kept {declared : List String} {schemas : List MemoryRelationSchema}
    {relations : List CheckedRelation}
    (silent : checkRelations declared schemas = (relations, [])) :
    List.Forall₂ RelationKept schemas relations := by
  induction schemas generalizing relations with
  | nil =>
    obtain ⟨rfl, _⟩ := Prod.mk.inj silent
    exact .nil
  | cons schema rest inductionHypothesis =>
    simp only [checkRelations] at silent
    split at silent
    next relation passed =>
      obtain ⟨rfl, errors⟩ := Prod.mk.inj silent
      exact .cons (checkRelation_kept passed) (inductionHypothesis (Prod.ext rfl errors))
    next message refused => exact absurd (Prod.mk.inj silent).2 (by simp)

/-- Among regions of distinct names a declared name is that of exactly one. -/
theorem one_region {regions : List CheckedRegion} (distinct : (regions.map (·.name)).Nodup)
    {name : String} (declared : name ∈ regions.map (·.name)) :
    ∃! region, region ∈ regions ∧ region.name = name := by
  obtain ⟨region, member, named⟩ := List.mem_map.1 declared
  refine ⟨region, ⟨member, named⟩, ?_⟩
  rintro other ⟨memberOther, namedOther⟩
  exact List.inj_on_of_nodup_map distinct memberOther member (namedOther.trans named.symm)

/-- Without errors the memory block is kept, and all its references resolve. -/
theorem checkMemory_silent {parameters : List CheckedParam} {schema : Option MemoryBlockSchema}
    (silent : (checkMemory schema parameters).2 = []) :
    MemoryKept schema (checkMemory schema parameters).1 ∧
      (∀ memory ∈ (checkMemory schema parameters).1, memory.WellFormed parameters) ∧
      ((checkMemory schema parameters).1.map
        (fun memory => memory.regions.map (·.name))).getD [] = regionNames schema := by
  cases schema with
  | none => exact ⟨rfl, by simp [checkMemory], rfl⟩
  | some block =>
    simp only [checkMemory] at silent ⊢
    obtain ⟨regionErrors, relationErrors⟩ := List.append_eq_nil_iff.1 silent
    have names := checkRegions_names parameters [] block.regions _ (Prod.ext rfl regionErrors)
    obtain ⟨regionsKept, checked⟩ := checkRegions_kept (Prod.ext rfl regionErrors)
    have distinct : ((checkRegions parameters [] block.regions).1.map (·.name)).Nodup := by
      rw [names.1]
      exact names.2.1
    refine ⟨⟨_, rfl, regionsKept, checkRelations_kept (Prod.ext rfl relationErrors)⟩, ?_, names.1⟩
    intro memory member
    obtain rfl := Option.some.inj member
    refine ⟨distinct, fun region member => (checked region member).1,
      fun region member => (checked region member).2, ?_⟩
    intro relation member
    obtain ⟨left, right⟩ := checkRelations_endpoints _ _ relation member
    rw [← names.1] at left right
    exact ⟨one_region distinct left, one_region distinct right⟩

/-! ## The whole document -/

/-- An accepted document is one in which no pass pushed an error, and its contract
is what the passes kept. -/
theorem validateDocument_accepts {doc : ContractDocument} {contract : CheckedContract}
    (accepted : (validateDocument doc).contract = some contract) :
    WellFormedContract doc contract := by
  unfold validateDocument at accepted
  split at accepted
  next => cases accepted
  next =>
    dsimp only at accepted
    split at accepted
    next => cases accepted
    next silent =>
      obtain rfl := Option.some.inj accepted
      rw [not_not] at silent
      obtain ⟨parameterErrors, silent⟩ := List.append_eq_nil_iff.1 silent
      obtain ⟨returnErrors, silent⟩ := List.append_eq_nil_iff.1 silent
      obtain ⟨requireErrors, silent⟩ := List.append_eq_nil_iff.1 silent
      obtain ⟨ensureErrors, silent⟩ := List.append_eq_nil_iff.1 silent
      obtain ⟨_, silent⟩ := List.append_eq_nil_iff.1 silent
      obtain ⟨memoryErrors, _⟩ := List.append_eq_nil_iff.1 silent
      have parameters := checkParameters_silent (Prod.ext rfl parameterErrors)
      have returns := checkReturns_silent (Prod.ext rfl returnErrors)
      have requires := checkConditions_silent requireErrors
      have ensures := checkConditions_silent ensureErrors
      have distinct : ((checkParameters [] doc.function.parameters).1.map (·.name)).Nodup := by
        rw [parameters.1]
        exact parameters.2.1
      obtain ⟨memoryKept, memory, regionNames⟩ := checkMemory_silent memoryErrors
      refine ⟨parameters.1, distinct, returns, requires.1, ensures.1, ?_, memoryKept, memory⟩
      intro condition member
      simp only [CheckedContract.declaredNames, parameters.1, returns, regionNames]
      rcases List.mem_append.1 member with required | ensured
      · exact requires.2 condition required
      · exact ensures.2 condition ensured

/-- The relation engine never calls two regions it finds invalid. -/
theorem observePair_valid (left right : CheckedRegion) :
    (observePair left right).1 ≠ .invalidRegion := by
  unfold observePair
  split
  next => simp
  next =>
    split
    next =>
      unfold observeSpans
      dsimp only
      split_ifs <;> simp
    next => split_ifs <;> simp

/-- In a well-formed block every relation is observed on two declared regions. -/
theorem relationRow_valid {memory : CheckedMemory} {parameters : List CheckedParam}
    (wellFormed : memory.WellFormed parameters) {relation : CheckedRelation}
    (member : relation ∈ memory.relations) :
    (relationRow memory relation).observed ≠ .invalidRegion := by
  have found : ∀ name, (∃! region, region ∈ memory.regions ∧ region.name = name) →
      ∃ region, memory.region? name = some region := by
    rintro name ⟨region, ⟨declared, named⟩, _⟩
    refine Option.isSome_iff_exists.1 (List.find?_isSome.2 ⟨region, declared, ?_⟩)
    simp [named]
  obtain ⟨left, leftFound⟩ := found _ (wellFormed.endpoints relation member).1
  obtain ⟨right, rightFound⟩ := found _ (wellFormed.endpoints relation member).2
  have valid := observePair_valid left right
  simp only [relationRow, leftFound, rightFound]
  split_ifs <;> exact valid

/-- What acceptance promises to the later slices: the contract is well formed, and
the alias report on it never calls a region invalid. -/
def AcceptedAs (doc : ContractDocument) (contract : CheckedContract) : Prop :=
  WellFormedContract doc contract ∧ ∀ memory ∈ contract.memory, ∀ accesses,
    ∀ row ∈ (evaluateAlias memory accesses).relations, row.observed ≠ .invalidRegion

theorem validateDocument_acceptedAs {doc : ContractDocument} {contract : CheckedContract}
    (accepted : (validateDocument doc).contract = some contract) : AcceptedAs doc contract := by
  have wellFormed := validateDocument_accepts accepted
  refine ⟨wellFormed, ?_⟩
  intro memory member accesses row rowMember
  simp only [evaluateAlias] at rowMember
  obtain ⟨relation, declared, rfl⟩ := List.mem_map.1 rowMember
  exact relationRow_valid (wellFormed.memory memory member) declared

/-- A document with one region and one relation. -/
def oneRegionDocument : ContractDocument :=
  ⟨"0.1", {
    name := "fill"
    parameters := [⟨"buffer", "ptr<u8>", none⟩, ⟨"length", "usize", none⟩]
    returns := [⟨"status", "status"⟩]
    requires := ["buffer.valid_for_write(length)"]
    ensures := ["status.ok implies regions.equal(all, all)"]
    effects := [⟨"memory_write", some "buffer[0..length]", none⟩]
    memory := some ⟨[⟨"all", "buffer", none, "length", "write"⟩],
      [⟨"all", "all", "equal", some "precondition"⟩]⟩
    targetOverrides := ["x86_64-linux-gnu"] }⟩

end Semasm.Contract
