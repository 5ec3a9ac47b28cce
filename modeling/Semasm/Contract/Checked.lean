import Semasm.Contract.Expr

/-!
# Checked contracts

The validated form of a contract document: typed parameters and returns, parsed
conditions, and the optional memory block with its regions and required
relations. Offsets are signed and literal lengths unsigned 64-bit values, as in
the source; a region of parameter length names the parameter instead.
-/

namespace Semasm.Contract

/-- Portable semantic types. -/
inductive SemType where
  | bool
  | status
  | uint (bits : UInt16)
  | int (bits : UInt16)
  | usize
  | isize
  | ptr (inner : SemType) (isConst : Bool)
  | slice (inner : SemType)
  | array (inner : SemType) (len : UInt64)
  | named (name : String)
deriving DecidableEq

/-- Whether the type is a pointer of any pointee. -/
def SemType.isPtr : SemType → Bool
  | .ptr _ _ => true
  | _ => false

/-- `is_integer_sem_type`. -/
def SemType.isInteger : SemType → Bool
  | .uint _ | .int _ | .usize | .isize => true
  | _ => false

/-- Declared access mode for a memory region. -/
inductive RegionAccess where
  | read | write | readWrite
deriving DecidableEq, Repr

/-- Required relation between two regions. -/
inductive RelationRequire where
  | disjoint | equal | contains
deriving DecidableEq, Repr

/-- How a required relation is justified in the contract. -/
inductive RelationBasisDecl where
  | precondition
deriving DecidableEq, Repr

namespace RegionAccess

def parse : String → Option RegionAccess
  | "read" => some .read
  | "write" => some .write
  | "read_write" => some .readWrite
  | _ => none

end RegionAccess

namespace RelationRequire

def parse : String → Option RelationRequire
  | "disjoint" => some .disjoint
  | "equal" => some .equal
  | "contains" => some .contains
  | _ => none

def asStr : RelationRequire → String
  | .disjoint => "disjoint"
  | .equal => "equal"
  | .contains => "contains"

/-- Distinct relations have distinct labels, so a stored label identifies its relation. -/
theorem asStr_injective {left right : RelationRequire} (same : left.asStr = right.asStr) :
    left = right := by
  cases left <;> cases right <;> first | rfl | (revert same; decide)

end RelationRequire

namespace RelationBasisDecl

def parse : String → Option RelationBasisDecl
  | "precondition" => some .precondition
  | _ => none

end RelationBasisDecl

/-- Length of a declared region. -/
inductive LengthSpec where
  | param (name : String)
  | literal (bytes : UInt64)
deriving DecidableEq

/-- Checked affine memory region. -/
structure CheckedRegion where
  name : String
  baseParam : String
  offset : Int64
  length : LengthSpec
  access : RegionAccess
deriving DecidableEq

/-- Checked required relation. -/
structure CheckedRelation where
  left : String
  right : String
  require : RelationRequire
  basis : Option RelationBasisDecl
deriving DecidableEq

/-- Checked `[function.memory]` block. -/
structure CheckedMemory where
  regions : List CheckedRegion
  relations : List CheckedRelation
deriving DecidableEq

/-- The region a name denotes: the first declared with it. -/
def CheckedMemory.region? (memory : CheckedMemory) (name : String) : Option CheckedRegion :=
  memory.regions.find? (fun region => region.name == name)

/-- Checked parameter. -/
structure CheckedParam where
  name : String
  ty : SemType
  role : Option String
deriving DecidableEq

/-- Checked return. -/
structure CheckedReturn where
  name : String
  ty : SemType
deriving DecidableEq

/-- Checked condition with its tree. -/
structure CheckedCondition where
  expr : Expr
  source : String

/-- Side-effect declaration. -/
structure EffectSchema where
  kind : String
  region : Option String
  resource : Option String
deriving DecidableEq

/-- A validated contract. -/
structure CheckedContract where
  name : String
  parameters : List CheckedParam
  returns : List CheckedReturn
  requires : List CheckedCondition
  ensures : List CheckedCondition
  effects : List EffectSchema
  memory : Option CheckedMemory

end Semasm.Contract
