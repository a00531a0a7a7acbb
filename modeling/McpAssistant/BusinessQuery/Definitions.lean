import Mathlib.Data.List.Dedup
import Mathlib.Data.List.Sort
import Mathlib.Data.String.Basic

/-!
# The definition bundle

A bundle declares the resources, measures, dimensions, joins, bucket sets,
segments and detail families a plan may name, and the capability entries that
expose them.  A plan names a capability; the capability's target is looked up
among the definitions of its kind.
-/

namespace McpAssistant.BusinessQuery.Definitions

/-- The values a filter or a predicate may carry.  A finite float is the
rational number it denotes and the text it prints as. -/
inductive FilterValue where
  | text (value : String)
  | integer (value : Int)
  | float (value : Rat) (printed : String)
  | boolean (value : Bool)
deriving DecidableEq

namespace FilterValue

def number : FilterValue → Option Rat
  | text _ => none
  | integer value => some value
  | float value _ => some value
  | boolean value => some (if value then 1 else 0)

/-- Python's `==` on values: numbers and booleans compare as numbers. -/
def pyEq : FilterValue → FilterValue → Bool
  | text left, text right => left == right
  | text _, _ => false
  | _, text _ => false
  | left, right => left.number == right.number

/-- Python's `str` on values. -/
def pyStr : FilterValue → String
  | text value => value
  | integer value => toString value
  | float _ printed => printed
  | boolean value => if value then "True" else "False"

@[simp] theorem pyEq_refl (value : FilterValue) : value.pyEq value = true := by
  cases value <;> simp [pyEq]

end FilterValue

/-- A set of names in alphabetical order. -/
def sortedSet (names : List String) : List String :=
  names.dedup.insertionSort (· ≤ ·)

theorem mem_sortedSet {names : List String} {name : String} :
    name ∈ sortedSet names ↔ name ∈ names := by
  rw [sortedSet, List.mem_insertionSort, List.mem_dedup]

theorem pairwise_sortedSet (names : List String) : (sortedSet names).Pairwise (· < ·) := by
  have sorted : (sortedSet names).Pairwise (· ≤ ·) :=
    List.pairwise_insertionSort (· ≤ ·) names.dedup
  have distinct : (sortedSet names).Nodup :=
    (List.perm_insertionSort (· ≤ ·) names.dedup).nodup_iff.mpr names.nodup_dedup
  refine (sorted.and distinct).imp ?_
  intro first second both
  exact lt_of_le_of_ne both.1 both.2

structure ScopeColumns where
  entity : Option String
  department : Option String
deriving DecidableEq

inductive DepartmentScopeMode where
  | none
  | filterWhenPresent
  | requiredMatch
deriving DecidableEq

structure ResourceBinding where
  name : String
  projectionView : String
  primaryKey : String
  departmentScopeMode : DepartmentScopeMode
  recordPredicates : List (String × FilterValue) := []
  scopeColumns : ScopeColumns
deriving DecidableEq

/-- One signed revision of a typed detail family. -/
structure DetailDefinition where
  familyKey : String
  revisionHash : String
  ownerResource : String
  requiredPermissions : List String := []
  isCurrent : Bool := true
deriving DecidableEq

inductive AggType where
  | sum
  | avg
  | min
  | max
  | count
  | countDistinct
  | derived
deriving DecidableEq

inductive MeasureFormat where
  | currency
  | number
  | percent
deriving DecidableEq

inductive ExpressionKind where
  | ratio
  | share
deriving DecidableEq

inductive CapabilityState where
  | enabled
  | decisionPending
  | unsupported
deriving DecidableEq

structure MeasureDefinition where
  name : String
  owningResource : String
  sqlExpression : String
  aggType : AggType
  format : Option MeasureFormat := none
  currencyDimension : Option String := none
  expressionKind : Option ExpressionKind := none
  derivedFrom : List String := []
  relativeToBusinessDate : Bool := false
  overdueAfterDays : Option Int := none
  filterSql : Option String := none
deriving DecidableEq

inductive DimensionType where
  | string
  | number
  | time
  | boolean
deriving DecidableEq

/-- The storage kind a definition may declare for its values. -/
inductive ValueKind where
  | string
  | integer
  | decimal
  | currency
  | date
  | datetime
  | boolean
deriving DecidableEq

inductive ResolvableAs where
  | customer
  | product
  | department
deriving DecidableEq

structure DimensionDefinition where
  name : String
  owningResource : String
  sqlExpression : String
  type : DimensionType
  isPrimaryKey : Bool := false
  allowedValues : List String := []
  valueKind : Option ValueKind := none
  resolvableAs : Option ResolvableAs := none
deriving DecidableEq

inductive Relationship where
  | oneToOne
  | oneToMany
  | manyToOne
deriving DecidableEq

structure JoinDefinition where
  fromResource : String
  toResource : String
  relationship : Relationship
  onSql : String
  optional : Bool := false
deriving DecidableEq

structure BucketSetDefinition where
  name : String
  owningResource : String
  relativeToBusinessDate : Bool := false
deriving DecidableEq

structure SegmentDefinition where
  name : String
  owningResource : String
  predicateSql : String
deriving DecidableEq

inductive CapabilityKind where
  | measure
  | dimension
  | bucketSet
  | segment
deriving DecidableEq

structure CapabilityEntry where
  name : String
  kind : CapabilityKind
  resolvesTo : String
  requiredFilters : List String := []
  requiredPermissions : List String
  capabilityState : CapabilityState
deriving DecidableEq

structure DefinitionBundle where
  contentHash : String
  resources : List ResourceBinding
  measures : List MeasureDefinition := []
  dimensions : List DimensionDefinition := []
  joins : List JoinDefinition := []
  bucketSets : List BucketSetDefinition := []
  segments : List SegmentDefinition := []
  capabilities : List CapabilityEntry
  detailDefinitions : List DetailDefinition := []
deriving DecidableEq

inductive MemberDefinition where
  | measure (definition : MeasureDefinition)
  | dimension (definition : DimensionDefinition)
  | bucketSet (definition : BucketSetDefinition)
  | segment (definition : SegmentDefinition)
deriving DecidableEq

def MemberDefinition.owningResource : MemberDefinition → String
  | measure definition => definition.owningResource
  | dimension definition => definition.owningResource
  | bucketSet definition => definition.owningResource
  | segment definition => definition.owningResource

/-- The declared definition a capability's target names, by the capability's
kind. -/
def definitionFor (bundle : DefinitionBundle) (kind : CapabilityKind)
    (name : String) : Option MemberDefinition :=
  match kind with
  | .measure =>
    (bundle.measures.find? fun measure => measure.name == name).map .measure
  | .dimension =>
    (bundle.dimensions.find? fun dimension => dimension.name == name).map .dimension
  | .bucketSet =>
    (bundle.bucketSets.find? fun bucket => bucket.name == name).map .bucketSet
  | .segment =>
    (bundle.segments.find? fun segment => segment.name == name).map .segment

/-- The first capability entry of a name; later entries of the same name are
never read. -/
def capabilityNamed (bundle : DefinitionBundle) (member : String) : Option CapabilityEntry :=
  bundle.capabilities.find? fun entry => entry.name == member

def resolveMember (bundle : DefinitionBundle) (member : String) :
    Option (CapabilityKind × MemberDefinition) :=
  (capabilityNamed bundle member).bind fun entry =>
    (definitionFor bundle entry.kind entry.resolvesTo).map fun definition =>
      (entry.kind, definition)

def owningResource (bundle : DefinitionBundle) (entry : CapabilityEntry) : Option String :=
  (definitionFor bundle entry.kind entry.resolvesTo).map MemberDefinition.owningResource

def primaryKeyDimension (bundle : DefinitionBundle) (resource : String) :
    Option DimensionDefinition :=
  bundle.dimensions.find? fun dimension =>
    dimension.owningResource == resource && dimension.isPrimaryKey

/-- The binding a dictionary over the resources keeps for a name: the last
declared one. -/
def resourceNamed (bundle : DefinitionBundle) (name : String) : Option ResourceBinding :=
  bundle.resources.reverse.find? fun resource => resource.name == name

variable {bundle : DefinitionBundle} {entry : CapabilityEntry}

theorem capabilityNamed_name {member : String}
    (found : capabilityNamed bundle member = some entry) :
    entry.name = member := by
  simpa using List.find?_some found

theorem mem_capabilities_of_capabilityNamed {member : String}
    (found : capabilityNamed bundle member = some entry) :
    entry ∈ bundle.capabilities :=
  List.mem_of_find?_eq_some found

theorem resourceNamed_name {name : String} {binding : ResourceBinding}
    (found : resourceNamed bundle name = some binding) :
    binding.name = name := by
  simpa using List.find?_some found

/-- All signed revisions of a family, in bundle order. -/
def definitionsFor (bundle : DefinitionBundle) (familyKey : String) : List DetailDefinition :=
  bundle.detailDefinitions.filter fun detail => detail.familyKey == familyKey

def resolveDetailDefinition (bundle : DefinitionBundle) (familyKey : String)
    (revisionHash : Option String := none) : Option DetailDefinition :=
  let candidates := definitionsFor bundle familyKey
  match revisionHash with
  | some hash => candidates.find? fun signed => signed.revisionHash == hash
  | none =>
    match candidates with
    | [only] => some only
    | several => several.find? DetailDefinition.isCurrent

structure DetailRevisionsValid (bundle : DefinitionBundle) : Prop where
  ownersDeclared : ∀ detail ∈ bundle.detailDefinitions,
    detail.ownerResource ∈ bundle.resources.map ResourceBinding.name
  revisionsDistinct : (bundle.detailDefinitions.map fun detail =>
    (detail.familyKey, detail.revisionHash)).Nodup
  oneCurrent : ∀ detail ∈ bundle.detailDefinitions,
    1 < (definitionsFor bundle detail.familyKey).length →
      (definitionsFor bundle detail.familyKey).countP DetailDefinition.isCurrent = 1

variable {familyKey : String} {detail : DetailDefinition}

theorem mem_definitionsFor : detail ∈ definitionsFor bundle familyKey ↔
      detail ∈ bundle.detailDefinitions ∧ detail.familyKey = familyKey := by
  simp [definitionsFor]

theorem mem_definitionsFor_of_resolveDetailDefinition {revisionHash : Option String}
    (found : resolveDetailDefinition bundle familyKey revisionHash = some detail) :
    detail ∈ definitionsFor bundle familyKey := by
  unfold resolveDetailDefinition at found
  cases revisionHash with
  | some hash => exact List.mem_of_find?_eq_some found
  | none =>
    dsimp only at found
    split at found
    · rename_i only candidates
      rw [candidates]
      simpa using found.symm
    · exact List.mem_of_find?_eq_some found

end McpAssistant.BusinessQuery.Definitions
