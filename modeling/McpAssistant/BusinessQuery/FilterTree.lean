import McpAssistant.BusinessQuery.Definitions

/-!
# Filter trees

A filter tree nests conjunctions and disjunctions of leaves.  A leaf is a plain
filter on a member or a predicate on a typed detail family.  The arity rule of
an operator is a field of the leaf, so a leaf with the wrong number of values
does not exist.
-/

namespace McpAssistant.BusinessQuery.FilterTree

open Definitions

inductive FilterOperator where
  | eq
  | neq
  | gt
  | gte
  | lt
  | lte
  | isIn
  | notIn
  | isNull
  | notNull
  | contains
  | inSet
  | notInSet
deriving DecidableEq

namespace FilterOperator

/-- The two operators whose value names a derived set. -/
def isSet : FilterOperator → Bool
  | inSet => true
  | notInSet => true
  | _ => false

def acceptsValues (operator : FilterOperator) (values : List FilterValue) : Bool :=
  match operator, values with
  | isNull, values => values.isEmpty
  | notNull, values => values.isEmpty
  | inSet, [.text _] => true
  | inSet, _ => false
  | notInSet, [.text _] => true
  | notInSet, _ => false
  | _, values => !values.isEmpty

end FilterOperator

structure PlanFilter where
  member : String
  operator : FilterOperator
  values : List FilterValue
  arity : operator.acceptsValues values = true := by decide
deriving DecidableEq

theorem acceptsValues_single (value : FilterValue) :
    FilterOperator.eq.acceptsValues [value] = true :=
  rfl

def PlanFilter.setId (leaf : PlanFilter) : Option String :=
  match leaf.operator.isSet, leaf.values with
  | true, [.text setId] => some setId
  | _, _ => none

/-- What a typed detail value is read as. -/
inductive PredicateValueKind where
  | integer
  | numeric
  | decimal
  | currency
  | string
  | date
  | datetime
  | boolean
  | json
deriving DecidableEq

inductive Quantifier where
  | any
  | all
  | exact
deriving DecidableEq

structure AttributePredicate where
  familyKey : String
  revisionHash : Option String := none
  operator : FilterOperator
  values : List FilterValue
  notSet : operator.isSet = false := by decide
  arity : operator.acceptsValues values = true := by decide
  attributeKey : Option String := none
  definitionRevision : Option String := none
  valueKind : PredicateValueKind := .integer
  quantifier : Quantifier := .any
deriving DecidableEq

inductive FilterLeaf where
  | filter (leaf : PlanFilter)
  | predicate (predicate : AttributePredicate)
deriving DecidableEq

def FilterLeaf.member : FilterLeaf → String
  | .filter leaf => leaf.member
  | .predicate typed => typed.familyKey

inductive FilterNode where
  | leaf (leaf : FilterLeaf)
  | group (all any : List FilterNode)

structure FilterGroup where
  all : List FilterNode := []
  any : List FilterNode := []

mutual

/-- The leaves below a node, depth first: the conjuncts before the
alternatives. -/
def FilterNode.leaves : FilterNode → List FilterLeaf
  | .leaf leaf => [leaf]
  | .group all any => leavesOfList all ++ leavesOfList any

def leavesOfList : List FilterNode → List FilterLeaf
  | [] => []
  | node :: nodes => node.leaves ++ leavesOfList nodes

end

def FilterGroup.leaves (group : FilterGroup) : List FilterLeaf :=
  leavesOfList group.all ++ leavesOfList group.any

/-- Every leaf of an optional tree; an absent tree has none. -/
def iterFilterLeaves (group : Option FilterGroup) : List FilterLeaf :=
  match group with
  | none => []
  | some group => group.leaves

/-- Every member or family a tree names. -/
def collectFilterMembers (group : Option FilterGroup) : List String :=
  (iterFilterLeaves group).map FilterLeaf.member

/-- The plain filters among the leaves. -/
def planFilters (leaves : List FilterLeaf) : List PlanFilter :=
  leaves.filterMap fun leaf =>
    match leaf with
    | .filter leaf => some leaf
    | .predicate _ => none

/-- The typed predicates among the leaves. -/
def attributeLeaves (leaves : List FilterLeaf) : List AttributePredicate :=
  leaves.filterMap fun leaf =>
    match leaf with
    | .filter _ => none
    | .predicate predicate => some predicate

/-- The set ids a tree names, in filter order. -/
def setReferenceIds (group : Option FilterGroup) : List String :=
  (planFilters (iterFilterLeaves group)).filterMap PlanFilter.setId

def FilterLeaf.singleEquality (member : String) : FilterLeaf → Option String
  | .filter ⟨name, .eq, [value], _⟩ =>
    if name = member then some value.pyStr else none
  | .predicate ⟨family, _, .eq, [value], _, _, _, _, _, _⟩ =>
    if family = member then some value.pyStr else none
  | _ => none

/-- The value a group fixes: the one its conjuncts agree on, else the one all
its alternatives agree on. -/
def agreedValue (all any : List (Option String)) : Option String :=
  match (all.filterMap id).dedup with
  | [value] => some value
  | _ :: _ => none
  | [] =>
    match any with
    | [] => none
    | first :: rest => if ∀ branch ∈ rest, branch = first then first else none

mutual

def FilterNode.singleEquality (member : String) : FilterNode → Option String
  | .leaf leaf => leaf.singleEquality member
  | .group all any =>
    agreedValue (singleEqualities member all) (singleEqualities member any)

def singleEqualities (member : String) : List FilterNode → List (Option String)
  | [] => []
  | node :: nodes =>
    node.singleEquality member :: singleEqualities member nodes

end

/-- One equality value, when every truth path of the tree fixes it. -/
def guaranteedSingleEquality (group : Option FilterGroup) (member : String) : Option String :=
  match group with
  | none => none
  | some group =>
    agreedValue (singleEqualities member group.all) (singleEqualities member group.any)

theorem mem_planFilters {leaves : List FilterLeaf} {leaf : PlanFilter} :
    leaf ∈ planFilters leaves ↔ .filter leaf ∈ leaves := by
  rw [planFilters, List.mem_filterMap]
  constructor
  · rintro ⟨source, member, equal⟩
    cases source with
    | filter found =>
      cases equal
      exact member
    | predicate predicate => cases equal
  · intro member
    exact ⟨.filter leaf, member, rfl⟩

theorem mem_attributeLeaves {leaves : List FilterLeaf} {predicate : AttributePredicate} :
    predicate ∈ attributeLeaves leaves ↔ .predicate predicate ∈ leaves := by
  rw [attributeLeaves, List.mem_filterMap]
  constructor
  · rintro ⟨source, member, equal⟩
    cases source with
    | filter leaf => cases equal
    | predicate found =>
      cases equal
      exact member
  · intro member
    exact ⟨.predicate predicate, member, rfl⟩

end McpAssistant.BusinessQuery.FilterTree
