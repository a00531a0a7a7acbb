import McpAssistant.BusinessQuery.BusinessTime
import McpAssistant.BusinessQuery.CubeGeneration
import McpAssistant.BusinessQuery.FilterCompilation
import McpAssistant.BusinessQuery.PlanJson

/-!
# Cube queries

The Cube adapter turns a plan into a Cube query: members by their view names,
the filter trees as nested `and` and `or` expressions, the period as a time
dimension.  What Cube cannot express is refused, so that another adapter may
answer.
-/

namespace McpAssistant.BusinessQuery.CubeQueries

open Definitions FilterTree QueryPlan Outcomes BusinessTime CubeGeneration
open FilterCompilation (CompilerParts canonicalAllowedValues)
open PlanJson (granularityName directionName)
open Foundations.Dictionaries
open Foundations.IsoDate

inductive CubeFilter where
  | item (member operator : String) (values : Option (List String))
  | anyOf (parts : List CubeFilter)
  | allOf (parts : List CubeFilter)

structure TimeDimension where
  dimension : String
  granularity : Option String := none
  dateRange : Option (String × String) := none

/-- A load query; `total` and `cache` are the same in every one. -/
structure CubeQuery where
  measures : List String
  dimensions : List String
  limit : Nat
  timezone : String
  filters : List CubeFilter
  timeDimensions : List TimeDimension
  order : List (String × String)

/-- How building a query ends without one. -/
inductive Refusal where
  | adapterUnsupported (reason : String)
  | raised (cause : Raised)
  | keyError (name : String)
deriving DecidableEq

def operatorMap : FilterOperator → Option String
  | .eq => some "equals"
  | .neq => some "notEquals"
  | .gt => some "gt"
  | .gte => some "gte"
  | .lt => some "lt"
  | .lte => some "lte"
  | .isIn => some "equals"
  | .notIn => some "notEquals"
  | .isNull => some "notSet"
  | .notNull => some "set"
  | .contains => none
  | .inSet => none
  | .notInSet => none

/-- A null test compares with nothing. -/
def takesValues : FilterOperator → Bool
  | .isNull => false
  | .notNull => false
  | _ => true

namespace FilterLeaf

def operator : FilterLeaf → FilterOperator
  | .filter leaf => leaf.operator
  | .predicate typed => typed.operator

def values : FilterLeaf → List FilterValue
  | .filter leaf => leaf.values
  | .predicate typed => typed.values

end FilterLeaf

section Translation

variable (members : CubeMemberMap)

def view (name : String) : Except Refusal String :=
  match members.toView name with
  | none => .error (.adapterUnsupported "member_unsupported")
  | some member => .ok member

def leafToCube (leaf : FilterLeaf) : Except Refusal CubeFilter := do
  let member ← view members leaf.member
  if (FilterLeaf.operator leaf).isSet then
    .error (.adapterUnsupported "unsupported_operator")
  else
    match operatorMap (FilterLeaf.operator leaf) with
    | none => .error (.raised (refused .unsupportedOperator))
    | some operator =>
      return .item member operator (if takesValues (FilterLeaf.operator leaf) then
          some ((FilterLeaf.values leaf).map FilterValue.pyStr) else none)

/-- The expression of a group's translated parts; a part that is a group of nothing
is none. -/
def groupOf (all any : List (Option CubeFilter)) : Option CubeFilter :=
  let alternatives := if any.isEmpty then [] else [.anyOf (any.filterMap id)]
  match all.filterMap id ++ alternatives with
  | [] => none
  | [part] => some part
  | parts => some (.allOf parts)

mutual

def filterNodeToCube : FilterNode → Except Refusal (Option CubeFilter)
  | .leaf leaf => (leafToCube members leaf).map some
  | .group all any => do
      let all ← filterNodesToCube all
      let any ← filterNodesToCube any
      return groupOf all any

def filterNodesToCube : List FilterNode → Except Refusal (List (Option CubeFilter))
  | [] => .ok []
  | node :: nodes => do
      let part ← filterNodeToCube node
      let parts ← filterNodesToCube nodes
      return part :: parts

end

def filtersToCube : Option FilterGroup → Except Refusal (List CubeFilter)
  | none => .ok []
  | some group =>
    (filterNodeToCube members (.group group.all group.any)).map Option.toList

section Periods

variable (clock : Except Raised Int) (businessDate : Option Int)

def periodToTimeDimension (period : BusinessPeriod) : Except Refusal TimeDimension := do
  let dimension ← view members period.timeDimension
  let bounds ← (timeFilterBounds clock businessDate period).mapError .raised
  return {
    dimension := dimension
    granularity := period.granularity.map granularityName
    dateRange := bounds.map fun bounds => (isoFormat bounds.1, isoFormat (bounds.2 - 1)) }

def planToCubeQuery (timezone : String) (plan : PlanNode) : Except Refusal CubeQuery := do
  let measures ← plan.measures.mapM (view members)
  let dimensions ← plan.dimensions.mapM (view members)
  let filters ← filtersToCube members plan.filters
  let having ← filtersToCube members plan.having
  let timeDimensions ← plan.period.toList.mapM (periodToTimeDimension members clock businessDate)
  let order ← plan.order.mapM fun clause =>
    (view members clause.member).map fun member => (member, directionName clause.direction)
  return {
    measures := measures
    dimensions := dimensions
    limit := plan.limit
    timezone := timezone
    filters := filters ++ having
    timeDimensions := timeDimensions
    order := ofPairs order }

end Periods

end Translation

def measureForMember (bundle : DefinitionBundle) (member : String) : Option MeasureDefinition :=
  let target := match capabilityNamed bundle member with
    | some entry => entry.resolvesTo
    | none => member
  bundle.measures.find? fun measure => measure.name = target

def shapeGap (plan : PlanNode) : Option String :=
  if plan.compareTo.isSome then some "compare_to_unsupported"
  else if !plan.attributePredicates.isEmpty then some "attribute_predicate_unsupported"
  else if !plan.detailSelections.isEmpty then some "detail_selection_unsupported"
  else if (plan.period.bind BusinessPeriod.granularity).isSome then
    some "granularity_unsupported"
  else none

def namesSegment (bundle : DefinitionBundle) : FilterLeaf → Bool
  | .predicate _ => false
  | .filter leaf =>
    match resolveMember bundle leaf.member with
    | some (.segment, _) => true
    | _ => false

/-- The first capability gap a plan names, in fall-through order. -/
def unsupportedPlanReason (plan : PlanNode) (bundle : DefinitionBundle) : Option String :=
  if plan.bucketSet.isSome then some "bucket_set_unsupported"
  else
    match shapeGap plan with
    | some shape => some shape
    | none =>
      if plan.measures.any fun member =>
          ((measureForMember bundle member).bind MeasureDefinition.expressionKind).isSome then
        some "derived_measure_unsupported"
      else if (iterFilterLeaves plan.filters ++ iterFilterLeaves plan.having).any
          (namesSegment bundle) then
        some "segment_unsupported"
      else none

/-- The query the adapter builds from a plan that it does not fall through on. -/
def cubeQueryFor (members : CubeMemberMap) (bundle : DefinitionBundle)
    (clock : Except Raised Int) (businessDate : Option Int) (timezone : String)
    (plan : BusinessQueryPlan) : Except Refusal CubeQuery :=
  match unsupportedPlanReason plan.toPlanNode bundle with
  | some reason => .error (.adapterUnsupported reason)
  | none => planToCubeQuery members clock businessDate timezone plan.toPlanNode

/-- Every filter value is in its dimension's declared domain. -/
def allowedFilterValuesValid (parts : CompilerParts) (plan : PlanNode)
    (bundle : DefinitionBundle) : Bool :=
  (planFilters (iterFilterLeaves plan.filters ++ iterFilterLeaves plan.having)).all fun leaf =>
      leaf.operator.isSet ||
        match bundle.capabilities.reverse.find? fun entry => entry.name = leaf.member with
        | none => true
        | some entry =>
          if entry.kind = .dimension then
            match bundle.dimensions.reverse.find? fun dimension =>
                dimension.name = entry.resolvesTo with
            | none => true
            | some dimension =>
              (canonicalAllowedValues parts dimension leaf.values).isSome
          else true

end McpAssistant.BusinessQuery.CubeQueries
