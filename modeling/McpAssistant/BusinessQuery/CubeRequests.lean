import McpAssistant.BusinessQuery.PlanShapes

/-!
# Cube requests

The Cube adapter checks a scoped plan before it sends anything: its shape, the
bundle, the principal, the filter values, and that every forced predicate names a
column which the generated model covers.  The request carries the plan's query,
the forced department filters and the caller's security context.
-/

namespace McpAssistant.BusinessQuery.CubeRequests

open Definitions QueryPlan Visibility Scopes Outcomes CubeGeneration CubeQueries
  PlanShapes
open FilterCompilation (CompilerParts)
/-- What Cube knows of the caller. -/
structure SecurityContext where
  role : String
  permissions : List String
  entityId : Option Int
  crossEntity : Option Bool
  departmentId : Option Int
deriving DecidableEq

def principalSecurityContext (principal : Principal) : SecurityContext where
  role := principal.role
  permissions := principal.permissions
  entityId := principal.entityId
  crossEntity := principal.crossEntity
  departmentId := principal.scopeValues.bind ScopeValues.departmentId

/-- A load request. -/
structure Payload where
  query : CubeQuery
  securityContext : SecurityContext
  bundleHash : String
  modelRevision : String

structure CubeAdapter where
  principal : Principal
  bundle : DefinitionBundle
  model : CubeModel
  members : CubeMemberMap
  businessTimezone : String
  modelRevision : String
  expectedBundleHash : String
  databaseIdentity : String
  agreedShapes : List String

/-- How a request ends that is not sent. -/
inductive NotSent where
  | adapterInvalid
  | adapterUnsupported (reason : String)
  | raised (cause : Raised)
deriving DecidableEq

def notSentOf : Refusal → NotSent
  | .adapterUnsupported reason => .adapterUnsupported reason
  | .raised cause => .raised cause
  | .keyError _ => .adapterInvalid

/-- The predicates that neither the relation nor a translated filter is taken to
enforce: those on other columns. -/
def forcedPredicatesOutsideTheModel (forced : List ForcedPredicate) (model : CubeModel) :
    List ForcedPredicate :=
  forced.filter fun predicate =>
    !(model.forcedColumns predicate.resource).contains predicate.column

def departmentColumnOf (model : CubeModel) (cubeName : String) : Option String :=
  (model.cubeNamed cubeName).bind CubeDef.departmentColumn

def forcedOperator : ForcedOperator → String
  | .eq => "equals"
  | .isIn => "equals"

def departmentFilter (model : CubeModel) (members : CubeMemberMap)
    (predicate : ForcedPredicate) : Except Refusal (Option CubeFilter) :=
  if departmentColumnOf model predicate.resource = some predicate.column then
    match members.toView (predicate.resource ++ "." ++ predicate.column) with
    | none => .error (.keyError (predicate.resource ++ "." ++ predicate.column))
    | some member =>
      .ok (some (.item member (forcedOperator predicate.operator)
        (some (predicate.values.map FilterValue.pyStr))))
  else .ok none

def departmentFilters (forced : List ForcedPredicate) (model : CubeModel)
    (members : CubeMemberMap) : Except Refusal (List CubeFilter) :=
  (forced.mapM (departmentFilter model members)).map fun filters => filters.filterMap id

namespace CubeAdapter

variable (adapter : CubeAdapter) (clock : Except Raised Int)

def requestPayload (scope : ScopedPlan) : Except Refusal Payload := do
  let query ← planToCubeQuery adapter.members clock scope.businessDate
    adapter.businessTimezone scope.plan.toPlanNode
  let department ← departmentFilters scope.forced adapter.model adapter.members
  return {
    query := { query with filters := query.filters ++ department }
    securityContext :=
      principalSecurityContext (scope.principal.getD adapter.principal)
    bundleHash := adapter.bundle.contentHash
    modelRevision := adapter.modelRevision }

/-- A relative or open period is resolved against the request's business date. -/
def needsBusinessDate (plan : PlanNode) : Bool :=
  match plan.period.map BusinessPeriod.range with
  | some (.relative _) => true
  | some (.since _) => true
  | _ => false

def execute (parts : CompilerParts) (scope : ScopedPlan) : Except NotSent Payload :=
  if !adapter.agreedShapes.contains (planShapeKey scope.plan) then
    .error (.adapterUnsupported "shape_not_agreed")
  else if adapter.bundle.contentHash ≠ adapter.expectedBundleHash then
    .error .adapterInvalid
  else if scope.bundleHash.any fun hash => hash ≠ adapter.bundle.contentHash then
    .error .adapterInvalid
  else if scope.principal.any fun principal => principal ≠ adapter.principal then
    .error .adapterInvalid
  else if !allowedFilterValuesValid parts scope.plan.toPlanNode adapter.bundle then
    .error .adapterInvalid
  else
    match unsupportedPlanReason scope.plan.toPlanNode adapter.bundle with
    | some reason => .error (.adapterUnsupported reason)
    | none =>
      if needsBusinessDate scope.plan.toPlanNode && scope.businessDate.isNone then
        .error .adapterInvalid
      else if !(forcedPredicatesOutsideTheModel scope.forced adapter.model).isEmpty then
        .error .adapterInvalid
      else if adapter.databaseIdentity = "" then .error .adapterInvalid
      else (adapter.requestPayload clock scope).mapError notSentOf

end CubeAdapter

end McpAssistant.BusinessQuery.CubeRequests
