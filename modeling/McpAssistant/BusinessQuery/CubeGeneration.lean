import McpAssistant.BusinessQuery.PlanBinding
import McpAssistant.Foundations.Dictionaries
import McpAssistant.Foundations.JoinedText

/-!
# The generated Cube model

One cube per resource, translated from the bundle.  A cube's relation carries the
resource's fixed predicates and the entity of the security context; its
department column is a dimension that queries filter on.  A member map leads
from plan names to view names and back.
-/

namespace McpAssistant.BusinessQuery.CubeGeneration

open Definitions PlanBinding
open Foundations.Dictionaries
structure CubeDimension where
  name : String
  sql : String
deriving DecidableEq

/-- A condition in the `WHERE` of a cube's relation. -/
inductive RelationPredicate where
  | equals (column : String) (value : FilterValue)
  | entityScope (column : String)
deriving DecidableEq

structure CubeDef where
  name : String
  projectionView : String
  relation : List RelationPredicate
  dimensions : List CubeDimension
  measures : List String
  relationColumns : List String
  departmentColumn : Option String
deriving DecidableEq

structure CubeModel where
  cubes : List CubeDef
  viewName : String
  bundleHash : String
  generatorVersion : String
deriving DecidableEq

def generatorVersion : String :=
  "1"

def viewName : String :=
  "business"

def aggName : AggType → Option String
  | .sum => some "SUM"
  | .avg => some "AVG"
  | .min => some "MIN"
  | .max => some "MAX"
  | .count => some "COUNT"
  | .countDistinct => none
  | .derived => none

def matchesAggregate (measure : MeasureDefinition) : Bool :=
  let letters := pyStrip measure.sqlExpression.toList
  match aggName measure.aggType with
  | none => false
  | some name =>
    let opening := name.toList ++ ['(']
    opening.isPrefixOf letters && letters.getLast? == some ')' &&
      decide (opening.length + 1 < letters.length)

def measureFor (measure : MeasureDefinition) : Except String String :=
  if matchesAggregate measure then .ok measure.name
  else
    .error ("measure " ++ measure.name ++ ": sql_expression does not match agg_type")

/-- What follows the first dot of a name, if it has one. -/
def afterDot (name : String) : Option String :=
  match name.toList.dropWhile (· ≠ '.') with
  | [] => none
  | _ :: rest => some (String.ofList rest)

def ownedDimensions (resource : ResourceBinding) (bundle : DefinitionBundle) : List CubeDimension :=
  bundle.dimensions.filterMap fun dimension =>
    if dimension.owningResource = resource.name then
      (afterDot dimension.name).map fun name => ⟨name, dimension.sqlExpression⟩
    else none

def departmentOf (resource : ResourceBinding) : Option String :=
  if resource.departmentScopeMode = .none then none else resource.scopeColumns.department

/-- The department column is a dimension too, unless one has its name. -/
def dimensionsFor (resource : ResourceBinding) (bundle : DefinitionBundle) : List CubeDimension :=
  let owned := ownedDimensions resource bundle
  match departmentOf resource with
  | none => owned
  | some department =>
    if owned.all fun dimension => dimension.name ≠ department then
      owned ++ [⟨department, department⟩]
    else owned

def relationFor (resource : ResourceBinding) : List RelationPredicate :=
  ((resource.recordPredicates.insertionSort fun first second => first.1 ≤ second.1).map
    fun predicate => .equals predicate.1 predicate.2) ++
  resource.scopeColumns.entity.toList.map .entityScope

def cubeFor (resource : ResourceBinding) (bundle : DefinitionBundle) : Except String CubeDef :=
  if resource.departmentScopeMode = .requiredMatch then
    .error ("unsupported department scope mode on " ++ resource.name)
  else do
    let measures ← (bundle.measures.filter fun measure =>
      measure.owningResource = resource.name ∧ measure.aggType ≠ .derived).mapM measureFor
    return {
      name := resource.name
      projectionView := resource.projectionView
      relation := relationFor resource
      dimensions := dimensionsFor resource bundle
      measures := measures
      relationColumns := sortedSet (resource.recordPredicates.map Prod.fst ++
        resource.scopeColumns.entity.toList)
      departmentColumn := departmentOf resource }

def generateCubeModel (bundle : DefinitionBundle) : Except String CubeModel := do
  let cubes ← (bundle.resources.insertionSort fun first second =>
    first.name ≤ second.name).mapM fun resource => cubeFor resource bundle
  return {
    cubes := cubes
    viewName := viewName
    bundleHash := bundle.contentHash
    generatorVersion := generatorVersion }

namespace CubeModel

variable (model : CubeModel)

def cubeNamed (name : String) : Option CubeDef :=
  model.cubes.find? fun cube => cube.name = name

def viewMember (cube : CubeDef) (name : String) : String :=
  model.viewName ++ "." ++ cube.name ++ "_" ++ name

def forcedColumns (cubeName : String) : List String :=
  match model.cubeNamed cubeName with
  | none => []
  | some cube =>
    cube.relationColumns ++ cube.departmentColumn.toList.filter fun column => column ≠ ""

/-- The plan names a cube's members go by, with their view names. -/
def memberPairs (cube : CubeDef) : List (String × String) :=
  (cube.dimensions.map fun dimension =>
    (cube.name ++ "." ++ dimension.name, model.viewMember cube dimension.name)) ++
  cube.measures.map fun name => (name, model.viewMember cube name)

end CubeModel

/-- Plan names and view names; no two entries share either. -/
structure CubeMemberMap where
  planToView : List (String × String)
  planNames : (planToView.map Prod.fst).Nodup
  viewNames : (planToView.map Prod.snd).Nodup

namespace CubeMemberMap

variable (members : CubeMemberMap)

def toView (name : String) : Option String :=
  lookup members.planToView name

def toPlan (name : String) : Option String :=
  (members.planToView.find? fun entry => entry.2 = name).map Prod.fst

theorem toPlan_of_toView {members : CubeMemberMap} {name view : String}
    (isView : members.toView name = some view) : members.toPlan view = some name := by
  have inside := mem_of_lookup isView
  unfold toPlan
  cases found : members.planToView.find? fun entry => entry.2 = view with
  | none =>
    have others := List.find?_eq_none.mp found _ inside
    rw [decide_eq_true rfl] at others
    exact absurd rfl others
  | some other =>
    have sameView : other.2 = view := by
      simpa using List.find?_some found
    have same := List.inj_on_of_nodup_map members.viewNames
      (List.mem_of_find?_eq_some found) inside sameView
    rw [same]
    rfl

end CubeMemberMap

/-- The member map of a model; two plan names may not share a view name. -/
def memberMap (model : CubeModel) : Except String CubeMemberMap :=
  let entries := ofPairs (model.cubes.flatMap model.memberPairs)
  if distinct : (entries.map Prod.snd).Nodup then
    .ok ⟨entries, nodup_keys_ofPairs _, distinct⟩
  else .error "generated view members are not unique"

end McpAssistant.BusinessQuery.CubeGeneration
