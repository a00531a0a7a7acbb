import McpAssistant.BusinessQuery.CubeQueries

/-!
# Plan shapes

The shape key of a plan names what its statement is made of, without values and
limits.  Members are listed in alphabetical order, and a filter tree is flattened
to its leaves.
-/

namespace McpAssistant.BusinessQuery.PlanShapes

open FilterTree QueryPlan CubeQueries
open FilterJson (operatorName)
open PlanJson (granularityName directionName grainName setModeName)
open Foundations.JoinedText

def leafKey (leaf : FilterLeaf) : String :=
  leaf.member ++ ":" ++ operatorName (FilterLeaf.operator leaf)

def rangeKind : PeriodRange → String
  | .relative _ => "relative"
  | .on _ => "on"
  | .since _ => "since"
  | .between _ _ _ => "between"

def periodKey : Option BusinessPeriod → String
  | none => ""
  | some period =>
    period.timeDimension ++ ":" ++ (period.granularity.map granularityName).getD "" ++
      ":" ++ rangeKind period.range

def compareToKey : Option CompareTo → String
  | none => ""
  | some .previousPeriod => "previous_period"
  | some .samePeriodLastYear => "same_period_last_year"
  | some (.period _) => "period"

def orderKey (clause : OrderClause) : String :=
  clause.member ++ ":" ++ directionName clause.direction

def nodeParts (plan : PlanNode) : List String := [
  grainName plan.grain,
  "a=" ++ plan.anchor.getD "",
  "m=" ++ joinWith "," (sorted plan.measures),
  "d=" ++ joinWith "," (sorted plan.dimensions),
  "b=" ++ plan.bucketSet.getD "",
  "f=" ++ joinWith "," (sorted ((iterFilterLeaves plan.filters).map leafKey)),
  "h=" ++ joinWith "," (sorted ((iterFilterLeaves plan.having).map leafKey)),
  "ap=" ++ joinWith "," (sorted (plan.attributePredicates.map AttributePredicate.familyKey)),
  "ds=" ++ joinWith "," (sorted (plan.detailSelections.map DetailSelection.family)),
  "o=" ++ joinWith "," (plan.order.map orderKey),
  "p=" ++ periodKey plan.period,
  "c=" ++ compareToKey plan.compareTo]

mutual

def planShapeKey : BusinessQueryPlan → String
  | ⟨node, sets⟩ =>
    joinWith " | " (nodeParts node ++ ["s=" ++ joinWith "," (derivedSetKeys sets)])

def derivedSetKeys : List (DerivedSet BusinessQueryPlan) → List String
  | [] => []
  | ⟨_, mode, key, plan⟩ :: sets =>
    (setModeName mode ++ ":" ++ key ++ ":\x7b" ++ planShapeKey plan ++ "\x7d") ::
      derivedSetKeys sets

end

/-- A filter tree without its values. -/
inductive Shape where
  | leaf (member operator : String) (valued : Bool)
  | anyOf (parts : List Shape)
  | allOf (parts : List Shape)

mutual

def shapeOf : CubeFilter → Shape
  | .item member operator values => .leaf member operator values.isSome
  | .anyOf parts => .anyOf (shapesOf parts)
  | .allOf parts => .allOf (shapesOf parts)

def shapesOf : List CubeFilter → List Shape
  | [] => []
  | part :: parts => shapeOf part :: shapesOf parts

end

def timeShape (time : TimeDimension) : String × Option String × Bool :=
  (time.dimension, time.granularity, time.dateRange.isSome)

/-- Two queries with the same members, the same filter trees up to their values,
the same time dimensions and the same order. -/
structure SameStructure (first second : CubeQuery) : Prop where
  measures : first.measures.Perm second.measures
  dimensions : first.dimensions.Perm second.dimensions
  timezone : first.timezone = second.timezone
  filters : shapesOf first.filters = shapesOf second.filters
  timeDimensions : first.timeDimensions.map timeShape = second.timeDimensions.map timeShape
  order : first.order = second.order

def groupShape (all any : List (Option Shape)) : Option Shape :=
  let alternatives := if any.isEmpty then [] else [.anyOf (any.filterMap id)]
  match all.filterMap id ++ alternatives with
  | [] => none
  | [part] => some part
  | parts => some (.allOf parts)

def leafShape (leaf : FilterLeaf) : Shape :=
  .leaf leaf.member ((operatorMap (FilterLeaf.operator leaf)).getD "")
    (takesValues (FilterLeaf.operator leaf))

mutual

def nodeShape : FilterNode → Option Shape
  | .leaf leaf => some (leafShape leaf)
  | .group all any => groupShape (nodeShapes all) (nodeShapes any)

def nodeShapes : List FilterNode → List (Option Shape)
  | [] => []
  | node :: nodes => nodeShape node :: nodeShapes nodes

end

def treeShape : Option FilterGroup → List Shape
  | none => []
  | some group => (nodeShape (.group group.all group.any)).toList

/-- The trees of a plan, its filters before its having clause. -/
def treeShapes (plan : PlanNode) : List Shape :=
  treeShape plan.filters ++ treeShape plan.having

/-- Whether a plan's period has no bounds, if it has a period. -/
def unbounded (plan : PlanNode) : Option Bool :=
  plan.period.map fun period => decide (period.range = .relative .allTime)

end McpAssistant.BusinessQuery.PlanShapes
