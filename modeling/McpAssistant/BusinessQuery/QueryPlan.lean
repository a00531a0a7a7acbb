import McpAssistant.BusinessQuery.FilterTree

/-!
# Query plans

A plan names members: measures, dimensions, filters, an order, a period and
typed detail predicates.  It may declare derived sets, each with a plan of its
own, and refer to them from set filters.

`PlanNode` is a plan without its derived sets; `BusinessQueryPlan` adds them.
-/

namespace McpAssistant.BusinessQuery.QueryPlan

open FilterTree

inductive RelativeRange where
  | today
  | thisWeek
  | lastWeek
  | thisMonth
  | lastMonth
  | thisQuarter
  | lastQuarter
  | thisYear
  | lastYear
  | allTime
deriving DecidableEq

/-- Exactly one way to bound a period.  A date is its day number. -/
inductive PeriodRange where
  | relative (range : RelativeRange)
  | on (day : Int)
  | since (day : Int)
  | between (first last : Int) (ordered : first ≤ last)
deriving DecidableEq

inductive TimeGranularity where
  | day
  | week
  | month
  | quarter
  | year
deriving DecidableEq

structure BusinessPeriod where
  timeDimension : String
  range : PeriodRange
  granularity : Option TimeGranularity := none
deriving DecidableEq

inductive CompareTo where
  | period (period : BusinessPeriod)
  | previousPeriod
  | samePeriodLastYear
deriving DecidableEq

inductive Direction where
  | asc
  | desc
deriving DecidableEq

structure OrderClause where
  member : String
  direction : Direction
deriving DecidableEq

inductive DetailRevisionMode where
  | recorded
  | current
  | asOf
  | exact
deriving DecidableEq

/-- An instant is the text it prints as. -/
structure DetailSelection where
  family : String
  revisionMode : DetailRevisionMode := .recorded
  revisionHash : Option String := none
  asOf : Option String := none
deriving DecidableEq

inductive Grain where
  | scalar
  | grouped
  | entityRows
deriving DecidableEq

inductive SetMode where
  | complete
  | pick
  | ranked
deriving DecidableEq

structure PlanNode where
  measures : List String := []
  dimensions : List String := []
  bucketSet : Option String := none
  anchor : Option String := none
  filters : Option FilterGroup := none
  having : Option FilterGroup := none
  period : Option BusinessPeriod := none
  compareTo : Option CompareTo := none
  grain : Grain
  order : List OrderClause := []
  attributePredicates : List AttributePredicate := []
  detailSelections : List DetailSelection := []
  limit : Nat := 20

/-- A declared set: the key it selects and the plan that selects it. -/
structure DerivedSet (Plan : Type) where
  id : String
  mode : SetMode
  key : String
  plan : Plan

structure BusinessQueryPlan extends PlanNode where
  derivedSets : List (DerivedSet BusinessQueryPlan) := []

/-- The calendar bucket a set selects when its key is its own period's time
member. -/
def timeGroupFor (key : String) (plan : PlanNode) : Option TimeGranularity :=
  match plan.period with
  | some period => if period.timeDimension = key then period.granularity else none
  | none => none

def localPlanMemberNames (plan : PlanNode) : List String :=
  plan.measures ++ plan.dimensions ++ plan.bucketSet.toList ++
    collectFilterMembers plan.filters ++ collectFilterMembers plan.having ++
    plan.attributePredicates.map AttributePredicate.familyKey ++
    plan.detailSelections.map DetailSelection.family ++
    plan.period.toList.map BusinessPeriod.timeDimension ++
    plan.order.map OrderClause.member

mutual

def planMemberNames : BusinessQueryPlan → List String
  | ⟨node, sets⟩ => localPlanMemberNames node ++ setMemberNames sets

def setMemberNames : List (DerivedSet BusinessQueryPlan) → List String
  | [] => []
  | ⟨_, _, _, plan⟩ :: sets => planMemberNames plan ++ setMemberNames sets

end

theorem mem_setMemberNames {sets : List (DerivedSet BusinessQueryPlan)} {name : String} :
    name ∈ setMemberNames sets ↔ ∃ item ∈ sets, name ∈ planMemberNames item.plan := by
  induction sets with
  | nil => simp [setMemberNames]
  | cons item sets ih => simp [setMemberNames, ih]

theorem mem_planMemberNames {plan : BusinessQueryPlan} {name : String} :
    name ∈ planMemberNames plan ↔ name ∈ localPlanMemberNames plan.toPlanNode ∨
        ∃ item ∈ plan.derivedSets, name ∈ planMemberNames item.plan := by
  obtain ⟨node, sets⟩ := plan
  simp [planMemberNames, mem_setMemberNames]

def attributePredicatesOf (plan : PlanNode) : List AttributePredicate :=
  plan.attributePredicates ++ attributeLeaves (iterFilterLeaves plan.filters) ++
    attributeLeaves (iterFilterLeaves plan.having)

theorem familyKey_mem_localPlanMemberNames {plan : PlanNode} {predicate : AttributePredicate}
    (member : predicate ∈ attributePredicatesOf plan) :
    predicate.familyKey ∈ localPlanMemberNames plan := by
  simp only [attributePredicatesOf, List.mem_append, mem_attributeLeaves] at member
  simp only [localPlanMemberNames, List.mem_append, List.mem_map, collectFilterMembers]
  rcases member with (listed | filtered) | had
  · exact .inl (.inl (.inl (.inr ⟨predicate, listed, rfl⟩)))
  · exact .inl (.inl (.inl (.inl (.inl (.inr ⟨.predicate predicate, filtered, rfl⟩)))))
  · exact .inl (.inl (.inl (.inl (.inr ⟨.predicate predicate, had, rfl⟩))))

theorem BusinessQueryPlan.induction {motive : BusinessQueryPlan → Prop}
    (step : ∀ plan : BusinessQueryPlan, (∀ item ∈ plan.derivedSets, motive item.plan) → motive plan)
    (plan : BusinessQueryPlan) : motive plan := by
  apply step
  intro item member
  exact BusinessQueryPlan.induction step item.plan
termination_by plan
decreasing_by
  have smaller := List.sizeOf_lt_of_mem member
  obtain ⟨node, sets⟩ := plan
  obtain ⟨id, mode, key, inner⟩ := item
  simp only [BusinessQueryPlan.mk.sizeOf_spec, DerivedSet.mk.sizeOf_spec] at *
  omega

/-- The plans inside a plan: itself and its derived sets' plans, at any
depth. -/
inductive PlanPart (root : BusinessQueryPlan) : BusinessQueryPlan → Prop where
  | self : PlanPart root root
  | derived {part : BusinessQueryPlan} {item : DerivedSet BusinessQueryPlan}
      (outer : PlanPart root part) (member : item ∈ part.derivedSets) :
      PlanPart root item.plan

theorem PlanPart.trans {root middle part : BusinessQueryPlan}
    (outer : PlanPart root middle) (inner : PlanPart middle part) :
    PlanPart root part := by
  induction inner with
  | self => exact outer
  | derived _ member ih => exact .derived ih member

end McpAssistant.BusinessQuery.QueryPlan
