import McpAssistant.BusinessQuery.PlanShapes

/-!
# Plans of one shape

When no member name holds a separator, a shape key determines the members, the
order and the time dimension of a query.  It does not determine the tree that
its filters stand in, nor whether a relative period bounds the query at all: two
plans with one key have one statement structure exactly when these agree too.
-/

namespace McpAssistant.BusinessQuery.ShapeAgreement

open Definitions FilterTree QueryPlan Outcomes BusinessTime CubeGeneration CubeQueries PlanShapes
open FilterJson (operatorName)
open PlanJson (granularityName directionName grainName)
open Foundations.Fallible
open Foundations.JoinedText List

mutual

def rename (name : String → String) : Shape → Shape
  | .leaf member operator valued => .leaf (name member) operator valued
  | .anyOf parts => .anyOf (renames name parts)
  | .allOf parts => .allOf (renames name parts)

def renames (name : String → String) : List Shape → List Shape
  | [] => []
  | part :: parts => rename name part :: renames name parts

end

theorem renames_eq_map (name : String → String) (parts : List Shape) :
    renames name parts = parts.map (rename name) := by
  induction parts with
  | nil => rfl
  | cons part parts ih => rw [renames, ih, map_cons]

theorem shapesOf_eq_map (parts : List CubeFilter) : shapesOf parts = parts.map shapeOf := by
  induction parts with
  | nil => rfl
  | cons part parts ih => rw [shapesOf, ih, map_cons]

theorem filterMap_map_id {Value Result : Type} (change : Value → Result)
    (values : List (Option Value)) :
    (values.map (Option.map change)).filterMap id = (values.filterMap id).map change := by
  rw [filterMap_map, map_filterMap]
  rfl

theorem shapeOf_groupOf (all any : List (Option CubeFilter)) : (groupOf all any).map shapeOf =
      groupShape (all.map (Option.map shapeOf)) (any.map (Option.map shapeOf)) := by
  unfold groupOf groupShape
  simp only [filterMap_map_id, isEmpty_map]
  have alternatives : (if any.isEmpty then [] else [Shape.anyOf ((any.filterMap id).map
      shapeOf)]) = (if any.isEmpty then [] else [.anyOf (any.filterMap id)]).map shapeOf := by
    split
    · rfl
    · rw [map_singleton, shapeOf, shapesOf_eq_map]
  rw [alternatives, ← map_append]
  rcases all.filterMap id ++ _ with _ | ⟨part, _ | ⟨next, parts⟩⟩
  · rfl
  · rfl
  · show some (shapeOf (.allOf _)) = _
    rw [shapeOf, shapesOf_eq_map]
    rfl

theorem rename_groupShape (name : String → String) (all any : List (Option Shape)) :
    (groupShape all any).map (rename name) = groupShape (all.map (Option.map (rename name)))
        (any.map (Option.map (rename name))) := by
  unfold groupShape
  simp only [filterMap_map_id, isEmpty_map]
  have alternatives : (if any.isEmpty then [] else [Shape.anyOf ((any.filterMap id).map
      (rename name))]) =
      (if any.isEmpty then [] else [.anyOf (any.filterMap id)]).map (rename name) := by
    split
    · rfl
    · rw [map_singleton, rename, renames_eq_map]
  rw [alternatives, ← map_append]
  rcases all.filterMap id ++ _ with _ | ⟨part, _ | ⟨next, parts⟩⟩
  · rfl
  · rfl
  · show some (rename name (.allOf _)) = _
    rw [rename, renames_eq_map]
    rfl

section Members

variable {members : CubeMemberMap}

def viewOf (members : CubeMemberMap) (name : String) : String :=
  (members.toView name).getD ""

def planOf (members : CubeMemberMap) (name : String) : String :=
  (members.toPlan name).getD ""

def Known (members : CubeMemberMap) (name : String) : Prop :=
  ∃ member, members.toView name = some member

theorem view_eq_ok {name member : String} (isView : view members name = .ok member) :
    Known members name ∧ member = viewOf members name ∧ planOf members member = name := by
  unfold view at isView
  split at isView
  · cases isView
  · next found isFound =>
      cases isView
      refine ⟨⟨member, isFound⟩, ?_, ?_⟩
      · unfold viewOf
        rw [isFound]
        rfl
      · unfold planOf
        rw [CubeMemberMap.toPlan_of_toView isFound]
        rfl

/-- What translating a node tells: the shape of its result under plan names and
under view names, and that its leaves name known members. -/
structure Translated (members : CubeMemberMap) (node : FilterNode)
    (part : Option CubeFilter) : Prop where
  toView : part.map shapeOf = (nodeShape node).map (rename (viewOf members))
  toPlan : (part.map shapeOf).map (rename (planOf members)) = nodeShape node
  known : ∀ leaf ∈ node.leaves, Known members leaf.member

structure TranslatedList (members : CubeMemberMap) (nodes : List FilterNode)
    (parts : List (Option CubeFilter)) : Prop where
  toView : parts.map (Option.map shapeOf) =
    (nodeShapes nodes).map (Option.map (rename (viewOf members)))
  toPlan : (parts.map (Option.map shapeOf)).map (Option.map (rename (planOf members))) =
    nodeShapes nodes
  known : ∀ leaf ∈ leavesOfList nodes, Known members leaf.member

theorem translated_leaf {leaf : FilterLeaf} {part : CubeFilter}
    (isPart : leafToCube members leaf = .ok part) :
    Translated members (.leaf leaf) (some part) := by
  rcases bind_eq_ok.mp isPart with ⟨member, isView, isPart⟩
  rcases view_eq_ok isView with ⟨known, isMember, isName⟩
  split at isPart
  · cases isPart
  · split at isPart
    · cases isPart
    · next operator isOperator =>
        cases isPart
        have isShape : shapeOf (.item member operator
            (if takesValues (FilterLeaf.operator leaf) then
              some ((FilterLeaf.values leaf).map FilterValue.pyStr) else none)) =
            .leaf member operator (takesValues (FilterLeaf.operator leaf)) := by
          rw [shapeOf]
          split
          · next takes => rw [takes]; rfl
          · next takes => rw [Bool.eq_false_iff.mpr takes]; rfl
        have isLeaf : leafShape leaf =
            .leaf leaf.member operator (takesValues (FilterLeaf.operator leaf)) := by
          unfold leafShape
          rw [isOperator]
          rfl
        constructor
        · show some _ = some (rename _ (leafShape leaf))
          rw [isShape, isLeaf, rename, isMember]
        · show some (rename _ _) = some (leafShape leaf)
          rw [isShape, isLeaf, rename, isName]
        · intro other isOther
          rw [FilterNode.leaves, mem_singleton] at isOther
          rw [isOther]
          exact known

mutual

theorem translated_node : ∀ (node : FilterNode) (part : Option CubeFilter),
    filterNodeToCube members node = .ok part → Translated members node part
  | .leaf leaf, part, isPart => by
      rw [filterNodeToCube] at isPart
      rcases map_eq_ok.mp isPart with ⟨found, isFound, rfl⟩
      exact translated_leaf isFound
  | .group all any, part, isPart => by
      rw [filterNodeToCube] at isPart
      rcases bind_eq_ok.mp isPart with ⟨allParts, isAll, isPart⟩
      rcases bind_eq_ok.mp isPart with ⟨anyParts, isAny, isPart⟩
      cases isPart
      have all := translated_list all allParts isAll
      have any := translated_list any anyParts isAny
      constructor
      · rw [shapeOf_groupOf, all.toView, any.toView, nodeShape, rename_groupShape]
      · rw [shapeOf_groupOf, rename_groupShape, all.toPlan, any.toPlan, nodeShape]
      · intro leaf isLeaf
        rw [FilterNode.leaves] at isLeaf
        rcases List.mem_append.mp isLeaf with inAll | inAny
        · exact all.known leaf inAll
        · exact any.known leaf inAny

theorem translated_list : ∀ (nodes : List FilterNode) (parts : List (Option CubeFilter)),
    filterNodesToCube members nodes = .ok parts → TranslatedList members nodes parts
  | [], parts, isParts => by
      cases isParts
      constructor
      · rfl
      · rfl
      · intro leaf isLeaf
        cases isLeaf
  | node :: nodes, parts, isParts => by
      rw [filterNodesToCube] at isParts
      rcases bind_eq_ok.mp isParts with ⟨part, isPart, isParts⟩
      rcases bind_eq_ok.mp isParts with ⟨others, isOthers, isParts⟩
      cases isParts
      have first := translated_node node part isPart
      have rest := translated_list nodes others isOthers
      constructor
      · rw [map_cons, nodeShapes, map_cons, first.toView, rest.toView]
      · rw [map_cons, map_cons, nodeShapes, first.toPlan, rest.toPlan]
      · intro leaf isLeaf
        rw [leavesOfList] at isLeaf
        rcases List.mem_append.mp isLeaf with own | later
        · exact first.known leaf own
        · exact rest.known leaf later

end

theorem translated_filters {group : Option FilterGroup} {parts : List CubeFilter}
    (isParts : filtersToCube members group = .ok parts) :
    shapesOf parts = (treeShape group).map (rename (viewOf members)) ∧
    (shapesOf parts).map (rename (planOf members)) = treeShape group ∧
    ∀ leaf ∈ iterFilterLeaves group, Known members leaf.member := by
  cases group with
  | none =>
    cases isParts
    exact ⟨rfl, rfl, forall_mem_nil _⟩
  | some group =>
    rcases map_eq_ok.mp isParts with ⟨part, isPart, rfl⟩
    have translated := translated_node _ part isPart
    rw [shapesOf_eq_map, ← Option.toList_map, ← Option.toList_map, translated.toPlan,
      translated.toView, Option.toList_map]
    refine ⟨rfl, rfl, ?_⟩
    intro leaf isLeaf
    apply translated.known leaf
    rw [FilterNode.leaves]
    exact isLeaf

theorem mapM_view {names views : List String} (isViews : names.mapM (view members) = .ok views) :
    views = names.map (viewOf members) ∧ ∀ name ∈ names, Known members name := by
  rcases mapM_determined (fun name member isView => (view_eq_ok isView).2.1) isViews with
    ⟨values, each⟩
  exact ⟨values, fun name inside => (view_eq_ok (each name inside)).1⟩

theorem mapM_order {clauses : List OrderClause} {order : List (String × String)}
    (isOrder : (clauses.mapM fun clause => (view members clause.member).map
      fun member => (member, directionName clause.direction)) = .ok order) :
    (order = clauses.map fun clause =>
      (viewOf members clause.member, directionName clause.direction)) ∧
    ∀ clause ∈ clauses, Known members clause.member := by
  have determined : ∀ (clause : OrderClause) (found : String × String),
      ((view members clause.member).map
        fun member => (member, directionName clause.direction)) = .ok found →
      found = (viewOf members clause.member, directionName clause.direction) := by
    intro clause found isFound
    rcases map_eq_ok.mp isFound with ⟨member, isView, rfl⟩
    rw [(view_eq_ok isView).2.1]
  rcases mapM_determined determined isOrder with ⟨values, each⟩
  refine ⟨values, ?_⟩
  intro clause inside
  rcases map_eq_ok.mp (each clause inside) with ⟨member, isView, -⟩
  exact (view_eq_ok isView).1

variable {clock : Except Raised Int} {businessDate : Option Int}

/-- Whether a period bounds the query. -/
theorem timeShape_of_period {period : BusinessPeriod} {time : TimeDimension}
    (isTime : periodToTimeDimension members clock businessDate period = .ok time) :
    Known members period.timeDimension ∧
    timeShape time = (viewOf members period.timeDimension, period.granularity.map granularityName,
      decide (period.range ≠ .relative .allTime)) := by
  rcases bind_eq_ok.mp isTime with ⟨dimension, isView, isTime⟩
  rcases bind_eq_ok.mp isTime with ⟨bounds, isBounds, isTime⟩
  cases isTime
  refine ⟨(view_eq_ok isView).1, ?_⟩
  have bounded : bounds.isSome = decide (period.range ≠ .relative .allTime) := by
    have isBounds := mapError_eq_ok.mp isBounds
    unfold timeFilterBounds at isBounds
    split at isBounds
    · next isAllTime =>
        cases isBounds
        rw [decide_eq_false (not_not.mpr isAllTime)]
        rfl
    · next isBounded =>
        rcases map_eq_ok.mp isBounds with ⟨days, -, rfl⟩
        rw [decide_eq_true isBounded]
        rfl
  unfold timeShape
  rw [Option.isSome_map, bounded, (view_eq_ok isView).2.1]

theorem mapM_period {period : Option BusinessPeriod} {times : List TimeDimension}
    (noGranularity : ∀ found ∈ period, found.granularity = none)
    (isTimes : period.toList.mapM (periodToTimeDimension members clock businessDate) = .ok times) :
    (times.map timeShape = period.toList.map fun period =>
      (viewOf members period.timeDimension, none, decide (period.range ≠ .relative .allTime))) ∧
    ∀ found ∈ period.toList, Known members found.timeDimension := by
  cases period with
  | none =>
    cases isTimes
    exact ⟨rfl, forall_mem_nil _⟩
  | some period =>
    rw [Option.toList_some, mapM_cons] at isTimes
    rcases bind_eq_ok.mp isTimes with ⟨time, isTime, isTimes⟩
    cases isTimes
    rcases timeShape_of_period isTime with ⟨known, isShape⟩
    rw [noGranularity period rfl] at isShape
    constructor
    · show [timeShape time] = _
      rw [isShape]
      rfl
    · intro found inside
      rw [List.mem_singleton.mp inside]
      exact known

/-- What a built query is made of, and what its plan then names. -/
structure Built (members : CubeMemberMap) (timezone : String) (plan : PlanNode)
    (query : CubeQuery) : Prop where
  measures : query.measures = plan.measures.map (viewOf members)
  dimensions : query.dimensions = plan.dimensions.map (viewOf members)
  timezone : query.timezone = timezone
  toView : shapesOf query.filters = (treeShapes plan).map (rename (viewOf members))
  toPlan : (shapesOf query.filters).map (rename (planOf members)) = treeShapes plan
  timeDimensions : query.timeDimensions.map timeShape =
    plan.period.toList.map fun period => (viewOf members period.timeDimension, none,
      decide (period.range ≠ .relative .allTime))
  order : query.order = Foundations.Dictionaries.ofPairs (plan.order.map fun clause =>
    (viewOf members clause.member, directionName clause.direction))
  known : ∀ name, name ∈ plan.measures ∨ name ∈ plan.dimensions ∨
    name ∈ (iterFilterLeaves plan.filters).map FilterLeaf.member ∨
    name ∈ (iterFilterLeaves plan.having).map FilterLeaf.member ∨
    name ∈ plan.order.map OrderClause.member ∨
    name ∈ plan.period.toList.map BusinessPeriod.timeDimension → Known members name
  bucketSet : plan.bucketSet = none
  compareTo : plan.compareTo = none
  attributePredicates : plan.attributePredicates = []
  detailSelections : plan.detailSelections = []
  granularity : ∀ period ∈ plan.period, period.granularity = none

variable {bundle : DefinitionBundle}

theorem supported_of_none {plan : PlanNode} (supported : unsupportedPlanReason plan bundle = none) :
    plan.bucketSet = none ∧ plan.compareTo = none ∧ plan.attributePredicates = [] ∧
    plan.detailSelections = [] ∧ ∀ period ∈ plan.period, period.granularity = none := by
  unfold unsupportedPlanReason at supported
  split at supported
  · cases supported
  · next noBucket =>
      split at supported
      · cases supported
      · next noGap =>
          unfold shapeGap at noGap
          split_ifs at noGap with noCompare noPredicates noDetails noGranularity
          refine ⟨by simpa using noBucket, by simpa using noCompare,
            by simpa using noPredicates, by simpa using noDetails, ?_⟩
          intro period isPeriod
          rw [Option.mem_def.mp isPeriod] at noGranularity
          simpa using noGranularity

theorem built_of_cubeQueryFor {timezone : String} {plan : BusinessQueryPlan} {query : CubeQuery}
    (isQuery : cubeQueryFor members bundle clock businessDate timezone plan = .ok query) :
    Built members timezone plan.toPlanNode query := by
  unfold cubeQueryFor at isQuery
  split at isQuery
  · cases isQuery
  · next supported =>
      rcases supported_of_none supported with
        ⟨noBucket, noCompare, noPredicates, noDetails, noGranularity⟩
      rcases bind_eq_ok.mp isQuery with ⟨measures, isMeasures, isQuery⟩
      rcases bind_eq_ok.mp isQuery with ⟨dimensions, isDimensions, isQuery⟩
      rcases bind_eq_ok.mp isQuery with ⟨filters, isFilters, isQuery⟩
      rcases bind_eq_ok.mp isQuery with ⟨having, isHaving, isQuery⟩
      rcases bind_eq_ok.mp isQuery with ⟨times, isTimes, isQuery⟩
      rcases bind_eq_ok.mp isQuery with ⟨order, isOrder, isQuery⟩
      cases isQuery
      rcases mapM_view isMeasures with ⟨measures, knownMeasures⟩
      rcases mapM_view isDimensions with ⟨dimensions, knownDimensions⟩
      rcases translated_filters isFilters with ⟨filtersView, filtersPlan, knownFilters⟩
      rcases translated_filters isHaving with ⟨havingView, havingPlan, knownHaving⟩
      rcases mapM_order isOrder with ⟨order, knownOrder⟩
      have append : ∀ first second : List CubeFilter,
          shapesOf (first ++ second) = shapesOf first ++ shapesOf second := by
        intro first second
        rw [shapesOf_eq_map, shapesOf_eq_map, shapesOf_eq_map, map_append]
      rcases mapM_period noGranularity isTimes with ⟨times, knownTimes⟩
      constructor
      · exact measures
      · exact dimensions
      · rfl
      · rw [append, filtersView, havingView, treeShapes, map_append]
      · rw [append, map_append, filtersPlan, havingPlan, treeShapes]
      · exact times
      · rw [order]
      · intro name
        simp only [mem_map]
        rintro (inside | inside | ⟨leaf, inside, rfl⟩ | ⟨leaf, inside, rfl⟩ |
          ⟨clause, inside, rfl⟩ | ⟨period, inside, rfl⟩)
        · exact knownMeasures name inside
        · exact knownDimensions name inside
        · exact knownFilters leaf inside
        · exact knownHaving leaf inside
        · exact knownOrder clause inside
        · exact knownTimes period inside
      · exact noBucket
      · exact noCompare
      · exact noPredicates
      · exact noDetails
      · exact noGranularity

/-! ## Reading a key -/

/-- A name that no separator of a key occurs in. -/
structure PlainName (name : String) : Prop where
  nonempty : name ≠ ""
  comma : Clear ',' name
  colon : Clear ':' name
  bar : Clear '|' name

/-- Cube names its members by plain names, and plans name cubes as anchors. -/
def PlainMembers (members : CubeMemberMap) : Prop :=
  ∀ name, Known members name → PlainName name

def PlainAnchor (plan : PlanNode) : Prop :=
  ∀ anchor ∈ plan.anchor, Clear '|' anchor

theorem markedComma : Marked "," ',' := ⟨[], [], by decide, by decide⟩

theorem markedColon : Marked ":" ':' := ⟨[], [], by decide, by decide⟩

theorem markedBar : Marked " | " '|' := ⟨[' '], [' '], by decide, by decide⟩

theorem clear_operatorName (operator : FilterOperator) :
    Clear ',' (operatorName operator) ∧ Clear '|' (operatorName operator) := by
  cases operator <;> decide

theorem clear_directionName (direction : Direction) :
    Clear ',' (directionName direction) ∧ Clear '|' (directionName direction) := by
  cases direction <;> decide

theorem clear_rangeKind (range : PeriodRange) : Clear '|' (rangeKind range) := by
  unfold rangeKind
  split <;> decide

theorem clear_grainName (grain : Grain) : Clear '|' (grainName grain) := by
  cases grain <;> decide

section Keys

variable {timezone : String} {plan other : PlanNode} {query second : CubeQuery}

theorem clear_leafKeys {group : Option FilterGroup}
    (plain : ∀ leaf ∈ iterFilterLeaves group, PlainName leaf.member) :
    Clear '|' (joinWith "," (sorted ((iterFilterLeaves group).map leafKey))) := by
  apply clear_joinWith (by decide)
  intro word inside
  rcases List.mem_map.mp (mem_sorted.mp inside) with ⟨leaf, isLeaf, rfl⟩
  unfold leafKey
  rw [clear_append, clear_append]
  exact ⟨⟨(plain leaf isLeaf).bar, by decide⟩, (clear_operatorName _).2⟩

theorem clear_names {names : List String} (plain : ∀ name ∈ names, PlainName name) :
    Clear '|' (joinWith "," (sorted names)) := by
  apply clear_joinWith (by decide)
  intro word inside
  exact (plain word (mem_sorted.mp inside)).bar

variable {clause : OrderClause}

theorem plain_orderKey (plain : PlainName clause.member) :
    orderKey clause ≠ "" ∧ Clear ',' (orderKey clause) ∧ Clear '|' (orderKey clause) := by
  unfold orderKey
  rw [clear_append, clear_append, clear_append, clear_append]
  refine ⟨?_, ⟨⟨plain.comma, by decide⟩, (clear_directionName _).1⟩,
    ⟨⟨plain.bar, by decide⟩, (clear_directionName _).2⟩⟩
  intro isEmpty
  have letters : (clause.member ++ ":" ++ directionName clause.direction).toList = [] :=
    congrArg String.toList isEmpty
  simp [String.toList_append] at letters

theorem Built.knownOrder (built : Built members timezone plan query)
    (inside : clause ∈ plan.order) : Known members clause.member :=
  built.known _ (.inr (.inr (.inr (.inr (.inl (mem_map_of_mem inside))))))

/-- Before its derived sets, the key of a plan that a query is built from has no bar
inside a part. -/
theorem clear_nodeParts (plainMembers : PlainMembers members)
    (plainAnchor : PlainAnchor plan) (built : Built members timezone plan query) :
    ∀ part ∈ nodeParts plan, Clear '|' part := by
  have plain := fun name inside => plainMembers name (built.known name inside)
  have prefixed : ∀ {first second : String}, Clear '|' first → Clear '|' second →
      Clear '|' (first ++ second) := fun left right => clear_append.mpr ⟨left, right⟩
  unfold nodeParts
  rw [built.bucketSet, built.compareTo, built.attributePredicates, built.detailSelections]
  simp only [forall_mem_cons]
  refine ⟨clear_grainName _, prefixed (by decide) ?_,
    prefixed (by decide) ?_, prefixed (by decide) ?_,
    by decide, prefixed (by decide) ?_,
    prefixed (by decide) ?_, by decide,
    by decide, prefixed (by decide) ?_,
    prefixed (by decide) ?_, by decide,
    forall_mem_nil _⟩
  · cases isAnchor : plan.anchor with
    | none => decide
    | some anchor => exact plainAnchor anchor isAnchor
  · exact clear_names fun name inside => plain name (.inl inside)
  · exact clear_names fun name inside => plain name (.inr (.inl inside))
  · exact clear_leafKeys fun leaf inside =>
      plain _ (.inr (.inr (.inl (mem_map_of_mem inside))))
  · exact clear_leafKeys fun leaf inside =>
      plain _ (.inr (.inr (.inr (.inl (mem_map_of_mem inside)))))
  · apply clear_joinWith (by decide)
    intro word inside
    rcases List.mem_map.mp inside with ⟨clause, isClause, rfl⟩
    exact (plain_orderKey (plainMembers _ (built.knownOrder isClause))).2.2
  · cases isPeriod : plan.period with
    | none => decide
    | some period =>
      have noGranularity := built.granularity period isPeriod
      simp only [periodKey, noGranularity]
      refine prefixed (prefixed (prefixed (prefixed ?_ ?_) ?_) ?_) (clear_rangeKind _)
      · apply (plain period.timeDimension _).bar
        rw [isPeriod]
        simp
      · decide
      · decide
      · decide

theorem plain_orderKeys (built : Built members timezone plan query)
    (plainMembers : PlainMembers members) :
    ∀ word ∈ plan.order.map orderKey, word ≠ "" ∧ Clear ',' word := by
  intro word inside
  rcases List.mem_map.mp inside with ⟨clause, isClause, rfl⟩
  have plain := plain_orderKey (plainMembers _ (built.knownOrder isClause))
  exact ⟨plain.1, plain.2.1⟩

theorem map_eq_of_keys {Item Key Value : Type} {key : Item → Key} {value : Item → Value}
    {items others : List Item}
    (each : ∀ item ∈ items, ∀ other ∈ others, key item = key other → value item = value other)
    (same : items.map key = others.map key) : items.map value = others.map value := by
  induction items generalizing others with
  | nil =>
    cases others with
    | nil => rfl
    | cons => cases same
  | cons item items ih =>
    cases others with
    | nil => cases same
    | cons other others =>
      rcases List.cons.inj same with ⟨head, tail⟩
      rw [map_cons, map_cons, each item mem_cons_self other mem_cons_self head,
        ih (fun item inside other inside' => each item (mem_cons_of_mem _ inside)
          other (mem_cons_of_mem _ inside')) tail]

theorem directionName_injective {first second : Direction}
    (same : directionName first = directionName second) : first = second := by
  cases first <;> cases second <;> first | rfl | exact absurd same (by decide)

theorem orderKey_inj {after : OrderClause} (plain : PlainName clause.member)
    (plain' : PlainName after.member) (same : orderKey clause = orderKey after) :
    clause = after := by
  rcases word_append_inj markedColon plain.colon plain'.colon same with ⟨sameMember, sameDirection⟩
  cases clause
  cases after
  rw [OrderClause.mk.injEq]
  exact ⟨sameMember, directionName_injective sameDirection⟩

theorem perm_of_names {names others : List String}
    (plain : ∀ name ∈ names, PlainName name) (plain' : ∀ name ∈ others, PlainName name)
    (same : joinWith "," (sorted names) = joinWith "," (sorted others)) :
    names.Perm others := by
  apply perm_of_sorted_eq
  apply joinWith_inj markedComma _ _ same
  · intro word inside
    have isPlain := plain word (mem_sorted.mp inside)
    exact ⟨isPlain.nonempty, isPlain.comma⟩
  · intro word inside
    have isPlain := plain' word (mem_sorted.mp inside)
    exact ⟨isPlain.nonempty, isPlain.comma⟩

/-- What one key leaves open about the time dimension is whether it is bounded. -/
theorem timeDimensions_iff (built : Built members timezone plan query)
    (built' : Built members timezone other second)
    (plainMembers : PlainMembers members)
    (same : periodKey plan.period = periodKey other.period) :
    query.timeDimensions.map timeShape = second.timeDimensions.map timeShape ↔
      unbounded plan = unbounded other := by
  have plain := fun name inside => plainMembers name (built.known name inside)
  have plain' := fun name inside => plainMembers name (built'.known name inside)
  have noGranularity := built.granularity
  have noGranularity' := built'.granularity
  rw [built.timeDimensions, built'.timeDimensions]
  unfold unbounded
  have nonempty : ∀ period : BusinessPeriod, periodKey (some period) ≠ "" := by
    intro period isEmpty
    have letters : (periodKey (some period)).toList = [] := congrArg String.toList isEmpty
    simp [periodKey, String.toList_append] at letters
  cases isPeriod : plan.period with
  | none =>
    cases isOther : other.period with
    | none => simp
    | some after =>
      rw [isPeriod, isOther] at same
      exact absurd same.symm (nonempty after)
  | some period =>
    cases isOther : other.period with
    | none =>
      rw [isPeriod, isOther] at same
      exact absurd same (nonempty period)
    | some after =>
      rw [isPeriod, isOther] at same
      have before := noGranularity period isPeriod
      have behind := noGranularity' after isOther
      have named : PlainName period.timeDimension := by
        apply plain
        rw [isPeriod]
        simp
      have named' : PlainName after.timeDimension := by
        apply plain'
        rw [isOther]
        simp
      have split : ∀ found : BusinessPeriod, found.granularity = none → periodKey (some found) =
            found.timeDimension ++ ":" ++ (":" ++ rangeKind found.range) := by
        intro found noGranularity
        simp only [periodKey, noGranularity]
        show found.timeDimension ++ ":" ++ "" ++ ":" ++ _ = _
        rw [String.append_empty, String.append_assoc]
      rw [split period before, split after behind] at same
      have sameName := (word_append_inj markedColon named.colon named'.colon same).1
      simp [sameName]

/-- **Two plans with one key, that queries are built from, have one statement
structure exactly when their trees have one shape and their periods are both bounded
or both not.** -/
theorem sameStructure_iff {first second : BusinessQueryPlan}
    {bundle : DefinitionBundle} {timezone : String}
    {clock clock' : Except Raised Int} {businessDate businessDate' : Option Int}
    {query query' : CubeQuery} (plainMembers : PlainMembers members)
    (plainAnchor : PlainAnchor first.toPlanNode)
    (plainAnchor' : PlainAnchor second.toPlanNode)
    (isQuery : cubeQueryFor members bundle clock businessDate timezone first = .ok query)
    (isQuery' : cubeQueryFor members bundle clock' businessDate' timezone second = .ok query')
    (sameKey : planShapeKey first = planShapeKey second) :
    SameStructure query query' ↔ treeShapes first.toPlanNode = treeShapes second.toPlanNode ∧
      unbounded first.toPlanNode = unbounded second.toPlanNode := by
  have built := built_of_cubeQueryFor isQuery
  have built' := built_of_cubeQueryFor isQuery'
  have parts : nodeParts first.toPlanNode = nodeParts second.toPlanNode := by
    cases first
    cases second
    rw [planShapeKey, planShapeKey] at sameKey
    exact (joinWith_append_inj markedBar (by rfl) (clear_nodeParts plainMembers plainAnchor built)
      (clear_nodeParts plainMembers plainAnchor' built') sameKey).1
  simp only [nodeParts, List.cons.injEq, String.append_right_inj] at parts
  rcases parts with ⟨-, -, measures, dimensions, -, -, -, -, -, order, period, -, -⟩
  have plain := fun name inside => plainMembers name (built.known name inside)
  have plain' := fun name inside => plainMembers name (built'.known name inside)
  have times := timeDimensions_iff built built' plainMembers period
  constructor
  · intro same
    constructor
    · rw [← built.toPlan, ← built'.toPlan, same.filters]
    · exact times.mp same.timeDimensions
  · rintro ⟨sameTrees, sameBounds⟩
    constructor
    · rw [built.measures, built'.measures]
      exact (perm_of_names (fun name inside => plain name (.inl inside))
        (fun name inside => plain' name (.inl inside)) measures).map _
    · rw [built.dimensions, built'.dimensions]
      exact (perm_of_names (fun name inside => plain name (.inr (.inl inside)))
        (fun name inside => plain' name (.inr (.inl inside))) dimensions).map _
    · rw [built.timezone, built'.timezone]
    · rw [built.toView, built'.toView, sameTrees]
    · exact times.mpr sameBounds
    · rw [built.order, built'.order]
      congr 1
      have sameClauses := joinWith_inj markedComma
        (fun word inside => (plain_orderKeys built plainMembers word inside))
        (fun word inside => (plain_orderKeys built' plainMembers word inside)) order
      apply map_eq_of_keys _ sameClauses
      intro clause inside after inside' sameKey
      rcases orderKey_inj (plainMembers _ (built.knownOrder inside))
        (plainMembers _ (built'.knownOrder inside')) sameKey with rfl
      rfl

end Keys

end Members

def jobMembers : CubeMemberMap where
  planToView := [("job.status", "business.job_status"), ("job.kind", "business.job_kind"),
    ("jobs", "business.job_jobs")]
  planNames := by decide
  viewNames := by decide

def jobBundle : DefinitionBundle where
  contentHash := "hash"
  resources := []
  capabilities := []

def hasStatus (status : String) : FilterNode :=
  .leaf (.filter {
    member := "job.status"
    operator := .eq
    values := [.text status]
    arity := rfl })

def isPrint : FilterNode :=
  .leaf (.filter { member := "job.kind", operator := .eq, values := [.text "print"] })

def jobsPlan (filters : FilterGroup) : BusinessQueryPlan where
  grain := .scalar
  measures := ["jobs"]
  filters := some filters

def statusItem (status : String) : CubeFilter :=
  .item "business.job_status" "equals" (some [status])

def printItem : CubeFilter :=
  .item "business.job_kind" "equals" (some ["print"])

def jobsQuery (filter : CubeFilter) : CubeQuery where
  measures := ["business.job_jobs"]
  dimensions := []
  limit := 20
  timezone := "UTC"
  filters := [filter]
  timeDimensions := []
  order := []

theorem plainMembers_job : PlainMembers jobMembers := by
  rintro name ⟨member, isView⟩
  have inside : name ∈ jobMembers.planToView.map Prod.fst :=
    List.mem_map.mpr ⟨_, Foundations.Dictionaries.mem_of_lookup isView, rfl⟩
  have each : ∀ name ∈ jobMembers.planToView.map Prod.fst,
      name ≠ "" ∧ Clear ',' name ∧ Clear ':' name ∧ Clear '|' name := by
    decide +kernel
  rcases each name inside with ⟨nonempty, comma, colon, bar⟩
  exact ⟨nonempty, comma, colon, bar⟩

theorem plainAnchor_jobsPlan (filters : FilterGroup) :
    PlainAnchor (jobsPlan filters).toPlanNode := by
  rintro anchor ⟨⟩

theorem query_of_all (status : String) : cubeQueryFor jobMembers jobBundle (.ok 0) none "UTC"
    (jobsPlan { all := [hasStatus status, isPrint] }) =
      .ok (jobsQuery (.allOf [statusItem status, printItem])) := by
  rfl

theorem query_of_any (status : String) : cubeQueryFor jobMembers jobBundle (.ok 0) none "UTC"
    (jobsPlan { any := [hasStatus status, isPrint] }) =
      .ok (jobsQuery (.anyOf [statusItem status, printItem])) := by
  rfl

theorem sameStructure_iff_jobs :
    SameStructure (jobsQuery (.allOf [statusItem "open", printItem]))
      (jobsQuery (.allOf [statusItem "closed", printItem])) :=
  (sameStructure_iff plainMembers_job (plainAnchor_jobsPlan _) (plainAnchor_jobsPlan _)
    (query_of_all "open") (query_of_all "closed") rfl).mpr ⟨rfl, rfl⟩

/-- A plan for the open prints and one for what is open or a print have one key, and
the queries built from them differ in their structure. -/
theorem not_sameStructure_of_planShapeKey :
    planShapeKey (jobsPlan { all := [hasStatus "open", isPrint] }) =
        planShapeKey (jobsPlan { any := [hasStatus "open", isPrint] }) ∧
      cubeQueryFor jobMembers jobBundle (.ok 0) none "UTC"
        (jobsPlan { all := [hasStatus "open", isPrint] }) =
        .ok (jobsQuery (.allOf [statusItem "open", printItem])) ∧
      cubeQueryFor jobMembers jobBundle (.ok 0) none "UTC"
        (jobsPlan { any := [hasStatus "open", isPrint] }) =
        .ok (jobsQuery (.anyOf [statusItem "open", printItem])) ∧
      ¬ SameStructure (jobsQuery (.allOf [statusItem "open", printItem]))
        (jobsQuery (.anyOf [statusItem "open", printItem])) := by
  refine ⟨rfl, query_of_all "open", query_of_any "open", ?_⟩
  intro same
  cases same.filters

end McpAssistant.BusinessQuery.ShapeAgreement
