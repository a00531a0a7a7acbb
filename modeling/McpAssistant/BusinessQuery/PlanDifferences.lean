import McpAssistant.BusinessQuery.CanonicalPlans

/-!
# The differences of two plans

Two plans are compared part by part, as Python compares them, and every kind of part that
differs is named.  Plans with one fingerprint have no differences.
-/

namespace McpAssistant.BusinessQuery.PlanDifferences

open Definitions FilterTree QueryPlan FilterJson PlanJson PlanValidation
  CanonicalPlans Foundations.JsonReading List

inductive DiffCategory where
  | projection
  | limit
  | order
  | period
  | filter
  | membership
  | grain
  | anchor
deriving DecidableEq

def diffCategoryOrder : List DiffCategory :=
  [.projection, .limit, .order, .period, .filter, .membership, .grain, .anchor]

/-- The fields of a plan's payload that a category stands for. -/
def DiffCategory.parts : DiffCategory → List String
  | .projection => ["dimensions", "measures", "detail_selections"]
  | .limit => ["limit"]
  | .order => ["order"]
  | .period => ["period", "compare_to"]
  | .filter => ["filters", "having", "attribute_predicates"]
  | .membership => ["derived_sets", "bucket_set"]
  | .grain => ["grain"]
  | .anchor => ["anchor"]

/-- When two instants are equal, by the texts they print as. -/
structure InstantEquality where
  same : String → String → Bool
  refl : ∀ text, same text text = true

def sameOption {Value : Type} (same : Value → Value → Bool) : Option Value → Option Value → Bool
  | none, none => true
  | some left, some right => same left right
  | _, _ => false

def sameFilter (left right : PlanFilter) : Bool :=
  left.member = right.member && left.operator = right.operator &&
    left.values.isEqv right.values FilterValue.pyEq

def samePredicate (left right : AttributePredicate) : Bool :=
  left.familyKey = right.familyKey && left.attributeKey = right.attributeKey &&
    left.revisionHash = right.revisionHash &&
    left.definitionRevision = right.definitionRevision &&
    left.valueKind = right.valueKind && left.operator = right.operator &&
    left.values.isEqv right.values FilterValue.pyEq && left.quantifier = right.quantifier

def sameLeaf : FilterLeaf → FilterLeaf → Bool
  | .filter left, .filter right => sameFilter left right
  | .predicate left, .predicate right => samePredicate left right
  | _, _ => false

mutual

def sameNode : FilterNode → FilterNode → Bool
  | .leaf left, .leaf right => sameLeaf left right
  | .group all any, .group otherAll otherAny =>
    sameNodes all otherAll && sameNodes any otherAny
  | _, _ => false

def sameNodes : List FilterNode → List FilterNode → Bool
  | [], [] => true
  | left :: lefts, right :: rights => sameNode left right && sameNodes lefts rights
  | _, _ => false

end

def sameGroup (left right : FilterGroup) : Bool :=
  sameNodes left.all right.all && sameNodes left.any right.any

section Plans

variable (instants : InstantEquality)

def sameSelection (left right : DetailSelection) : Bool :=
  left.family = right.family && left.revisionMode = right.revisionMode &&
    left.revisionHash = right.revisionHash &&
    sameOption instants.same left.asOf right.asOf

def sameProjection (left right : PlanNode) : Bool :=
  left.dimensions = right.dimensions && left.measures = right.measures &&
    left.detailSelections.isEqv right.detailSelections (sameSelection instants)

def samePeriod (left right : PlanNode) : Bool :=
  left.period = right.period && left.compareTo = right.compareTo

def sameFilters (left right : PlanNode) : Bool :=
  sameOption sameGroup left.filters right.filters &&
    sameOption sameGroup left.having right.having &&
    left.attributePredicates.isEqv right.attributePredicates samePredicate

mutual

/-- Two plans are equal when all their fields are. -/
def samePlan : BusinessQueryPlan → BusinessQueryPlan → Bool
  | ⟨node, sets⟩, other =>
    sameProjection instants node other.toPlanNode && node.limit = other.limit &&
      node.order = other.order && samePeriod node other.toPlanNode &&
      sameFilters node other.toPlanNode && node.bucketSet = other.bucketSet &&
      node.grain = other.grain && node.anchor = other.anchor &&
      sameSets sets other.derivedSets

def sameSets : List (DerivedSet BusinessQueryPlan) → List (DerivedSet BusinessQueryPlan) → Bool
  | [], [] => true
  | ⟨id, mode, key, plan⟩ :: sets, other :: others =>
    id = other.id && mode = other.mode && key = other.key &&
      samePlan plan other.plan && sameSets sets others
  | _, _ => false

end

/-- The parts of a category are equal. -/
def sameIn (before after : BusinessQueryPlan) : DiffCategory → Bool
  | .projection => sameProjection instants before.toPlanNode after.toPlanNode
  | .limit => before.limit = after.limit
  | .order => before.order = after.order
  | .period => samePeriod before.toPlanNode after.toPlanNode
  | .filter => sameFilters before.toPlanNode after.toPlanNode
  | .membership =>
    sameSets instants before.derivedSets after.derivedSets && before.bucketSet = after.bucketSet
  | .grain => before.grain = after.grain
  | .anchor => before.anchor = after.anchor

def classifyPlanDiff (sha256 : String → String) (before after : BusinessQueryPlan) :
    List DiffCategory :=
  if planFingerprint sha256 before = planFingerprint sha256 after then []
  else diffCategoryOrder.filter fun category => !sameIn instants before after category

end Plans

/-- A value that Python may find equal to another that prints otherwise. -/
inductive PlanValue where
  | filter (value : FilterValue)
  | instant (text : String)
deriving DecidableEq

def leafValues : FilterLeaf → List PlanValue
  | .filter leaf => leaf.values.map .filter
  | .predicate typed => typed.values.map .filter

mutual

def nodeValues : FilterNode → List PlanValue
  | .leaf leaf => leafValues leaf
  | .group all any => nodesValues all ++ nodesValues any

def nodesValues : List FilterNode → List PlanValue
  | [] => []
  | node :: nodes => nodeValues node ++ nodesValues nodes

end

def groupValues (group : FilterGroup) : List PlanValue :=
  nodesValues group.all ++ nodesValues group.any

def optionValues {Value : Type} (values : Value → List PlanValue) : Option Value → List PlanValue
  | none => []
  | some value => values value

def selectionValues (selection : DetailSelection) : List PlanValue :=
  optionValues (fun text => [.instant text]) selection.asOf

def projectionValues (node : PlanNode) : List PlanValue :=
  node.detailSelections.flatMap selectionValues

def filtersValues (node : PlanNode) : List PlanValue :=
  optionValues groupValues node.filters ++ optionValues groupValues node.having ++
    node.attributePredicates.flatMap fun typed => typed.values.map .filter

mutual

def planValues : BusinessQueryPlan → List PlanValue
  | ⟨node, sets⟩ => projectionValues node ++ filtersValues node ++ setsValues sets

def setsValues : List (DerivedSet BusinessQueryPlan) → List PlanValue
  | [] => []
  | ⟨_, _, _, plan⟩ :: sets => planValues plan ++ setsValues sets

end

/-- The values in the parts of a category, in order. -/
def valuesIn (plan : BusinessQueryPlan) : DiffCategory → List PlanValue
  | .projection => projectionValues plan.toPlanNode
  | .filter => filtersValues plan.toPlanNode
  | .membership => setsValues plan.derivedSets
  | _ => []

/-! ## Equal parts with equal values print alike -/

/-- The values of two equal parts decide whether the parts print alike. -/
structure Decides (alike : Prop) (left right : List PlanValue) : Prop where
  length : left.length = right.length
  iff : alike ↔ left = right

variable {alike : Prop}

theorem Decides.append {other : Prop} {left right moreLeft moreRight : List PlanValue}
    (first : Decides alike left right) (second : Decides other moreLeft moreRight) :
    Decides (alike ∧ other) (left ++ moreLeft) (right ++ moreRight) := by
  constructor
  · rw [length_append, length_append, first.length, second.length]
  · rw [first.iff, second.iff]
    constructor
    · rintro ⟨rfl, rfl⟩
      rfl
    · intro same
      exact append_inj' same second.length

theorem Decides.congr {other : Prop} {left right : List PlanValue}
    (decides : Decides alike left right) (same : other ↔ alike) : Decides other left right :=
  ⟨decides.length, same.trans decides.iff⟩

theorem decides_nil (holds : alike) : Decides alike [] [] := ⟨rfl, iff_of_true holds rfl⟩

theorem dumpScalar_injective : Function.Injective dumpScalar := by
  intro left right same
  cases left <;> cases right <;> cases same <;> rfl

theorem isEqv_length {Value : Type} {same : Value → Value → Bool} :
    ∀ {lefts rights : List Value}, lefts.isEqv rights same = true → lefts.length = rights.length
  | [], [], _ => rfl
  | [], _ :: _, equal => nomatch equal
  | _ :: _, [], equal => nomatch equal
  | _ :: _, _ :: _, equal => by
      rw [List.isEqv, Bool.and_eq_true] at equal
      rw [length_cons, length_cons, isEqv_length equal.2]

theorem decides_scalars {lefts rights : List FilterValue}
    (equal : lefts.isEqv rights FilterValue.pyEq = true) :
    Decides (lefts.map dumpScalar = rights.map dumpScalar) (lefts.map .filter)
      (rights.map .filter) := by
  constructor
  · rw [length_map, length_map]
    exact isEqv_length equal
  · have injective : Function.Injective PlanValue.filter := by
      intro left right same
      exact PlanValue.filter.inj same
    rw [(List.map_injective_iff.mpr dumpScalar_injective).eq_iff,
      (List.map_injective_iff.mpr injective).eq_iff]

theorem decides_filter {left right : PlanFilter} (equal : sameFilter left right = true) :
    Decides (dumpPlanFilter left = dumpPlanFilter right) (left.values.map .filter)
      (right.values.map .filter) := by
  simp only [sameFilter, Bool.and_eq_true, decide_eq_true_iff] at equal
  rcases equal with ⟨⟨member, operator⟩, values⟩
  apply (decides_scalars values).congr
  simp [dumpPlanFilter, member, operator]

theorem decides_predicate {left right : AttributePredicate}
    (equal : samePredicate left right = true) :
    Decides (dumpAttributePredicate left = dumpAttributePredicate right)
      (left.values.map .filter) (right.values.map .filter) := by
  simp only [samePredicate, Bool.and_eq_true, decide_eq_true_iff] at equal
  rcases equal with ⟨⟨⟨⟨⟨⟨⟨family, key⟩, revision⟩, definition⟩, kind⟩, operator⟩,
    values⟩, quantifier⟩
  apply (decides_scalars values).congr
  simp [dumpAttributePredicate, family, key, revision, definition, kind, operator, quantifier]

theorem decides_leaf {left right : FilterLeaf} (equal : sameLeaf left right = true) :
    Decides (dumpFilterLeaf left = dumpFilterLeaf right) (leafValues left) (leafValues right) := by
  cases left with
  | filter left =>
    cases right with
    | filter right => exact decides_filter equal
    | predicate right => cases equal
  | predicate left =>
    cases right with
    | filter right => cases equal
    | predicate right => exact decides_predicate equal

theorem branchEntries_inj {all any otherAll otherAny : List Json} :
    branchEntries all any = branchEntries otherAll otherAny ↔ all = otherAll ∧ any = otherAny := by
  cases all <;> cases any <;> cases otherAll <;> cases otherAny <;> simp [branchEntries]

mutual

theorem decides_node : ∀ (left : FilterNode) {right : FilterNode}, sameNode left right = true →
      Decides (dumpFilterNode left = dumpFilterNode right) (nodeValues left) (nodeValues right)
  | .leaf left, .leaf right, equal => by
      apply (decides_leaf equal).congr
      rw [dumpFilterNode, dumpFilterNode, Json.dict.injEq]
  | .group all any, .group otherAll otherAny, equal => by
      rw [sameNode, Bool.and_eq_true] at equal
      apply ((decides_nodes all equal.1).append (decides_nodes any equal.2)).congr
      rw [dumpFilterNode, dumpFilterNode, Json.dict.injEq, branchEntries_inj]
  | .leaf _, .group _ _, equal => nomatch equal
  | .group _ _, .leaf _, equal => nomatch equal

theorem decides_nodes : ∀ (lefts : List FilterNode) {rights : List FilterNode},
    sameNodes lefts rights = true →
      Decides (dumpFilterNodes lefts = dumpFilterNodes rights) (nodesValues lefts)
        (nodesValues rights)
  | [], [], _ => decides_nil rfl
  | left :: lefts, right :: rights, equal => by
      rw [sameNodes, Bool.and_eq_true] at equal
      apply ((decides_node left equal.1).append (decides_nodes lefts equal.2)).congr
      rw [dumpFilterNodes, dumpFilterNodes, List.cons.injEq]
  | [], _ :: _, equal => nomatch equal
  | _ :: _, [], equal => nomatch equal

end

theorem decides_group (left right : FilterGroup) (equal : sameGroup left right = true) :
    Decides (dumpFilterGroup left = dumpFilterGroup right) (groupValues left)
      (groupValues right) := by
  rw [sameGroup, Bool.and_eq_true] at equal
  apply ((decides_nodes left.all equal.1).append (decides_nodes left.any equal.2)).congr
  rw [dumpFilterGroup, dumpFilterGroup, Json.dict.injEq, branchEntries_inj]

section Containers

variable {Value : Type} {same : Value → Value → Bool} {dump : Value → Json}
  {values : Value → List PlanValue}
  (decides : ∀ left right, same left right = true →
    Decides (dump left = dump right) (values left) (values right))

include decides

theorem decides_option {left right : Option Value} (equal : sameOption same left right = true) :
    Decides (dumpNullable dump left = dumpNullable dump right) (optionValues values left)
      (optionValues values right) := by
  cases left with
  | none =>
    cases right with
    | none => exact decides_nil rfl
    | some right => cases equal
  | some left =>
    cases right with
    | none => cases equal
    | some right => exact decides left right equal

theorem decides_list {lefts rights : List Value} (equal : lefts.isEqv rights same = true) :
    Decides (lefts.map dump = rights.map dump) (lefts.flatMap values) (rights.flatMap values) := by
  induction lefts generalizing rights with
  | nil =>
    cases rights with
    | nil => exact decides_nil rfl
    | cons right rights => cases equal
  | cons left lefts ih =>
    cases rights with
    | nil => cases equal
    | cons right rights =>
      rw [List.isEqv, Bool.and_eq_true] at equal
      apply ((decides left right equal.1).append (ih equal.2)).congr
      rw [map_cons, map_cons, List.cons.injEq]

end Containers

section Plans

variable {instants : InstantEquality}

theorem decides_selection (left right : DetailSelection)
    (equal : sameSelection instants left right = true) :
    Decides (dumpDetailSelection left = dumpDetailSelection right) (selectionValues left)
      (selectionValues right) := by
  simp only [sameSelection, Bool.and_eq_true, decide_eq_true_iff] at equal
  rcases equal with ⟨⟨⟨family, mode⟩, revision⟩, asOf⟩
  have instant : ∀ left right, instants.same left right = true →
      Decides (Json.text left = .text right) [PlanValue.instant left] [.instant right] := by
    intro left right _
    constructor
    · rfl
    · simp
  apply (decides_option instant asOf).congr
  simp [dumpDetailSelection, family, mode, revision]

theorem decides_projection {left right : PlanNode}
    (equal : sameProjection instants left right = true) :
    Decides (left.detailSelections.map dumpDetailSelection =
        right.detailSelections.map dumpDetailSelection) (projectionValues left)
      (projectionValues right) := by
  rw [sameProjection, Bool.and_eq_true] at equal
  exact decides_list decides_selection equal.2

/-- The parts of a plan that hold filters print alike. -/
def FiltersAlike (left right : PlanNode) : Prop :=
  (dumpNullable dumpFilterGroup left.filters = dumpNullable dumpFilterGroup right.filters ∧
      dumpNullable dumpFilterGroup left.having = dumpNullable dumpFilterGroup right.having) ∧
    (left.attributePredicates.map fun typed => Json.dict (dumpAttributePredicate typed)) =
      right.attributePredicates.map fun typed => Json.dict (dumpAttributePredicate typed)

theorem decides_filters {left right : PlanNode} (equal : sameFilters left right = true) :
    Decides (FiltersAlike left right) (filtersValues left) (filtersValues right) := by
  simp only [sameFilters, Bool.and_eq_true] at equal
  rcases equal with ⟨⟨filters, having⟩, predicates⟩
  have predicate : ∀ left right, samePredicate left right = true →
      Decides (Json.dict (dumpAttributePredicate left) =
          .dict (dumpAttributePredicate right)) (left.values.map PlanValue.filter)
        (right.values.map .filter) := by
    intro left right same
    apply (decides_predicate same).congr
    rw [Json.dict.injEq]
  exact ((decides_option decides_group filters).append
    (decides_option decides_group having)).append (decides_list predicate predicates)

theorem setEntries_inj {sets others : List Json} :
    setEntries sets = setEntries others ↔ sets = others := by
  cases sets <;> cases others <;> simp [setEntries]

/-- The parts of two plans that hold no values are equal. -/
structure PlainAlike (left right : PlanNode) : Prop where
  measures : left.measures = right.measures
  dimensions : left.dimensions = right.dimensions
  bucketSet : left.bucketSet = right.bucketSet
  anchor : left.anchor = right.anchor
  period : left.period = right.period
  compareTo : left.compareTo = right.compareTo
  grain : left.grain = right.grain
  order : left.order = right.order
  limit : left.limit = right.limit

/-- Plans whose other parts are equal print alike when the parts with values do. -/
theorem payload_eq_iff {left right : BusinessQueryPlan}
    (plain : PlainAlike left.toPlanNode right.toPlanNode) :
    canonicalPlanPayload left = canonicalPlanPayload right ↔
      (left.detailSelections.map dumpDetailSelection =
            right.detailSelections.map dumpDetailSelection ∧
          FiltersAlike left.toPlanNode right.toPlanNode) ∧
        canonicalSets left.derivedSets = canonicalSets right.derivedSets := by
  have comparison : comparisonEntries left.toPlanNode = comparisonEntries right.toPlanNode := by
    rw [comparisonEntries, comparisonEntries, plain.compareTo]
  have shared : planEntries left.toPlanNode = planEntries right.toPlanNode ↔
      left.detailSelections.map dumpDetailSelection =
          right.detailSelections.map dumpDetailSelection ∧
        FiltersAlike left.toPlanNode right.toPlanNode := by
    rw [planEntries, planEntries, plain.measures, plain.dimensions, plain.bucketSet,
      plain.anchor, plain.period, plain.grain, plain.order, plain.limit, FiltersAlike]
    simp only [List.cons.injEq, Prod.mk.injEq, Json.list.injEq, true_and, and_true]
    constructor
    · rintro ⟨filters, having, predicates, selections⟩
      exact ⟨selections, ⟨filters, having⟩, predicates⟩
    · rintro ⟨selections, ⟨filters, having⟩, predicates⟩
      exact ⟨filters, having, predicates, selections⟩
  rw [canonicalPlanPayload_eq, canonicalPlanPayload_eq, comparison, ← shared]
  constructor
  · intro same
    rcases append_inj same (by simp [planEntries]) with ⟨front, sets⟩
    exact ⟨append_cancel_right front, setEntries_inj.mp sets⟩
  · rintro ⟨front, sets⟩
    rw [front, sets]

theorem samePlan_iff (left right : BusinessQueryPlan) : samePlan instants left right = true ↔
      ∀ category, sameIn instants left right category = true := by
  rcases left with ⟨node, sets⟩
  rw [samePlan]
  simp only [Bool.and_eq_true, decide_eq_true_iff]
  constructor
  · rintro ⟨⟨⟨⟨⟨⟨⟨⟨projection, limit⟩, order⟩, period⟩, filters⟩, bucket⟩, grain⟩, anchor⟩, sets⟩
      category
    cases category with
    | projection => exact projection
    | limit => exact decide_eq_true limit
    | order => exact decide_eq_true order
    | period => exact period
    | filter => exact filters
    | membership =>
      rw [sameIn, Bool.and_eq_true]
      exact ⟨sets, decide_eq_true bucket⟩
    | grain => exact decide_eq_true grain
    | anchor => exact decide_eq_true anchor
  · intro each
    have membership := each .membership
    rw [sameIn, Bool.and_eq_true] at membership
    exact ⟨⟨⟨⟨⟨⟨⟨⟨each .projection, of_decide_eq_true (each .limit)⟩,
      of_decide_eq_true (each .order)⟩, each .period⟩, each .filter⟩,
      of_decide_eq_true membership.2⟩, of_decide_eq_true (each .grain)⟩,
      of_decide_eq_true (each .anchor)⟩, membership.1⟩

theorem plainAlike_of_sameIn {left right : BusinessQueryPlan}
    (each : ∀ category, sameIn instants left right category = true) :
    PlainAlike left.toPlanNode right.toPlanNode := by
  have projection := each .projection
  have period := each .period
  have membership := each .membership
  simp only [sameIn, sameProjection, samePeriod, Bool.and_eq_true,
    decide_eq_true_iff] at projection period membership
  exact
    { measures := projection.1.2
      dimensions := projection.1.1
      bucketSet := membership.2
      anchor := of_decide_eq_true (each .anchor)
      period := period.1
      compareTo := period.2
      grain := of_decide_eq_true (each .grain)
      order := of_decide_eq_true (each .order)
      limit := of_decide_eq_true (each .limit) }

mutual

theorem decides_plan : ∀ (left : BusinessQueryPlan) {right : BusinessQueryPlan},
    samePlan instants left right = true →
      Decides (canonicalPlanPayload left = canonicalPlanPayload right) (planValues left)
        (planValues right)
  | ⟨node, sets⟩, ⟨other, others⟩, equal => by
      have each := (samePlan_iff _ _).mp equal
      have membership := each .membership
      rw [sameIn, Bool.and_eq_true] at membership
      apply (((decides_projection (each .projection)).append
        (decides_filters (each .filter))).append (decides_sets sets membership.1)).congr
      exact payload_eq_iff (plainAlike_of_sameIn each)

theorem decides_sets : ∀ (lefts : List (DerivedSet BusinessQueryPlan))
    {rights : List (DerivedSet BusinessQueryPlan)},
    sameSets instants lefts rights = true →
      Decides (canonicalSets lefts = canonicalSets rights) (setsValues lefts) (setsValues rights)
  | [], [], _ => decides_nil rfl
  | ⟨id, mode, key, plan⟩ :: sets, ⟨otherId, otherMode, otherKey, other⟩ :: others, equal => by
      rw [sameSets] at equal
      simp only [Bool.and_eq_true, decide_eq_true_iff] at equal
      rcases equal with ⟨⟨⟨⟨rfl, rfl⟩, rfl⟩, same⟩, rest⟩
      apply ((decides_plan plan same).append (decides_sets sets rest)).congr
      rw [canonicalSets, canonicalSets, List.cons.injEq, Json.dict.injEq, dumpSetEntries,
        dumpSetEntries]
      simp
  | [], _ :: _, equal => nomatch equal
  | _ :: _, [], equal => nomatch equal

end

theorem lookup_compareTo (plan : BusinessQueryPlan) :
    (canonicalPlanPayload plan).lookup "compare_to" = plan.compareTo.map dumpCompareTo := by
  rw [canonicalPlanPayload_eq]
  show (comparisonEntries plan.toPlanNode ++ setEntries (canonicalSets plan.derivedSets)).lookup
    "compare_to" = plan.compareTo.map dumpCompareTo
  rw [comparisonEntries]
  cases plan.compareTo with
  | none =>
    cases canonicalSets plan.derivedSets with
    | nil => rfl
    | cons item items => rfl
  | some compareTo => rfl

theorem lookup_derivedSets (plan : BusinessQueryPlan) :
    (canonicalPlanPayload plan).lookup "derived_sets" =
      (setEntries (canonicalSets plan.derivedSets)).lookup "derived_sets" := by
  rw [canonicalPlanPayload_eq]
  show (comparisonEntries plan.toPlanNode ++ setEntries (canonicalSets plan.derivedSets)).lookup
    "derived_sets" = (setEntries (canonicalSets plan.derivedSets)).lookup "derived_sets"
  rw [comparisonEntries]
  cases plan.compareTo with
  | none => rfl
  | some compareTo => rfl

theorem lookup_setEntries_inj {sets others : List Json} :
    (setEntries sets).lookup "derived_sets" = (setEntries others).lookup "derived_sets" ↔
      sets = others := by
  cases sets <;> cases others <;> simp [setEntries]

def DiffersIn (before after : BusinessQueryPlan) (part : String) : Prop :=
  (canonicalPlanPayload before).lookup part ≠ (canonicalPlanPayload after).lookup part

/-- A category's parts are the same in the two payloads. -/
def AlikeIn (before after : BusinessQueryPlan) (category : DiffCategory) : Prop :=
  ∀ part ∈ category.parts, ¬DiffersIn before after part

variable {before after : BusinessQueryPlan} {category : DiffCategory}

theorem alikeIn_iff : AlikeIn before after category ↔ ∀ part ∈ category.parts,
        (canonicalPlanPayload before).lookup part = (canonicalPlanPayload after).lookup part := by
  simp only [AlikeIn, DiffersIn, ne_eq, not_not]

theorem decides_category (equal : sameIn instants before after category = true) :
    Decides (AlikeIn before after category) (valuesIn before category)
      (valuesIn after category) := by
  have stored := storesPlan_canonical before
  have other := storesPlan_canonical after
  cases category with
  | projection =>
    have fields := equal
    simp only [sameIn, sameProjection, Bool.and_eq_true, decide_eq_true_iff] at fields
    apply (decides_projection equal).congr
    rw [alikeIn_iff]
    simp [DiffCategory.parts, stored.dimensions, stored.measures, stored.selections,
      other.dimensions, other.measures, other.selections, fields.1.1, fields.1.2]
  | limit =>
    have limit := of_decide_eq_true equal
    apply decides_nil
    rw [alikeIn_iff]
    simp [DiffCategory.parts, stored.limit, other.limit, limit]
  | order =>
    have order := of_decide_eq_true equal
    apply decides_nil
    rw [alikeIn_iff]
    simp [DiffCategory.parts, stored.order, other.order, order]
  | period =>
    simp only [sameIn, samePeriod, Bool.and_eq_true, decide_eq_true_iff] at equal
    apply decides_nil
    rw [alikeIn_iff]
    simp [DiffCategory.parts, stored.period, other.period, lookup_compareTo, equal.1, equal.2]
  | filter =>
    apply (decides_filters equal).congr
    rw [alikeIn_iff, FiltersAlike]
    simp [DiffCategory.parts, stored.filters, stored.having, stored.predicates,
      other.filters, other.having, other.predicates, and_assoc]
  | membership =>
    simp only [sameIn, Bool.and_eq_true, decide_eq_true_iff] at equal
    apply (decides_sets before.derivedSets equal.1).congr
    rw [alikeIn_iff]
    simp [DiffCategory.parts, stored.bucketSet, other.bucketSet, lookup_derivedSets,
      lookup_setEntries_inj, equal.2]
  | grain =>
    have grain := of_decide_eq_true equal
    apply decides_nil
    rw [alikeIn_iff]
    simp [DiffCategory.parts, stored.grain, other.grain, grain]
  | anchor =>
    have anchor := of_decide_eq_true equal
    apply decides_nil
    rw [alikeIn_iff]
    simp [DiffCategory.parts, stored.anchor, other.anchor, anchor]

variable {sha256 : String → String}

theorem mem_classifyPlanDiff : category ∈ classifyPlanDiff instants sha256 before after ↔
      planFingerprint sha256 before ≠ planFingerprint sha256 after ∧
        sameIn instants before after category = false := by
  have listed : category ∈ diffCategoryOrder := by
    cases category <;> decide
  rw [classifyPlanDiff]
  split
  next same => simp [same]
  next differ => simp [differ, listed]

variable {part : String}

theorem category_of_part (listed : part ∈ planKeys) :
    ∃ category : DiffCategory, part ∈ category.parts := by
  have covered : planKeys ⊆ diffCategoryOrder.flatMap DiffCategory.parts := by decide
  rcases List.mem_flatMap.mp (covered listed) with ⟨category, _, named⟩
  exact ⟨category, named⟩

theorem category_unique {other : DiffCategory}
    (named : part ∈ category.parts) (also : part ∈ other.parts) : category = other := by
  have apart : ∀ part ∈ category.parts, part ∈ other.parts → category = other := by
    cases category <;> cases other <;> decide
  exact apart part named also

theorem DiffersIn.mem_planKeys (differs : DiffersIn before after part) : part ∈ planKeys := by
  by_contra missing
  have absent : ∀ plan : BusinessQueryPlan, (canonicalPlanPayload plan).lookup part = none := by
    intro plan
    rw [List.lookup_eq_none_iff]
    intro entry listed
    rw [bne_iff_ne]
    rintro rfl
    exact missing ((storesPlan_canonical plan).closed entry listed)
  exact differs ((absent before).trans (absent after).symm)

structure DiffAgrees (instants : InstantEquality) (sha256 : String → String)
    (before after : BusinessQueryPlan) : Prop where
  empty : classifyPlanDiff instants sha256 before after = [] ↔
    planFingerprint sha256 before = planFingerprint sha256 after
  named : ∀ part, DiffersIn before after part →
    ∃ category ∈ classifyPlanDiff instants sha256 before after, part ∈ category.parts

/-- Parts that Python finds equal have the same values: no boolean or float stands for an
integer, and no instant is written at two offsets. -/
def SameValues (instants : InstantEquality) (before after : BusinessQueryPlan) : Prop :=
  ∀ category, sameIn instants before after category = true →
    valuesIn before category = valuesIn after category

/-- The digest tells the two payloads apart. -/
def Distinguishes (sha256 : String → String) (before after : BusinessQueryPlan) : Prop :=
  planFingerprint sha256 before = planFingerprint sha256 after →
    ∀ part, ¬DiffersIn before after part

theorem planValues_eq (plan : BusinessQueryPlan) :
    planValues plan = valuesIn plan .projection ++ valuesIn plan .filter ++
      valuesIn plan .membership := by
  rcases plan with ⟨node, sets⟩
  rw [planValues]
  rfl

theorem planFingerprint_eq_of_same (same : ∀ category, sameIn instants before after category = true)
    (values : SameValues instants before after) :
    planFingerprint sha256 before = planFingerprint sha256 after := by
  have payloads : canonicalPlanPayload before = canonicalPlanPayload after := by
    apply (decides_plan before ((samePlan_iff before after).mpr same)).iff.mpr
    rw [planValues_eq, planValues_eq, values .projection (same .projection),
      values .filter (same .filter), values .membership (same .membership)]
  rw [planFingerprint, planFingerprint, payloads]

theorem diffAgrees_of_sameValues (distinct : Distinguishes sha256 before after)
    (values : SameValues instants before after) :
    DiffAgrees instants sha256 before after := by
  constructor
  · constructor
    · intro empty
      by_contra differ
      apply differ
      apply planFingerprint_eq_of_same _ values
      intro category
      rw [← Bool.not_eq_false]
      intro unequal
      have listed := mem_classifyPlanDiff.mpr ⟨differ, unequal⟩
      rw [empty] at listed
      cases listed
    · intro same
      rw [classifyPlanDiff, if_pos same]
  · intro part differs
    rcases category_of_part differs.mem_planKeys with ⟨category, named⟩
    refine ⟨category, mem_classifyPlanDiff.mpr ⟨fun same => distinct same part differs, ?_⟩, named⟩
    rw [← Bool.not_eq_true]
    intro equal
    have alike := (decides_category equal).iff.mpr (values category equal)
    exact alike part named differs

theorem sameValues_of_diffAgrees (agrees : DiffAgrees instants sha256 before after) :
    SameValues instants before after := by
  intro category equal
  apply (decides_category equal).iff.mp
  intro part listed differs
  rcases agrees.named part differs with ⟨other, detected, named⟩
  cases category_unique listed named
  rw [(mem_classifyPlanDiff.mp detected).2] at equal
  cases equal

theorem diffAgrees_iff (instants : InstantEquality) (sha256 : String → String)
    (before after : BusinessQueryPlan) :
    DiffAgrees instants sha256 before after ↔
      Distinguishes sha256 before after ∧ SameValues instants before after := by
  constructor
  · intro agrees
    refine ⟨?_, sameValues_of_diffAgrees agrees⟩
    intro same part differs
    rcases agrees.named part differs with ⟨category, detected, _⟩
    rw [agrees.empty.mpr same] at detected
    cases detected
  · rintro ⟨distinct, values⟩
    exact diffAgrees_of_sameValues distinct values

end Plans

def textInstants : InstantEquality where
  same left right := left == right
  refl _ := beq_self_eq_true _

/-- Revenue of the lines whose quantity is the given value. -/
def quantityPayload (value : Json) : Json :=
  .dict [("measures", .list [.text "invoice_item.revenue"]),
    ("grain", .text "scalar"),
    ("filters", .list [
      .dict [("member", .text "invoice_item.quantity"), ("operator", .text "eq"),
        ("values", .list [value])]])]

def quantityPlan (value : FilterValue) : BusinessQueryPlan :=
  { measures := ["invoice_item.revenue"]
    grain := .scalar
    filters := some { all := [
      .leaf (.filter ⟨"invoice_item.quantity", .eq, [value], acceptsValues_single value⟩)] } }

/-- Two plans that validation accepts differ in their fingerprints and in no category. -/
theorem quantity_one_true : readPlan strictPython [] (quantityPayload (.integer 1)) =
        .ok (quantityPlan (.integer 1)) ∧
      readPlan strictPython [] (quantityPayload (.boolean true)) =
        .ok (quantityPlan (.boolean true)) ∧
      classifyPlanDiff textInstants (fun text => text) (quantityPlan (.integer 1))
          (quantityPlan (.boolean true)) = [] ∧
      planFingerprint (fun text => text) (quantityPlan (.integer 1)) ≠
        planFingerprint (fun text => text) (quantityPlan (.boolean true)) ∧
      DiffersIn (quantityPlan (.integer 1)) (quantityPlan (.boolean true)) "filters" := by
  refine ⟨rfl, rfl, ?_, by decide +kernel, ?_⟩
  · have each : ∀ category, sameIn textInstants (quantityPlan (.integer 1))
        (quantityPlan (.boolean true)) category = true := by
      intro category
      cases category <;> rfl
    simp [classifyPlanDiff, each]
  · simp [DiffersIn, (storesPlan_canonical _).filters, quantityPlan, dumpNullable,
      dumpFilterGroup, branchEntries, dumpFilterNodes, dumpFilterNode, dumpFilterLeaf,
      dumpPlanFilter, dumpScalar]

end McpAssistant.BusinessQuery.PlanDifferences
