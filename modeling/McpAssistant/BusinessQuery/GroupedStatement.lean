import McpAssistant.BusinessQuery.FilterCompilation
import McpAssistant.BusinessQuery.KeysetEvaluation
import McpAssistant.Foundations.Grouping

/-!
# Grouped statements

A grouped statement filters source rows, groups them by its dimensions, one of
them by its calendar bucket where the plan asks for one, by a hidden customer
id under a customer's name, and by its bucket set.  Measures aggregate a group,
and the having clause keeps or drops it.
-/

namespace McpAssistant.BusinessQuery.GroupedStatement

open Definitions FilterTree QueryPlan Outcomes FilterEvaluation Keyset
  KeysetEvaluation FilterCompilation Foundations.Grouping Foundations.Fallible

section Compile

variable (parts : CompilerParts) (bundle : DefinitionBundle)

def timeBucketOf (plan : PlanNode) : Except Raised (Option (String × TimeGranularity)) :=
  match plan.grain, plan.period with
  | .grouped, some period =>
    match period.granularity with
    | none => .ok none
    | some granularity =>
      if plan.dimensions.contains period.timeDimension then
        .ok (some (period.timeDimension, granularity))
      else if parts.withinOneBucket period granularity then
        .ok none
      else
        .error (unexpressible "granularity_without_time_dimension")
  | _, _ => .ok none

def requireKind (site : String) (fits : MemberDefinition → Bool)
    (member : String) : Except Raised Unit :=
  match resolveMember bundle member with
  | none => .error (.planRefused .memberNotFound (some "unknown_member"))
  | some (_, definition) =>
    if fits definition then .ok ()
    else .error (.planRefused .memberNotFound (some site))

def requireMeasure : String → Except Raised Unit :=
  requireKind bundle "not_a_measure" fun definition =>
    match definition with
    | .measure _ => true
    | _ => false

def requireDimension : String → Except Raised Unit :=
  requireKind bundle "not_a_dimension" fun definition =>
    match definition with
    | .dimension _ => true
    | _ => false

def requireBucketSet : String → Except Raised Unit :=
  requireKind bundle "not_a_bucket_set" fun definition =>
    match definition with
    | .bucketSet _ => true
    | _ => false

def compileOrderClause (tables : List String) (plan : PlanNode)
    (clause : OrderClause) : Except Raised Unit :=
  let orderable :=
    match resolveMember bundle clause.member with
    | some (_, .dimension dimension) =>
      tables.contains dimension.owningResource
    | _ => false
  if plan.measures.contains clause.member || plan.dimensions.contains clause.member || orderable ||
      plan.bucketSet == some clause.member then
    .ok ()
  else
    .error (.planRefused .memberNotFound (some "order_member_not_selected"))

def compileGrouped (tables : List String) (plan : PlanNode) : Except Raised Unit := do
  plan.measures.forM (requireMeasure bundle)
  let _ ← timeBucketOf parts plan
  plan.dimensions.forM (requireDimension bundle)
  plan.bucketSet.toList.forM (requireBucketSet bundle)
  compileFilterGroup parts bundle tables plan.measures false plan.filters
  compileFilterGroup parts bundle tables plan.measures true plan.having
  plan.order.forM (compileOrderClause bundle tables plan)

end Compile

section Compiled

variable {parts : CompilerParts} {bundle : DefinitionBundle}
  {tables : List String} {plan : PlanNode}

structure GroupedCompiles (parts : CompilerParts) (bundle : DefinitionBundle)
    (tables : List String) (plan : PlanNode) : Prop where
  measures : ∀ member ∈ plan.measures, requireMeasure bundle member = .ok ()
  bucketed : ∃ bucket, timeBucketOf parts plan = .ok bucket
  dimensions : ∀ member ∈ plan.dimensions, requireDimension bundle member = .ok ()
  bucketSets : ∀ member ∈ plan.bucketSet.toList, requireBucketSet bundle member = .ok ()
  filters : compileFilterGroup parts bundle tables plan.measures false plan.filters = .ok ()
  having : compileFilterGroup parts bundle tables plan.measures true plan.having = .ok ()
  order : ∀ clause ∈ plan.order, compileOrderClause bundle tables plan clause = .ok ()

theorem compileGrouped_eq_ok : compileGrouped parts bundle tables plan = .ok () ↔
      GroupedCompiles parts bundle tables plan := by
  simp only [compileGrouped, bind_eq_ok]
  constructor
  · rintro ⟨⟨⟩, measures, bucket, bucketed, ⟨⟩, dimensions, ⟨⟩, bucketSets,
      ⟨⟩, filters, ⟨⟩, having, order⟩
    constructor
    · exact forM_eq_ok.mp measures
    · exact ⟨bucket, bucketed⟩
    · exact forM_eq_ok.mp dimensions
    · exact forM_eq_ok.mp bucketSets
    · exact filters
    · exact having
    · exact forM_eq_ok.mp order
  · rintro ⟨measures, ⟨bucket, bucketed⟩, dimensions, bucketSets, filters, having, order⟩
    exact ⟨(), forM_eq_ok.mpr measures, bucket, bucketed,
      (), forM_eq_ok.mpr dimensions, (), forM_eq_ok.mpr bucketSets,
      (), filters, (), having, forM_eq_ok.mpr order⟩

variable {member : String}

theorem requireKind_eq_ok {site : String} {fits : MemberDefinition → Bool} :
    requireKind bundle site fits member = .ok () ↔ ∃ kind definition, resolveMember bundle member =
        some (kind, definition) ∧ fits definition = true := by
  rw [requireKind]
  split
  · rename_i unknown
    simp [unknown]
  · rename_i kind definition found
    simp [found]

theorem resolves_measure (required : requireMeasure bundle member = .ok ()) :
    ∃ kind measure, resolveMember bundle member = some (kind, .measure measure) := by
  obtain ⟨kind, definition, found, fits⟩ := requireKind_eq_ok.mp required
  cases definition with
  | measure measure => exact ⟨kind, measure, found⟩
  | _ => cases fits

theorem resolves_dimension (required : requireDimension bundle member = .ok ()) :
    ∃ kind dimension, resolveMember bundle member = some (kind, .dimension dimension) := by
  obtain ⟨kind, definition, found, fits⟩ := requireKind_eq_ok.mp required
  cases definition with
  | dimension dimension => exact ⟨kind, dimension, found⟩
  | _ => cases fits

theorem resolves_bucketSet (required : requireBucketSet bundle member = .ok ()) :
    ∃ kind bucket, resolveMember bundle member = some (kind, .bucketSet bucket) := by
  obtain ⟨kind, definition, found, fits⟩ := requireKind_eq_ok.mp required
  cases definition with
  | bucketSet bucket => exact ⟨kind, bucket, found⟩
  | _ => cases fits

theorem GroupedCompiles.not_measure (compiled : GroupedCompiles parts bundle tables plan)
    (dimension : member ∈ plan.dimensions) : member ∉ plan.measures := by
  intro measure
  obtain ⟨_, _, asDimension⟩ := resolves_dimension (compiled.dimensions member dimension)
  obtain ⟨_, _, asMeasure⟩ := resolves_measure (compiled.measures member measure)
  rw [asDimension] at asMeasure
  cases asMeasure

end Compiled

/-- The source rows of a grouped statement: what each row holds for a member
and for its calendar bucket, how values sort, and how measures aggregate a
group.  `other` and `otherHaving` decide the leaves that are not a plain
comparison. -/
structure SourceDatabase (Row Key : Type) where
  value : Row → String → Option FilterValue
  bucket : TimeGranularity → Row → String → Option FilterValue
  rank : String → FilterValue → Key
  aggregate : String → List Row → Option FilterValue
  other : FilterLeaf → Row → Truth
  otherHaving : FilterLeaf → List Row → Truth

/-- The label of the hidden customer id. -/
def recordRefCustomerId : String := "__bq_record_ref_customer_id"

def groupMembers (plan : PlanNode) : List String :=
  plan.dimensions ++
    (if plan.dimensions.contains "invoice.customer_name" then
      [recordRefCustomerId] else []) ++
    plan.bucketSet.toList

section Evaluate

variable {Row Key : Type} [LinearOrder Key] (parts : CompilerParts)
  (bundle : DefinitionBundle) (database : SourceDatabase Row Key)
  (plan : PlanNode)

def dimensionProjection (row : Row) (member : String) : Option FilterValue :=
  match timeBucketOf parts plan with
  | .ok (some (bucketed, granularity)) =>
    if member = bucketed then database.bucket granularity row member
    else database.value row member
  | _ => database.value row member

/-- The source rows as the plan's row filters read them. -/
def rowDatabase : Database Row Key where
  value := dimensionProjection parts database plan
  rank := database.rank
  other := database.other

/-- What the answer shows for a group: a measure aggregates it, anything else
is read from a row of it. -/
def groupValue (group : List Row) (member : String) : Option FilterValue :=
  if plan.measures.contains member then
    database.aggregate member group
  else
    group.head?.bind fun row => dimensionProjection parts database plan row member

/-- The groups as the having clause and the order read them. -/
def groupDatabase : Database (List Row) Key where
  value := groupValue parts database plan
  rank := database.rank
  other := database.otherHaving

/-- Rows group by the rank of their values, as the columns compare. -/
def groupKey (row : Row) : List (Option Key) :=
  (groupMembers plan).map fun member =>
    (dimensionProjection parts database plan row member).map (database.rank member)

/-- The groups of a plan's answer, before its limit. -/
def answerGroups (table : List Row) : List (List Row) :=
  (groupsBy (groupKey parts database plan) (table.filter fun row =>
    decide (Passes (rowDatabase parts database plan) (spelling parts bundle)
      plan.filters row))).filter fun group =>
        decide (Passes (groupDatabase parts database plan)
          (spelling parts bundle) plan.having group)

end Evaluate

section Groups

variable {Row Key : Type} [LinearOrder Key] {parts : CompilerParts}
  {bundle : DefinitionBundle} {database : SourceDatabase Row Key}
  {plan : PlanNode} {table : List Row}

omit [LinearOrder Key] in
theorem read_eq_of_groupKey {first second : Row} (same : groupKey parts database plan first =
      groupKey parts database plan second) {item : OrderItem}
    (dimension : item.1 ∈ plan.dimensions) :
    (itemColumn (rowDatabase parts database plan) item).read first =
      (itemColumn (rowDatabase parts database plan) item).read second := by
  have member : item.1 ∈ groupMembers plan := by
    apply List.mem_append_left
    exact List.mem_append_left _ dimension
  have ranks := List.map_inj_left.mp same item.1 member
  simp only [itemColumn, rowDatabase]
  cases firstValue : dimensionProjection parts database plan first item.1 with
  | none =>
    cases secondValue : dimensionProjection parts database plan second item.1 with
    | none => rfl
    | some value => simp [firstValue, secondValue] at ranks
  | some value =>
    cases secondValue : dimensionProjection parts database plan second item.1 with
    | none => simp [firstValue, secondValue] at ranks
    | some other =>
      simp only [firstValue, secondValue, Option.map_some, Option.some.injEq] at ranks
      simp only [ranks]

structure IsGroupHead (parts : CompilerParts) (database : SourceDatabase Row Key)
    (plan : PlanNode) (table group : List Row) (head : Row) : Prop where
  isHead : group.head? = some head
  inTable : head ∈ table
  sameKey : ∀ row ∈ group, groupKey parts database plan row = groupKey parts database plan head
  reads : ∀ member, member ∉ plan.measures → groupValue parts database plan group member =
      dimensionProjection parts database plan head member

theorem exists_groupHead {group : List Row}
    (member : group ∈ answerGroups parts bundle database plan table) :
    ∃ head, IsGroupHead parts database plan table group head := by
  obtain ⟨head, isHead, inRows, sameKey⟩ := exists_head (List.mem_filter.mp member).1
  refine ⟨head, isHead, (List.mem_filter.mp inRows).1, sameKey, ?_⟩
  intro name notMeasure
  rw [groupValue, if_neg (by simpa using notMeasure), isHead]
  rfl

omit [LinearOrder Key] in
theorem IsGroupHead.read_eq {group : List Row} {head : Row}
    (heads : IsGroupHead parts database plan table group head)
    {item : OrderItem} (notMeasure : item.1 ∉ plan.measures) :
    (itemColumn (groupDatabase parts database plan) item).read group =
      (itemColumn (rowDatabase parts database plan) item).read head := by
  have same := heads.reads item.1 notMeasure
  simp only [itemColumn, groupDatabase, rowDatabase, same]

end Groups

end McpAssistant.BusinessQuery.GroupedStatement
