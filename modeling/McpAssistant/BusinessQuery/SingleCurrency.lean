import McpAssistant.BusinessQuery.GroupedStatement
import McpAssistant.BusinessQuery.NativeCurrency

/-!
# One currency in every value

A value of an answer is computed from the rows of its group, a share also from
the rows of its window, a comparison from the rows of both periods.  The
native-currency rule keeps all of them in one currency, for every measure it
sees through to the amounts.
-/

namespace McpAssistant.BusinessQuery.SingleCurrency

open Definitions FilterTree QueryPlan FilterEvaluation NativeCurrency
  GroupedStatement Foundations.Grouping

section Statement

variable (bundle : DefinitionBundle)

def compiledMeasure (member : String) : Option MeasureDefinition :=
  match resolveMember bundle member with
  | some (.measure, .measure measure) => some measure
  | _ => none

def components (measure : MeasureDefinition) : List MeasureDefinition :=
  match measure.expressionKind with
  | none => [measure]
  | some .ratio => measure.derivedFrom.filterMap (measureKept bundle)
  | some .share =>
    (measure.derivedFrom.take 1).filterMap (measureKept bundle)

/-- Child tables that a plan may filter by without projecting them. -/
def childFilterResources : List String :=
  ["invoice_item", "quotation_item", "payable_quotation_item"]

def effectiveResources (plan : PlanNode) (resources : List String) : List String :=
  let children := resources.tail.filter childFilterResources.contains
  let projected := (plan.measures ++ plan.dimensions).filterMap fun member =>
    (resolveMember bundle member).map fun found => found.2.owningResource
  if projected.any children.contains then
    resources
  else
    resources.filter fun name => !children.contains name

/-- The tables a filter reaches only inside a subquery of its own. -/
def isolatedResources (plan : PlanNode) (resources : List String) : List String :=
  resources.filter fun name =>
    !(effectiveResources bundle plan resources).contains name

def bucketOf (plan : PlanNode) (member : String) : Option TimeGranularity :=
  if plan.grain = .grouped ∧ plan.dimensions.contains member then
    timeGroupFor member plan
  else
    none

/-- A grouped member that is the currency column of a share's base. -/
def partitionColumn (base : MeasureDefinition) (member : String) : Option DimensionDefinition :=
  match resolveMember bundle member with
  | some (.dimension, .dimension source) =>
    if base.currencyDimension = some source.name ∨ base.currencyDimension = some member then
      some source
    else
      none
  | _ => none

def currencyPartition (plan : PlanNode) (base : MeasureDefinition) : Option DimensionDefinition :=
  if base.currencyDimension.getD "" = "" then
    none
  else
    plan.dimensions.findSome? (partitionColumn bundle base)

def previousPlan (plan : PlanNode) : PlanNode :=
  { plan with
    compareTo := none
    having := none
    period := plan.period.map fun period => { period with granularity := none } }

end Statement

/-- The joined rows of a statement: what a row holds for a dimension and for
its calendar bucket, what a filter's value compares as, and the currency a
measure's amount on a row is in.  A measure's currency dimension tells that
currency. -/
structure MoneyDatabase (bundle : DefinitionBundle) (Row Key : Type) where
  dimension : Row → DimensionDefinition → Option Key
  bucket : TimeGranularity → Row → DimensionDefinition → Option Key
  column : Row → String → Option Key
  bound : DimensionDefinition → FilterValue → Key
  otherTruth : FilterLeaf → Row → Truth
  keeps : PlanNode → List Row → Bool
  currency : MeasureDefinition → Row → Option Key
  declared : ∀ (measure : MeasureDefinition) (name : String)
    (source : DimensionDefinition), measure.currencyDimension = some name →
      source ∈ bundle.dimensions → source.name = name →
        ∀ row, currency measure row = dimension row source

section Evaluate

variable {bundle : DefinitionBundle} {Row Key : Type} [DecidableEq Key]
  (database : MoneyDatabase bundle Row Key) (isolated : List String)
  (plan : PlanNode)

def projected (row : Row) (member : String) (source : DimensionDefinition) : Option Key :=
  match bucketOf plan member with
  | none => database.dimension row source
  | some granularity => database.bucket granularity row source

/-- A comparison with one value, on a table the statement itself reads, is an
equality of the row's column; what any other leaf says is left open. -/
def leafTruth (row : Row) (leaf : FilterLeaf) : Truth :=
  match leaf with
  | .filter ⟨member, .eq, [value], arity⟩ =>
    match resolveMember bundle member with
    | some (_, .dimension source) =>
      if isolated.contains source.owningResource then
        database.otherTruth (.filter ⟨member, .eq, [value], arity⟩) row
      else
        (projected database plan row member source).map fun found =>
          decide (found = database.bound source value)
    | _ => database.otherTruth (.filter ⟨member, .eq, [value], arity⟩) row
  | leaf => database.otherTruth leaf row

def keptRows (rows : List Row) : List Row :=
  rows.filter fun row =>
    decide (filtersTruth (leafTruth database isolated plan row) plan.filters = some true)

def groupKey (row : Row) : List (Option Key) :=
  (groupMembers plan).map fun member =>
    match resolveMember bundle member with
    | some (_, .dimension source) => projected database plan row member source
    | _ => database.column row member

/-- The source rows behind each row of the answer. -/
def resultGroups (rows : List Row) : List (List Row) :=
  let kept := keptRows database isolated plan rows
  let groups :=
    match plan.grain with
    | .scalar => [kept]
    | .grouped => groupsBy (groupKey database plan) kept
    | .entityRows => []
  groups.filter (database.keeps plan)

/-- The rows a share's denominator is summed over. -/
def windowRows (groups : List (List Row)) (group : List Row)
    (base : MeasureDefinition) : List Row :=
  match currencyPartition bundle plan base with
  | none => groups.flatten
  | some source =>
    (groups.filter fun other =>
      other.head?.map (database.dimension · source) =
        group.head?.map (database.dimension · source)).flatten

/-- The amounts a value is computed from: each a measure's, on a row. -/
def sources (groups : List (List Row)) (group : List Row)
    (measure : MeasureDefinition) : List (MeasureDefinition × Row) :=
  (components bundle measure).flatMap fun component =>
    let rows :=
      if measure.expressionKind = some .share then
        windowRows database plan groups group component
      else
        group
    rows.map fun row => (component, row)

def compared (group other : List Row) : Bool :=
  groupMembers plan = [] ∨ group.head?.map (groupKey database plan) =
      other.head?.map (groupKey database (previousPlan plan))

/-- The names a statement groups and filters by resolve; it is refused
otherwise. -/
def namesResolve (bundle : DefinitionBundle) (plan : PlanNode) : Bool :=
  (plan.dimensions ++ (planFilters (iterFilterLeaves plan.filters)).map PlanFilter.member).all
      fun member => (resolveMember bundle member).isSome

/-- A measure compiles, and a share only over groups; the statement is refused
otherwise. -/
def measuresCompile (bundle : DefinitionBundle) (plan : PlanNode) : Bool :=
  plan.measures.all fun member =>
    (compiledMeasure bundle member).any fun measure =>
      measure.expressionKind != some .share || plan.grain != .scalar

/-- The amounts behind each value of the answer: those of the period, and in a
comparison those of the earlier period too. -/
def outputs (current previous : List Row) : List (List (MeasureDefinition × Row)) :=
  let groups := resultGroups database isolated plan current
  let earlier :=
    match plan.compareTo with
    | none => []
    | some _ => resultGroups database isolated (previousPlan plan) previous
  if namesResolve bundle plan && measuresCompile bundle plan then
    groups.flatMap fun group =>
      (plan.measures.filterMap (compiledMeasure bundle)).map fun measure =>
        sources database plan groups group measure ++
          (earlier.filter (compared database plan group)).flatMap fun other =>
            sources database (previousPlan plan) earlier other measure
  else
    []

/-- The amounts of money behind a value are in one currency. -/
def OneCurrency (output : List (MeasureDefinition × Row)) : Prop :=
  ∀ left ∈ output, ∀ right ∈ output, isMoney left.1 = true → isMoney right.1 = true →
      database.currency left.1 left.2 = database.currency right.1 right.2

end Evaluate

/-- No value of a plan's answers, over any database, mixes currencies. -/
def NeverMixes (bundle : DefinitionBundle) (isolated : List String) (plan : PlanNode) : Prop :=
  ∀ (Row Key : Type) [DecidableEq Key] (database : MoneyDatabase bundle Row Key)
    (current previous : List Row),
    ∀ output ∈ outputs database isolated plan current previous, OneCurrency database output

/-- A value the filters fix a currency's capability to is the currency of every
row they keep. -/
def GuaranteeHolds (bundle : DefinitionBundle) (isolated : List String)
    (plan : PlanNode) (member dimension : String) : Prop :=
  ∀ value, guaranteedSingleEquality plan.filters member = some value →
    ∃ source, resolveMember bundle member =
        some (.dimension, .dimension source) ∧ source.name = dimension ∧
      ∀ (Row Key : Type) [DecidableEq Key]
        (database : MoneyDatabase bundle Row Key) (rows : List Row),
        ∀ row ∈ keptRows database isolated plan rows, database.dimension row source =
            some (database.bound source (.text value))

end McpAssistant.BusinessQuery.SingleCurrency
