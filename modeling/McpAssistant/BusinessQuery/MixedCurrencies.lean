import McpAssistant.BusinessQuery.CurrencyGuarantee

/-!
# Values that mix currencies

The native-currency rule reads the measures a plan names.  A derived measure is
a percentage or a number, so the rule passes it, and the amounts it is computed
from are divided across currencies.  Without filters, grouping by the currency
is the only way to keep them apart.
-/

namespace McpAssistant.BusinessQuery.MixedCurrencies

open Definitions QueryPlan NativeCurrency GroupedStatement SingleCurrency
  CurrencyGuarantee Visibility Foundations.Grouping List

section Mixed

variable (bundle : DefinitionBundle)

def mixedRows (dimension : Option String) : MoneyDatabase bundle Bool Bool where
  dimension row source := if dimension = some source.name then some row else none
  bucket _ _ _ := none
  column _ _ := none
  bound _ _ := false
  otherTruth _ _ := some true
  keeps _ _ := true
  currency measure row :=
    if measure.currencyDimension = none ∨ measure.currencyDimension = dimension then
      some row
    else
      none
  declared := by
    intro measure name source currency declared isName row
    rw [currency, ← isName]
    simp [eq_comm]

variable {bundle} {isolated : List String} {plan : PlanNode} {component measure : MeasureDefinition}

def GroupsByCurrency (bundle : DefinitionBundle) (plan : PlanNode)
    (component : MeasureDefinition) : Prop :=
  ∃ member ∈ groupMembers plan, ∃ kind source,
    resolveMember bundle member = some (kind, .dimension source) ∧
      component.currencyDimension = some source.name

theorem groupKey_mixedRows (ungrouped : ¬GroupsByCurrency bundle plan component) (row : Bool) :
    groupKey (mixedRows bundle component.currencyDimension) plan row =
      (groupMembers plan).map fun _ => none := by
  apply map_congr_left
  intro member listed
  split
  · rename_i kind source resolved
    have apart : component.currencyDimension ≠ some source.name := by
      intro same
      exact ungrouped ⟨member, listed, kind, source, resolved, same⟩
    rw [projected]
    split
    · exact if_neg apart
    · rfl
  · rfl

theorem resultGroups_mixedRows (unfiltered : plan.filters = none)
    (answers : plan.grain ≠ .entityRows)
    (ungrouped : ¬GroupsByCurrency bundle plan component) :
    resultGroups (mixedRows bundle component.currencyDimension) isolated plan
      [true, false] = [[true, false]] := by
  have kept : keptRows (mixedRows bundle component.currencyDimension) isolated
      plan [true, false] = [true, false] := by
    rw [keptRows, unfiltered]
    rfl
  have oneGroup : groupsBy (groupKey (mixedRows bundle component.currencyDimension) plan)
      [true, false] = [[true, false]] := by
    simp [groupsBy, groupKey_mixedRows ungrouped]
  rw [resultGroups, kept]
  cases grain : plan.grain with
  | scalar => rfl
  | grouped =>
    show List.filter _ (groupsBy _ _) = _
    rw [oneGroup]
    rfl
  | entityRows => exact absurd grain answers

theorem windowRows_mixedRows (dimension : Option String) :
    windowRows (mixedRows bundle dimension) plan [[true, false]] [true, false]
      component = [true, false] := by
  rw [windowRows]
  split
  · rfl
  · simp

/-- Both rows are behind every amount of the plan's one row. -/
theorem mem_sources_mixedRows (dimension : Option String)
    (isComponent : component ∈ components bundle measure) (row : Bool) :
    (component, row) ∈ sources (mixedRows bundle dimension) plan
      [[true, false]] [true, false] measure := by
  apply mem_sources.mpr
  refine ⟨isComponent, ?_⟩
  rw [windowRows_mixedRows, ite_self]
  cases row with
  | true => exact mem_cons_self ..
  | false => exact mem_cons_of_mem _ (mem_cons_self ..)

theorem groupsByCurrency_of_neverMixes (unfiltered : plan.filters = none)
    (answers : plan.grain ≠ .entityRows)
    (built : namesResolve bundle plan = true ∧ measuresCompile bundle plan = true)
    (never : NeverMixes bundle isolated plan) {member : String}
    (named : member ∈ plan.measures)
    (compiled : compiledMeasure bundle member = some measure)
    (isComponent : component ∈ components bundle measure)
    (money : isMoney component = true) :
    GroupsByCurrency bundle plan component := by
  by_contra ungrouped
  have isOutput : ∃ output ∈ outputs (mixedRows bundle component.currencyDimension) isolated plan
      [true, false] [],
      (component, true) ∈ output ∧ (component, false) ∈ output := by
    rw [outputs, if_pos (Bool.and_eq_true_iff.mpr built),
      resultGroups_mixedRows unfiltered answers ungrouped]
    refine ⟨_, List.mem_flatMap.mpr ⟨_, mem_singleton_self _,
      mem_map_of_mem (List.mem_filterMap.mpr ⟨member, named, compiled⟩)⟩,
      ?_⟩
    constructor
    · exact mem_append_left _ (mem_sources_mixedRows _ isComponent true)
    · exact mem_append_left _ (mem_sources_mixedRows _ isComponent false)
  rcases isOutput with ⟨output, listed, left, right⟩
  have same := never Bool Bool (mixedRows bundle component.currencyDimension)
    [true, false] [] output listed _ left _ right money money
  simp [mixedRows] at same

end Mixed

def revenue : MeasureDefinition where
  name := "revenue"
  owningResource := "invoice"
  sqlExpression := "total"
  aggType := .sum
  format := some .currency
  currencyDimension := some "currency"

def cost : MeasureDefinition :=
  { revenue with name := "cost", sqlExpression := "cost" }

def margin : MeasureDefinition where
  name := "margin"
  owningResource := "invoice"
  sqlExpression := ""
  aggType := .derived
  format := some .percent
  expressionKind := some .ratio
  derivedFrom := ["revenue", "cost"]

/-- Revenue and cost are amounts in their rows' currency; the margin is their
ratio. -/
def marginBundle : DefinitionBundle where
  contentHash := "margin"
  resources :=
    [{ name := "invoice", projectionView := "invoice_view", primaryKey := "id"
       departmentScopeMode := .none
       scopeColumns := { entity := none, department := none } }]
  measures := [revenue, cost, margin]
  dimensions :=
    [{ name := "currency", owningResource := "invoice"
       sqlExpression := "currency", type := .string }]
  capabilities :=
    [{ name := "invoice.margin", kind := .measure, resolvesTo := "margin"
       requiredPermissions := ["invoice.read"], capabilityState := .enabled },
      { name := "invoice.revenue", kind := .measure, resolvesTo := "revenue"
        requiredPermissions := ["invoice.read"], capabilityState := .enabled },
      { name := "invoice.currency", kind := .dimension
        resolvesTo := "currency", requiredPermissions := ["invoice.read"]
        capabilityState := .enabled }]

def invoiceReader : Principal where
  role := "staff"
  permissions := ["invoice.read"]

def marginPlan : PlanNode where
  measures := ["invoice.margin"]
  grain := .scalar

theorem marginBundle_accepted : affordanceViolations marginBundle = [] := rfl

def dollarPlan : PlanNode where
  measures := ["invoice.margin", "invoice.revenue"]
  dimensions := ["invoice.currency"]
  filters := some
    { all := [.leaf (.filter ⟨"invoice.currency", .eq, [.text "USD"], rfl⟩)] }
  grain := .grouped

theorem ruleReaches_dollarPlan :
    RuleReaches marginBundle (visibleMembers invoiceReader marginBundle)
      (isolatedResources marginBundle dollarPlan ["invoice"]) dollarPlan := by
  have forms : ∀ member ∈ dollarPlan.measures, ∀ measure,
      compiledMeasure marginBundle member = some measure →
        measure = margin ∨ measure = revenue := by
    intro member named measure compiled
    rcases List.mem_cons.mp named with rfl | rest
    · exact .inl (Option.some.inj compiled).symm
    · rw [List.mem_singleton.mp rest] at compiled
      exact .inr (Option.some.inj compiled).symm
  have inCurrency : ∀ member ∈ dollarPlan.measures, ∀ measure,
      compiledMeasure marginBundle member = some measure →
        ∀ component ∈ components marginBundle measure,
          component.currencyDimension = some "currency" := by
    intro member named measure compiled component isComponent
    have isAmount : component ∈ [revenue, cost] := by
      rcases forms member named measure compiled with rfl | rfl
      · exact isComponent
      · rw [List.mem_singleton.mp isComponent]
        exact mem_cons_self ..
    rcases List.mem_cons.mp isAmount with rfl | rest
    · rfl
    · rw [List.mem_singleton.mp rest]
      rfl
  constructor
  · decide
  · intro member named measure compiled _ component isComponent _
    rw [inCurrency member named measure compiled component isComponent]
    rfl
  · intro member named measure compiled left isLeft right isRight _ _
    rw [inCurrency member named measure compiled left isLeft,
      inCurrency member named measure compiled right isRight]
  · intro member named measure compiled share
    rcases forms member named measure compiled with rfl | rfl
    · cases share
    · cases share
  · intro member named measure compiled component isComponent dimension currency name isName
    rw [inCurrency member named measure compiled component isComponent] at currency
    cases currency
    rw [List.mem_singleton.mp (show name ∈ ["invoice.currency"] from isName)]
    constructor
    · intro source resolved
      cases resolved
      decide
    · rfl
    · intro leaf listed value equal
      rw [List.mem_singleton.mp listed] at equal ⊢
      cases equal
      exact ⟨rfl, rfl⟩

end McpAssistant.BusinessQuery.MixedCurrencies
