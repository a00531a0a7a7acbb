import McpAssistant.BusinessQuery.FilterEvaluation
import McpAssistant.BusinessQuery.QueryPlan
import McpAssistant.BusinessQuery.Outcomes
import McpAssistant.Foundations.Fallible

/-!
# The native-currency rule

A measure of money is answered only when its currency is fixed: the plan groups
by the currency, or every truth path of its filters compares it with one value.
The rule is applied to the measures a plan names.
-/

namespace McpAssistant.BusinessQuery.NativeCurrency

open Definitions FilterTree QueryPlan Outcomes FilterEvaluation Foundations.Fallible List

/-- What the bundle's validator finds wrong with a derived measure. -/
inductive DerivedViolation where
  | requiresExpressionKind
  | formatNotPercentOrNumber
  | sqlExpressionNotEmpty
  | filterSqlNotNone
  | ratioRequiresTwo
  | shareRequiresOne
  | componentNotDeclared (component : String)
  | componentDerived (component : String)
  | componentOfOtherResource (component : String)
deriving DecidableEq

/-- The measure a dictionary over the measures keeps for a name: the last
declared one. -/
def measureKept (bundle : DefinitionBundle) (name : String) : Option MeasureDefinition :=
  bundle.measures.reverse.find? fun measure => measure.name == name

def derivedMeasureViolations (bundle : DefinitionBundle)
    (measure : MeasureDefinition) : List DerivedViolation :=
  (if measure.expressionKind = none then [.requiresExpressionKind] else []) ++
    (if measure.format = some .percent ∨ measure.format = some .number then []
      else [.formatNotPercentOrNumber]) ++
    (if measure.sqlExpression ≠ "" then [.sqlExpressionNotEmpty] else []) ++
    (if measure.filterSql.isSome then [.filterSqlNotNone] else []) ++
    (match measure.expressionKind with
      | some .ratio =>
        if measure.derivedFrom.length ≠ 2 then [.ratioRequiresTwo] else []
      | some .share =>
        if measure.derivedFrom.length ≠ 1 then [.shareRequiresOne] else []
      | none => []) ++
    measure.derivedFrom.flatMap fun name =>
      match measureKept bundle name with
      | none => [.componentNotDeclared name]
      | some component =>
        (if component.aggType = .derived then [.componentDerived name]
          else []) ++
        (if component.owningResource ≠ measure.owningResource then
          [.componentOfOtherResource name] else [])

inductive AffordanceViolation where
  | duplicateName (name : String)
  | overdueRequiresBusinessDate (measure : String)
  | overdueNegative (measure : String)
  | expressionKindNotDerived (measure : String)
  | derived (measure : String) (violation : DerivedViolation)
  | segmentResourceNotDeclared (segment : String)
  | segmentNotDeclared (capability : String)
deriving DecidableEq

/-- The names that occur again after an earlier one. -/
def repeatedNames (seen : List String) : List String → List String
  | [] => []
  | name :: names =>
    (if seen.contains name then [name] else []) ++ repeatedNames (name :: seen) names

def duplicateNameViolations (bundle : DefinitionBundle) : List AffordanceViolation :=
  (repeatedNames [] (bundle.measures.map MeasureDefinition.name ++
      bundle.dimensions.map DimensionDefinition.name ++
      bundle.bucketSets.map BucketSetDefinition.name ++
      bundle.segments.map SegmentDefinition.name)).map .duplicateName

def measureViolations (bundle : DefinitionBundle)
    (measure : MeasureDefinition) : List AffordanceViolation :=
  (if measure.overdueAfterDays.isSome && !measure.relativeToBusinessDate then
      [.overdueRequiresBusinessDate measure.name] else []) ++
    (if measure.overdueAfterDays.any (· < 0) then
      [.overdueNegative measure.name] else []) ++
    if measure.aggType = .derived then
      (derivedMeasureViolations bundle measure).map (.derived measure.name)
    else if measure.expressionKind.isSome then
      [.expressionKindNotDerived measure.name]
    else
      []

def segmentViolations (bundle : DefinitionBundle) : List AffordanceViolation :=
  (bundle.segments.filter fun segment =>
    !(bundle.resources.map ResourceBinding.name).contains segment.owningResource).map fun segment =>
        .segmentResourceNotDeclared segment.name

def capabilityViolations (bundle : DefinitionBundle) : List AffordanceViolation :=
  (bundle.capabilities.filter fun entry =>
    entry.kind == .segment && !(bundle.segments.map SegmentDefinition.name).contains
        entry.resolvesTo).map fun entry => .segmentNotDeclared entry.name

/-- What the loader finds wrong with a bundle's definitions. -/
def affordanceViolations (bundle : DefinitionBundle) : List AffordanceViolation :=
  duplicateNameViolations bundle ++ bundle.measures.flatMap (measureViolations bundle) ++
    segmentViolations bundle ++ capabilityViolations bundle

theorem nodup_of_repeatedNames {names seen : List String} (fresh : repeatedNames seen names = []) :
    names.Nodup ∧ ∀ name ∈ names, name ∉ seen := by
  induction names generalizing seen with
  | nil => exact ⟨nodup_nil, fun name listed => absurd listed not_mem_nil⟩
  | cons name names ih =>
    rcases List.append_eq_nil_iff.mp fresh with ⟨head, tail⟩
    rcases ih tail with ⟨distinct, apart⟩
    have unseen : name ∉ seen := by
      intro listed
      rw [if_pos (List.contains_iff_mem.mpr listed)] at head
      cases head
    constructor
    · apply List.nodup_cons.mpr
      exact ⟨fun later => apart name later (mem_cons_self ..), distinct⟩
    · intro other listed
      rcases List.mem_cons.mp listed with rfl | later
      · exact unseen
      · exact fun early => apart other later (mem_cons_of_mem _ early)

theorem nodup_measures_of_affordanceViolations {bundle : DefinitionBundle}
    (accepted : affordanceViolations bundle = []) :
    (bundle.measures.map MeasureDefinition.name).Nodup := by
  rw [affordanceViolations, append_eq_nil_iff, append_eq_nil_iff,
    append_eq_nil_iff, duplicateNameViolations, map_eq_nil_iff]
    at accepted
  have distinct := (nodup_of_repeatedNames accepted.1.1.1).1
  rw [append_assoc, append_assoc] at distinct
  exact (List.nodup_append.mp distinct).1

inductive CurrencyViolation where
  | notDeclared
  | aliasNotVisible
  | notConstrained
deriving DecidableEq

def currencyMembers (bundle : DefinitionBundle) (dimension : String) : List String :=
  (bundle.capabilities.filter fun entry =>
    entry.kind == .dimension && entry.resolvesTo == dimension).map CapabilityEntry.name

def checkNativeCurrencyForMeasure (currencyDimension : Option String)
    (plan : PlanNode) (allowed : List String) (bundle : DefinitionBundle) :
    Option CurrencyViolation :=
  match currencyDimension with
  | none => some .notDeclared
  | some dimension =>
    let visible := (currencyMembers bundle dimension).filter fun member =>
      allowed.contains member
    if visible = [] then
      some .aliasNotVisible
    else if plan.grain = .grouped ∧ visible.any plan.dimensions.contains then
      none
    else if visible.any fun member =>
        (guaranteedSingleEquality plan.filters member).isSome then
      none
    else
      some .notConstrained

/-- The capability a dictionary over the capabilities keeps for a name: the
last declared one. -/
def capabilityKept (bundle : DefinitionBundle) (member : String) : Option CapabilityEntry :=
  bundle.capabilities.reverse.find? fun entry => entry.name == member

def checkedMeasure (bundle : DefinitionBundle) (member : String) : Option MeasureDefinition :=
  (capabilityKept bundle member).bind fun entry =>
    measureKept bundle entry.resolvesTo

def isMoney (measure : MeasureDefinition) : Bool :=
  measure.currencyDimension.isSome || measure.format == some .currency

def assertMeasureCurrency (plan : PlanNode) (allowed : List String)
    (bundle : DefinitionBundle) (member : String) : Except Raised Unit :=
  match checkedMeasure bundle member with
  | none => .ok ()
  | some measure =>
    if isMoney measure then
      match checkNativeCurrencyForMeasure measure.currencyDimension plan allowed bundle with
      | none => .ok ()
      | some .notDeclared => .error (refused .capabilityDisabled)
      | some .aliasNotVisible => .error denied
      | some .notConstrained =>
        .error (unexpressible "native_currency_unconstrained")
    else
      .ok ()

/-- The last of the adapter's authorization checks. -/
def assertNativeCurrency (plan : PlanNode) (allowed : List String)
    (bundle : DefinitionBundle) : Except Raised Unit :=
  plan.measures.forM (assertMeasureCurrency plan allowed bundle)

section Rule

variable {bundle : DefinitionBundle} {plan : PlanNode} {allowed : List String}

theorem mem_currencyMembers {dimension member : String} :
    member ∈ currencyMembers bundle dimension ↔
      ∃ entry ∈ bundle.capabilities, entry.kind = .dimension ∧
        entry.resolvesTo = dimension ∧ entry.name = member := by
  simp only [currencyMembers, mem_map, mem_filter, Bool.and_eq_true, beq_iff_eq]
  constructor
  · rintro ⟨entry, ⟨declared, kind, target⟩, name⟩
    exact ⟨entry, declared, kind, target, name⟩
  · rintro ⟨entry, declared, kind, target, name⟩
    exact ⟨entry, ⟨declared, kind, target⟩, name⟩

inductive FixesCurrency (bundle : DefinitionBundle) (plan : PlanNode)
    (dimension : String) : Prop where
  | grouped {member : String} (named : member ∈ currencyMembers bundle dimension)
      (isGrouped : plan.grain = .grouped) (listed : member ∈ plan.dimensions)
  | filtered {member value : String} (named : member ∈ currencyMembers bundle dimension)
      (fixed : guaranteedSingleEquality plan.filters member = some value)

theorem fixesCurrency_of_check {currencyDimension : Option String}
    (passed : checkNativeCurrencyForMeasure currencyDimension plan allowed bundle = none) :
    ∃ dimension, currencyDimension = some dimension ∧ FixesCurrency bundle plan dimension := by
  cases currencyDimension with
  | none => cases passed
  | some dimension =>
    refine ⟨dimension, rfl, ?_⟩
    rw [checkNativeCurrencyForMeasure] at passed
    split at passed
    · cases passed
    · split at passed
      · rename_i both
        rcases List.any_eq_true.mp both.2 with ⟨member, visible, listed⟩
        apply FixesCurrency.grouped (List.mem_filter.mp visible).1 both.1
        simpa using listed
      · split at passed
        · rename_i some
          rcases List.any_eq_true.mp some with ⟨member, visible, isFixed⟩
          rcases Option.isSome_iff_exists.mp isFixed with ⟨value, fixed⟩
          exact .filtered (List.mem_filter.mp visible).1 fixed
        · cases passed

theorem fixesCurrency_of_assertNativeCurrency
    (authorized : assertNativeCurrency plan allowed bundle = .ok ())
    {member : String} (named : member ∈ plan.measures)
    {measure : MeasureDefinition}
    (read : checkedMeasure bundle member = some measure)
    (money : isMoney measure = true) :
    ∃ dimension, measure.currencyDimension = some dimension ∧
      FixesCurrency bundle plan dimension := by
  have own := forM_eq_ok.mp authorized member named
  rw [assertMeasureCurrency, read] at own
  dsimp only at own
  rw [if_pos money] at own
  have passed : checkNativeCurrencyForMeasure measure.currencyDimension plan
      allowed bundle = none := by
    split at own
    · assumption
    · cases own
    · cases own
    · cases own
  exact fixesCurrency_of_check passed

end Rule

section Guarantee

variable {leafTruth : FilterLeaf → Truth} {member : String} {Fixed : String → Prop}

theorem agreedValue_eq_some {all any : List (Option String)} {value : String}
    (agreed : agreedValue all any = some value) :
    some value ∈ all ∨ any ≠ [] ∧ ∀ branch ∈ any, branch = some value := by
  unfold agreedValue at agreed
  split at agreed
  · rename_i only isOnly
    cases agreed
    apply Or.inl
    have listed : value ∈ (all.filterMap id).dedup := by
      rw [isOnly]
      exact mem_singleton_self value
    simpa using List.mem_dedup.mp listed
  · cases agreed
  · apply Or.inr
    cases any with
    | nil => cases agreed
    | cons first rest =>
      dsimp only at agreed
      split at agreed
      · rename_i same
        refine ⟨cons_ne_nil first rest, ?_⟩
        intro branch listed
        rcases List.mem_cons.mp listed with rfl | later
        · exact agreed
        · rw [same branch later, agreed]
      · cases agreed

theorem singleEqualities_eq_map (nodes : List FilterNode) : singleEqualities member nodes =
      nodes.map (FilterNode.singleEquality member) := by
  induction nodes with
  | nil => rfl
  | cons node nodes ih => rw [singleEqualities, ih, map_cons]

theorem fixed_of_group {all any : List FilterNode} {value : String}
    (conjuncts : ∀ node ∈ all, nodeTruth leafTruth node = some true →
      node.singleEquality member = some value → Fixed value)
    (alternatives : ∀ node ∈ any, nodeTruth leafTruth node = some true →
      node.singleEquality member = some value → Fixed value)
    (agreed : agreedValue (singleEqualities member all) (singleEqualities member any) = some value)
    (isTrue : groupTruth (nodesTruth leafTruth all) (nodesTruth leafTruth any) = some true) :
    Fixed value := by
  rw [nodesTruth_eq_map, nodesTruth_eq_map, groupTruth_eq_true] at isTrue
  rcases isTrue with ⟨allTrue, anyTrue⟩
  rw [singleEqualities_eq_map, singleEqualities_eq_map] at agreed
  rcases agreedValue_eq_some agreed with fixed | ⟨nonempty, fixed⟩
  · rcases List.mem_map.mp fixed with ⟨node, listed, equal⟩
    have own := allTrue _ (mem_map_of_mem listed)
    exact conjuncts node listed own equal
  · rcases anyTrue with empty | ⟨clause, isClause, own⟩
    · exact absurd (List.map_eq_nil_iff.mp empty)
        fun isNil => nonempty (by rw [isNil, map_nil])
    · rcases List.mem_map.mp isClause with ⟨node, listed, rfl⟩
      exact alternatives node listed own (fixed _ (mem_map_of_mem listed))

mutual

theorem fixed_of_node : ∀ (node : FilterNode),
    (∀ leaf ∈ node.leaves, ∀ value, leafTruth leaf = some true →
      leaf.singleEquality member = some value → Fixed value) →
      ∀ value, nodeTruth leafTruth node = some true →
        node.singleEquality member = some value → Fixed value
  | .leaf leaf, own => own leaf (mem_singleton_self leaf)
  | .group all any, own => by
      intro value isTrue agreed
      apply fixed_of_group _ _ agreed isTrue
      · intro node listed
        exact fixed_of_nodes all (fun leaf below =>
          own leaf (mem_append_left _ below)) node listed value
      · intro node listed
        exact fixed_of_nodes any (fun leaf below =>
          own leaf (mem_append_right _ below)) node listed value

theorem fixed_of_nodes : ∀ (nodes : List FilterNode),
    (∀ leaf ∈ leavesOfList nodes, ∀ value, leafTruth leaf = some true →
      leaf.singleEquality member = some value → Fixed value) →
      ∀ node ∈ nodes, ∀ value, nodeTruth leafTruth node = some true →
        node.singleEquality member = some value → Fixed value
  | [], _, _, listed => absurd listed not_mem_nil
  | node :: nodes, own, found, listed => by
      have head := fixed_of_node node fun leaf below =>
        own leaf (mem_append_left _ below)
      have tail := fixed_of_nodes nodes fun leaf below =>
        own leaf (mem_append_right _ below)
      rcases List.mem_cons.mp listed with rfl | later
      · exact head
      · exact tail found later

end

theorem guaranteedSingleEquality_fixed {filters : Option FilterGroup} {value : String}
    (leaves : ∀ leaf ∈ iterFilterLeaves filters, ∀ found, leafTruth leaf = some true →
        leaf.singleEquality member = some found → Fixed found)
    (guaranteed : guaranteedSingleEquality filters member = some value)
    (isTrue : filtersTruth leafTruth filters = some true) : Fixed value := by
  cases filters with
  | none => cases guaranteed
  | some group =>
    apply fixed_of_group _ _ guaranteed isTrue
    · intro node listed
      exact fixed_of_nodes group.all (fun leaf below =>
        leaves leaf (mem_append_left _ below)) node listed value
    · intro node listed
      exact fixed_of_nodes group.any (fun leaf below =>
        leaves leaf (mem_append_right _ below)) node listed value

end Guarantee

end McpAssistant.BusinessQuery.NativeCurrency
