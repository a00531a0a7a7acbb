import McpAssistant.BusinessQuery.SingleCurrency

/-!
# What the native-currency rule guarantees

Where the rule reaches the amounts behind a value, all of them are in one
currency: a filter fixes it for every kept row, a grouping for every row of a
group, the partition of a share's window and the keys of a comparison for the
rows outside the group.
-/

namespace McpAssistant.BusinessQuery.CurrencyGuarantee

open Definitions FilterTree QueryPlan FilterEvaluation NativeCurrency
  GroupedStatement SingleCurrency Foundations.Grouping List

/-- The statement reads a currency's capability as the rule does: from the row
itself, by the day's value and not by a calendar bucket, and compared with
texts. -/
structure ReadAlike (bundle : DefinitionBundle) (isolated : List String)
    (plan : PlanNode) (member : String) : Prop where
  joined : ∀ source, resolveMember bundle member = some (.dimension, .dimension source) →
      source.owningResource ∉ isolated
  unbucketed : bucketOf plan member = none
  texts : ∀ leaf ∈ iterFilterLeaves plan.filters, ∀ value, leaf.singleEquality member = some value →
      ∃ arity, leaf = .filter ⟨member, .eq, [.text value], arity⟩

/-- The rule reaches the amounts behind every value: the measures a derived
measure is computed from pass it too and are in one currency, a share is
partitioned by that currency, and the rule reads the plan's names as the
statement does. -/
structure RuleReaches (bundle : DefinitionBundle) (allowed isolated : List String)
    (plan : PlanNode) : Prop where
  distinct : (bundle.capabilities.map CapabilityEntry.name).Nodup
  derived : ∀ member ∈ plan.measures, ∀ measure, compiledMeasure bundle member = some measure →
      measure.expressionKind ≠ none →
        ∀ component ∈ components bundle measure, isMoney component = true →
          checkNativeCurrencyForMeasure component.currencyDimension plan allowed bundle = none
  together : ∀ member ∈ plan.measures, ∀ measure, compiledMeasure bundle member = some measure →
      ∀ left ∈ components bundle measure, ∀ right ∈ components bundle measure,
        isMoney left = true → isMoney right = true →
          left.currencyDimension = right.currencyDimension
  partitioned : ∀ member ∈ plan.measures, ∀ measure,
    compiledMeasure bundle member = some measure → measure.expressionKind = some .share →
        ∀ base ∈ components bundle measure, ∀ dimension, base.currencyDimension = some dimension →
            dimension ≠ "" ∧ ∀ source, dimension ∈ plan.dimensions →
              resolveMember bundle dimension = some (.dimension, .dimension source) →
                source.name = dimension
  readAlike : ∀ member ∈ plan.measures, ∀ measure, compiledMeasure bundle member = some measure →
      ∀ component ∈ components bundle measure, ∀ dimension,
        component.currencyDimension = some dimension →
          ∀ name ∈ currencyMembers bundle dimension, ReadAlike bundle isolated plan name

section Names

theorem find?_eq_some_of_nodup {Item : Type} {key : Item → String}
    {items : List Item} {item : Item} (distinct : (items.map key).Nodup)
    (listed : item ∈ items) :
    (items.find? fun other => key other == key item) = some item := by
  cases found : items.find? fun other => key other == key item with
  | none =>
    have missed := List.find?_eq_none.mp found item listed
    simp at missed
  | some other =>
    have same : key other = key item := by
      simpa using List.find?_some found
    have isItem : other = item :=
      inj_on_of_nodup_map distinct (mem_of_find?_eq_some found) listed same
    rw [isItem]

variable {bundle : DefinitionBundle}

theorem nodup_map_reverse {Item : Type} {key : Item → String}
    {items : List Item} (distinct : (items.map key).Nodup) :
    (items.reverse.map key).Nodup := by
  rw [map_reverse]
  exact List.nodup_reverse.mpr distinct

/-- Where names are declared once, the rule reads the measure the statement
compiles. -/
theorem checkedMeasure_of_compiledMeasure
    (distinct : (bundle.capabilities.map CapabilityEntry.name).Nodup)
    (distinctMeasures : (bundle.measures.map MeasureDefinition.name).Nodup)
    {member : String} {measure : MeasureDefinition}
    (compiled : compiledMeasure bundle member = some measure) :
    checkedMeasure bundle member = some measure := by
  unfold compiledMeasure at compiled
  split at compiled
  · rename_i found resolved
    cases compiled
    rcases Option.bind_eq_some_iff.mp resolved with ⟨entry, isEntry, rest⟩
    rcases Option.map_eq_some_iff.mp rest with ⟨definition, isDefined, pair⟩
    rcases Prod.mk.inj pair with ⟨kind, rfl⟩
    have kept : capabilityKept bundle member = some entry := by
      rw [capabilityKept, ← capabilityNamed_name isEntry]
      apply find?_eq_some_of_nodup (nodup_map_reverse distinct)
      exact List.mem_reverse.mpr (mem_capabilities_of_capabilityNamed isEntry)
    rw [kind] at isDefined
    rcases Option.map_eq_some_iff.mp isDefined with ⟨found, isFound, same⟩
    cases same
    have name : measure.name = entry.resolvesTo := by
      simpa using List.find?_some isFound
    rw [checkedMeasure, kept, Option.bind_some, measureKept, ← name]
    apply find?_eq_some_of_nodup (nodup_map_reverse distinctMeasures)
    exact List.mem_reverse.mpr (mem_of_find?_eq_some isFound)
  · cases compiled

end Names

/-- The statement reads a dimension's own column by a capability. -/
structure Reads (bundle : DefinitionBundle) (isolated : List String)
    (plan : PlanNode) (member : String) (source : DimensionDefinition) :
    Prop where
  resolves : resolveMember bundle member = some (.dimension, .dimension source)
  declared : source ∈ bundle.dimensions
  joined : isolated.contains source.owningResource = false
  unbucketed : bucketOf plan member = none
  texts : ∀ leaf ∈ iterFilterLeaves plan.filters, ∀ value, leaf.singleEquality member = some value →
      ∃ arity, leaf = .filter ⟨member, .eq, [.text value], arity⟩

/-- What fixes a currency, as the statement reads it. -/
inductive Fixes (bundle : DefinitionBundle) (isolated : List String)
    (plan : PlanNode) (dimension : String) : Prop where
  | grouped {member : String} {source : DimensionDefinition}
      (reads : Reads bundle isolated plan member source)
      (name : source.name = dimension)
      (isGrouped : plan.grain = .grouped) (listed : member ∈ plan.dimensions)
  | filtered {member value : String} {source : DimensionDefinition}
      (reads : Reads bundle isolated plan member source)
      (name : source.name = dimension)
      (fixed : guaranteedSingleEquality plan.filters member = some value)

section Reading

variable {bundle : DefinitionBundle} {isolated : List String} {plan : PlanNode}
  {member dimension : String} {source : DimensionDefinition}

theorem reads_of_named (distinct : (bundle.capabilities.map CapabilityEntry.name).Nodup)
    (named : member ∈ currencyMembers bundle dimension)
    (resolves : (resolveMember bundle member).isSome = true)
    (alike : ReadAlike bundle isolated plan member) :
    ∃ source, Reads bundle isolated plan member source ∧ source.name = dimension := by
  rcases mem_currencyMembers.mp named with ⟨entry, listed, kind, target, name⟩
  have isEntry : capabilityNamed bundle member = some entry := by
    rw [capabilityNamed, ← name]
    exact find?_eq_some_of_nodup distinct listed
  have resolved : resolveMember bundle member =
      (bundle.dimensions.find? fun source => source.name == dimension).map
        fun source => (.dimension, .dimension source) := by
    rw [resolveMember, isEntry, Option.bind_some, kind, target, definitionFor, Option.map_map]
    rfl
  rw [resolved, Option.isSome_map] at resolves
  rcases Option.isSome_iff_exists.mp resolves with ⟨source, found⟩
  rw [found] at resolved
  refine ⟨source, ⟨resolved, mem_of_find?_eq_some found, ?_,
    alike.unbucketed, alike.texts⟩, by simpa using List.find?_some found⟩
  have apart := alike.joined source resolved
  simpa using apart

theorem groupTruth_of_all_true {all any : List FilterNode} {leafTruth : FilterLeaf → Truth}
    (conjuncts : ∀ node ∈ all, nodeTruth leafTruth node = some true)
    (alternatives : ∀ node ∈ any, nodeTruth leafTruth node = some true) :
    groupTruth (nodesTruth leafTruth all) (nodesTruth leafTruth any) = some true := by
  rw [nodesTruth_eq_map, nodesTruth_eq_map, groupTruth_eq_true]
  constructor
  · intro clause isClause
    rcases List.mem_map.mp isClause with ⟨node, listed, rfl⟩
    exact conjuncts node listed
  · cases any with
    | nil => exact .inl rfl
    | cons node any =>
      exact .inr ⟨_, mem_cons_self .., alternatives node (mem_cons_self ..)⟩

mutual

theorem nodeTruth_of_leaves_true : ∀ (node : FilterNode),
    nodeTruth (fun _ => some true) node = some true
  | .leaf _ => rfl
  | .group all any =>
    groupTruth_of_all_true (nodesTruth_of_leaves_true all) (nodesTruth_of_leaves_true any)

theorem nodesTruth_of_leaves_true : ∀ (nodes : List FilterNode),
    ∀ node ∈ nodes, nodeTruth (fun _ => some true) node = some true
  | [], _, listed => absurd listed not_mem_nil
  | node :: nodes, found, listed => by
      have head := nodeTruth_of_leaves_true node
      have tail := nodesTruth_of_leaves_true nodes
      rcases List.mem_cons.mp listed with rfl | later
      · exact head
      · exact tail found later

end

theorem exists_leaf_of_guaranteedSingleEquality {filters : Option FilterGroup} {value : String}
    (guaranteed : guaranteedSingleEquality filters member = some value) :
    ∃ leaf ∈ iterFilterLeaves filters, leaf.singleEquality member = some value := by
  have isTrue : filtersTruth (fun _ => some true) filters = some true := by
    cases filters with
    | none => rfl
    | some group =>
      exact groupTruth_of_all_true (nodesTruth_of_leaves_true group.all)
        (nodesTruth_of_leaves_true group.any)
  refine @guaranteedSingleEquality_fixed _ member (fun found => ∃ leaf ∈ iterFilterLeaves filters,
      leaf.singleEquality member = some found) _ _ ?_ guaranteed isTrue
  intro leaf listed found _ equal
  exact ⟨leaf, listed, equal⟩

/-- The rule's reading of a plan is the statement's. -/
theorem fixes_of_fixesCurrency (distinct : (bundle.capabilities.map CapabilityEntry.name).Nodup)
    (resolve : namesResolve bundle plan = true)
    (alike : ∀ name ∈ currencyMembers bundle dimension, ReadAlike bundle isolated plan name)
    (fixes : FixesCurrency bundle plan dimension) :
    Fixes bundle isolated plan dimension := by
  have resolves := List.all_eq_true.mp resolve
  cases fixes with
  | @grouped member named isGrouped listed =>
    rcases reads_of_named distinct named
      (resolves member (mem_append_left _ listed)) (alike member named)
      with ⟨source, reads, name⟩
    exact .grouped reads name isGrouped listed
  | @filtered member value named fixed =>
    rcases exists_leaf_of_guaranteedSingleEquality fixed with ⟨leaf, listed, equal⟩
    rcases (alike member named).texts leaf listed value equal with ⟨arity, rfl⟩
    have isNamed : member ∈ plan.dimensions ++ (planFilters (iterFilterLeaves plan.filters)).map
          PlanFilter.member := by
      apply mem_append_right
      exact mem_map_of_mem (f := PlanFilter.member) (mem_planFilters.mpr listed)
    rcases reads_of_named distinct named (resolves member isNamed)
      (alike member named) with ⟨source, reads, name⟩
    exact .filtered reads name fixed

theorem mem_dimensions_of_resolveMember (resolved : resolveMember bundle member =
      some (.dimension, .dimension source)) :
    source ∈ bundle.dimensions := by
  rcases Option.bind_eq_some_iff.mp resolved with ⟨entry, _, rest⟩
  rcases Option.map_eq_some_iff.mp rest with ⟨definition, isDefined, pair⟩
  rcases Prod.mk.inj pair with ⟨kind, rfl⟩
  rw [kind] at isDefined
  rcases Option.map_eq_some_iff.mp isDefined with ⟨found, isFound, same⟩
  cases same
  exact mem_of_find?_eq_some isFound

theorem partitionColumn_eq_some {base : MeasureDefinition} {column : DimensionDefinition} :
    partitionColumn bundle base member = some column ↔
      resolveMember bundle member = some (.dimension, .dimension column) ∧
        (base.currencyDimension = some column.name ∨ base.currencyDimension = some member) := by
  unfold partitionColumn
  split
  · rename_i found resolved
    rw [Option.ite_none_right_eq_some, resolved]
    simp only [Option.some.injEq, Prod.mk.injEq, MemberDefinition.dimension.injEq, true_and]
    constructor
    · rintro ⟨currency, rfl⟩
      exact ⟨rfl, currency⟩
    · rintro ⟨rfl, currency⟩
      exact ⟨currency, rfl⟩
  · rename_i unresolved
    constructor
    · intro absent
      cases absent
    · rintro ⟨resolved, _⟩
      exact absurd resolved (unresolved column)

theorem currencyPartition_of_reads (reads : Reads bundle isolated plan member source)
    (listed : member ∈ plan.dimensions) {base : MeasureDefinition}
    (currency : base.currencyDimension = some source.name)
    (nonempty : source.name ≠ "")
    (own : ∀ found, source.name ∈ plan.dimensions →
      resolveMember bundle source.name = some (.dimension, .dimension found) →
        found.name = source.name) :
    ∃ column, currencyPartition bundle plan base = some column ∧
      column.name = source.name ∧ column ∈ bundle.dimensions := by
  have isColumn : partitionColumn bundle base member = some source :=
    partitionColumn_eq_some.mpr ⟨reads.resolves, .inl currency⟩
  have present : (plan.dimensions.findSome? (partitionColumn bundle base)).isSome = true := by
    apply List.findSome?_isSome_iff.mpr
    exact ⟨member, listed, by rw [isColumn]; rfl⟩
  rcases Option.isSome_iff_exists.mp present with ⟨column, found⟩
  rcases exists_of_findSome?_eq_some found with ⟨name, grouped, isFound⟩
  rcases partitionColumn_eq_some.mp isFound with ⟨resolved, named⟩
  refine ⟨column, ?_, ?_, mem_dimensions_of_resolveMember resolved⟩
  · rw [currencyPartition, currency, Option.getD_some, if_neg nonempty]
    exact found
  · rw [currency] at named
    rcases named with same | same
    · exact (Option.some.inj same).symm
    · rw [← Option.some.inj same] at resolved grouped
      exact own column grouped resolved

end Reading

section Rows

variable {bundle : DefinitionBundle} {Row Key : Type} [DecidableEq Key]
  {database : MoneyDatabase bundle Row Key} {isolated : List String}
  {plan : PlanNode} {member : String} {source : DimensionDefinition}
  {rows group : List Row} {row : Row}

omit [DecidableEq Key] in
theorem projected_of_reads (reads : Reads bundle isolated plan member source) :
    projected database plan row member source = database.dimension row source := by
  rw [projected, reads.unbucketed]

/-- The earlier period is read by the day's value throughout. -/
theorem Reads.previous (reads : Reads bundle isolated plan member source) :
    Reads bundle isolated (previousPlan plan) member source where
  resolves := reads.resolves
  declared := reads.declared
  joined := reads.joined
  texts := reads.texts
  unbucketed := by
    have unread : timeGroupFor member (previousPlan plan) = none := by
      rw [timeGroupFor, previousPlan]
      cases plan.period with
      | none => rfl
      | some period =>
        show (if period.timeDimension = member then none else none) = none
        split
        · rfl
        · rfl
    rw [bucketOf, unread]
    split
    · rfl
    · rfl

/-- A comparison of a read currency with a text holds on the rows of that
currency only. -/
theorem dimension_of_leafTruth (reads : Reads bundle isolated plan member source) {value : String}
    {arity : FilterOperator.eq.acceptsValues [.text value] = true}
    (isTrue : leafTruth database isolated plan row
      (.filter ⟨member, .eq, [.text value], arity⟩) = some true) :
    database.dimension row source = some (database.bound source (.text value)) := by
  rw [SingleCurrency.leafTruth, reads.resolves] at isTrue
  dsimp only at isTrue
  rw [if_neg (by rw [reads.joined]; exact Bool.false_ne_true), projected_of_reads reads] at isTrue
  rcases Option.map_eq_some_iff.mp isTrue with ⟨found, isFound, equal⟩
  rw [isFound, of_decide_eq_true equal]

theorem dimension_of_guaranteedSingleEquality
    (reads : Reads bundle isolated plan member source) {value : String}
    (guaranteed : guaranteedSingleEquality plan.filters member = some value)
    (kept : row ∈ keptRows database isolated plan rows) :
    database.dimension row source = some (database.bound source (.text value)) := by
  have isTrue := of_decide_eq_true (List.mem_filter.mp kept).2
  refine @guaranteedSingleEquality_fixed _ member (fun found => database.dimension row source =
      some (database.bound source (.text found))) _ _ ?_ guaranteed isTrue
  intro leaf listed found leafTrue equal
  rcases reads.texts leaf listed found equal with ⟨arity, rfl⟩
  exact dimension_of_leafTruth reads leafTrue

theorem mem_keptRows_of_resultGroups (listed : group ∈ resultGroups database isolated plan rows)
    (inGroup : row ∈ group) : row ∈ keptRows database isolated plan rows := by
  have formed := (List.mem_filter.mp listed).1
  cases grain : plan.grain with
  | scalar =>
    rw [grain] at formed
    rw [List.mem_singleton.mp formed] at inGroup
    exact inGroup
  | grouped =>
    rw [grain] at formed
    rcases mem_groupsBy.mp formed with ⟨head, _, rfl⟩
    exact (List.mem_filter.mp inGroup).1
  | entityRows =>
    rw [grain] at formed
    cases formed

omit [DecidableEq Key] in
theorem dimension_eq_of_groupKey {other : PlanNode} {left right : Row}
    (reads : Reads bundle isolated plan member source)
    (readsOther : Reads bundle isolated other member source)
    (alike : groupMembers other = groupMembers plan)
    (listed : member ∈ plan.dimensions)
    (same : groupKey database plan left = groupKey database other right) :
    database.dimension left source = database.dimension right source := by
  have grouped : member ∈ groupMembers plan := by
    apply mem_append_left
    exact mem_append_left _ listed
  rw [SingleCurrency.groupKey, SingleCurrency.groupKey, alike] at same
  have own := List.map_inj_left.mp same member grouped
  rw [reads.resolves] at own
  dsimp only at own
  rw [projected_of_reads reads, projected_of_reads readsOther] at own
  exact own

/-- A group by a currency is of the currency of its first row. -/
theorem head_dimension_of_grouped (reads : Reads bundle isolated plan member source)
    (isGrouped : plan.grain = .grouped) (dimension : member ∈ plan.dimensions)
    (listed : group ∈ resultGroups database isolated plan rows)
    (inGroup : row ∈ group) :
    group.head?.map (database.dimension · source) = some (database.dimension row source) := by
  have formed := (List.mem_filter.mp listed).1
  rw [isGrouped] at formed
  rcases exists_head formed with ⟨head, isHead, _, sameKey⟩
  rw [isHead, Option.map_some, dimension_eq_of_groupKey reads reads rfl
    dimension (sameKey row inGroup)]

end Rows

section Sources

variable {bundle : DefinitionBundle} {Row Key : Type} [DecidableEq Key]
  {database : MoneyDatabase bundle Row Key} {isolated : List String}
  {plan : PlanNode} {member : String} {source : DimensionDefinition}
  {rows group : List Row} {groups : List (List Row)} {row : Row}
  {measure base : MeasureDefinition}

/-- A share of a currency is partitioned by that currency alone. -/
structure PartitionsBy (bundle : DefinitionBundle) (plan : PlanNode)
    (measure : MeasureDefinition) (dimension : String) : Prop where
  nonempty : measure.expressionKind = some .share → dimension ≠ ""
  own : measure.expressionKind = some .share → ∀ found, dimension ∈ plan.dimensions →
      resolveMember bundle dimension = some (.dimension, .dimension found) → found.name = dimension

theorem mem_sources {entry : MeasureDefinition × Row} :
    entry ∈ sources database plan groups group measure ↔ entry.1 ∈ components bundle measure ∧
        entry.2 ∈ (if measure.expressionKind = some .share then
          windowRows database plan groups group entry.1 else group) := by
  rcases entry with ⟨component, row⟩
  rw [sources, mem_flatMap]
  constructor
  · rintro ⟨found, isComponent, listed⟩
    rcases List.mem_map.mp listed with ⟨other, inRows, pair⟩
    cases pair
    exact ⟨isComponent, inRows⟩
  · rintro ⟨isComponent, inRows⟩
    exact ⟨component, isComponent, mem_map_of_mem inRows⟩

theorem mem_flatten_of_windowRows (inWindow : row ∈ windowRows database plan groups group base) :
    row ∈ groups.flatten := by
  rw [windowRows] at inWindow
  split at inWindow
  · exact inWindow
  · rcases List.mem_flatten.mp inWindow with ⟨other, listed, inOther⟩
    exact List.mem_flatten.mpr ⟨other, (List.mem_filter.mp listed).1, inOther⟩

/-- Every amount behind a value is on a kept row. -/
theorem mem_keptRows_of_sources {entry : MeasureDefinition × Row}
    (listed : group ∈ resultGroups database isolated plan rows)
    (isSource : entry ∈ sources database plan
      (resultGroups database isolated plan rows) group measure) :
    entry.2 ∈ keptRows database isolated plan rows := by
  have inRows := (mem_sources.mp isSource).2
  split at inRows
  · rcases List.mem_flatten.mp (mem_flatten_of_windowRows inRows) with
      ⟨other, isGroup, inOther⟩
    exact mem_keptRows_of_resultGroups isGroup inOther
  · exact mem_keptRows_of_resultGroups listed inRows

theorem head_dimension_of_windowRows (reads : Reads bundle isolated plan member source)
    (isGrouped : plan.grain = .grouped) (dimension : member ∈ plan.dimensions)
    (currency : base.currencyDimension = some source.name)
    (nonempty : source.name ≠ "")
    (own : ∀ found, source.name ∈ plan.dimensions →
      resolveMember bundle source.name = some (.dimension, .dimension found) →
        found.name = source.name)
    (inWindow : row ∈ windowRows database plan
      (resultGroups database isolated plan rows) group base) :
    group.head?.map (database.dimension · source) = some (database.dimension row source) := by
  rcases currencyPartition_of_reads reads dimension currency nonempty own with
    ⟨column, partition, name, declared⟩
  rw [windowRows, partition] at inWindow
  have alike : (database.dimension · column) = (database.dimension · source) := by
    ext1 other
    rw [← database.declared base _ column currency declared name,
      ← database.declared base _ source currency reads.declared rfl]
  rcases List.mem_flatten.mp inWindow with ⟨other, listed, inOther⟩
  rcases List.mem_filter.mp listed with ⟨isGroup, sameHead⟩
  rw [alike] at sameHead
  rw [← of_decide_eq_true sameHead]
  exact head_dimension_of_grouped reads isGrouped dimension isGroup inOther

theorem head_dimension_of_sources {entry : MeasureDefinition × Row}
    (reads : Reads bundle isolated plan member source)
    (isGrouped : plan.grain = .grouped) (dimension : member ∈ plan.dimensions)
    (partitions : PartitionsBy bundle plan measure source.name)
    (currency : entry.1.currencyDimension = some source.name)
    (listed : group ∈ resultGroups database isolated plan rows)
    (isSource : entry ∈ sources database plan
      (resultGroups database isolated plan rows) group measure) :
    group.head?.map (database.dimension · source) = some (database.dimension entry.2 source) := by
  have inRows := (mem_sources.mp isSource).2
  split at inRows
  · rename_i share
    exact head_dimension_of_windowRows reads isGrouped dimension currency
      (partitions.nonempty share) (partitions.own share) inRows
  · exact head_dimension_of_grouped reads isGrouped dimension listed inRows

/-- Groups that a comparison matches by a currency are of one currency. -/
theorem head_dimension_of_compared {other : List Row}
    (reads : Reads bundle isolated plan member source)
    (dimension : member ∈ plan.dimensions)
    (same : compared database plan group other = true) :
    group.head?.map (database.dimension · source) =
      other.head?.map (database.dimension · source) := by
  rcases of_decide_eq_true same with empty | keys
  · have grouped : member ∈ groupMembers plan := by
      apply mem_append_left
      exact mem_append_left _ dimension
    rw [empty] at grouped
    cases grouped
  · cases head : group.head? with
    | none =>
      rw [head] at keys
      rw [Option.map_eq_none_iff.mp keys.symm]
    | some row =>
      rw [head] at keys
      rcases Option.map_eq_some_iff.mp keys.symm with ⟨found, isHead, key⟩
      rw [isHead, Option.map_some, Option.map_some,
        dimension_eq_of_groupKey reads reads.previous rfl dimension key.symm]

end Sources

section Outputs

variable {bundle : DefinitionBundle} {Row Key : Type} [DecidableEq Key]
  {database : MoneyDatabase bundle Row Key} {isolated : List String}
  {plan : PlanNode} {member : String} {source : DimensionDefinition}
  {measure : MeasureDefinition} {current previous : List Row}
  {output : List (MeasureDefinition × Row)}

/-- Where the amounts behind a value of the answer come from. -/
structure IsOutput (database : MoneyDatabase bundle Row Key)
    (isolated : List String) (plan : PlanNode) (current previous : List Row)
    (output : List (MeasureDefinition × Row)) (measure : MeasureDefinition)
    (group : List Row) : Prop where
  resolve : namesResolve bundle plan = true
  compiled : ∃ name ∈ plan.measures, compiledMeasure bundle name = some measure
  listed : group ∈ resultGroups database isolated plan current
  sources : ∀ entry ∈ output,
    entry ∈ sources database plan (resultGroups database isolated plan current) group measure ∨
    ∃ other ∈ resultGroups database isolated (previousPlan plan) previous,
      compared database plan group other = true ∧ entry ∈ sources database (previousPlan plan)
          (resultGroups database isolated (previousPlan plan) previous) other
          measure

theorem exists_isOutput (isOutput : output ∈ outputs database isolated plan current previous) :
    ∃ measure group, IsOutput database isolated plan current previous output measure group := by
  rw [outputs] at isOutput
  split at isOutput
  · rename_i resolve
    rcases List.mem_flatMap.mp isOutput with ⟨group, listed, found⟩
    rcases List.mem_map.mp found with ⟨measure, isMeasure, rfl⟩
    rcases List.mem_filterMap.mp isMeasure with ⟨name, named, compiled⟩
    refine ⟨measure, group, (Bool.and_eq_true_iff.mp resolve).1,
      ⟨name, named, compiled⟩, listed, ?_⟩
    intro entry isEntry
    rcases List.mem_append.mp isEntry with own | compares
    · exact .inl own
    · rcases List.mem_flatMap.mp compares with ⟨other, matched, isSource⟩
      rcases List.mem_filter.mp matched with ⟨isEarlier, same⟩
      cases comparison : plan.compareTo with
      | none =>
        rw [comparison] at isEarlier
        cases isEarlier
      | some period =>
        rw [comparison] at isEarlier isSource
        exact .inr ⟨other, isEarlier, same, isSource⟩
  · cases isOutput

theorem IsOutput.component {group : List Row}
    (isOutput : IsOutput database isolated plan current previous output measure
      group) {entry : MeasureDefinition × Row} (listed : entry ∈ output) :
    entry.1 ∈ components bundle measure := by
  rcases isOutput.sources entry listed with own | ⟨other, _, _, own⟩
  · exact (mem_sources.mp own).1
  · exact (mem_sources.mp own).1

theorem IsOutput.dimension_of_filtered {group : List Row}
    (isOutput : IsOutput database isolated plan current previous output measure
      group) (reads : Reads bundle isolated plan member source) {value : String}
    (fixed : guaranteedSingleEquality plan.filters member = some value)
    {entry : MeasureDefinition × Row} (listed : entry ∈ output) :
    database.dimension entry.2 source = some (database.bound source (.text value)) := by
  rcases isOutput.sources entry listed with own | ⟨other, isGroup, _, own⟩
  · exact dimension_of_guaranteedSingleEquality reads fixed
      (mem_keptRows_of_sources isOutput.listed own)
  · exact dimension_of_guaranteedSingleEquality reads.previous fixed
      (mem_keptRows_of_sources isGroup own)

theorem IsOutput.dimension_of_grouped {group : List Row}
    (isOutput : IsOutput database isolated plan current previous output measure
      group) (reads : Reads bundle isolated plan member source)
    (isGrouped : plan.grain = .grouped) (dimension : member ∈ plan.dimensions)
    (partitions : PartitionsBy bundle plan measure source.name)
    {entry : MeasureDefinition × Row} (listed : entry ∈ output)
    (currency : entry.1.currencyDimension = some source.name) :
    group.head?.map (database.dimension · source) = some (database.dimension entry.2 source) := by
  rcases isOutput.sources entry listed with own | ⟨other, isGroup, same, own⟩
  · exact head_dimension_of_sources reads isGrouped dimension partitions
      currency isOutput.listed own
  · rw [head_dimension_of_compared reads dimension same]
    exact head_dimension_of_sources reads.previous isGrouped dimension
      ⟨partitions.nonempty, partitions.own⟩ currency isGroup own

theorem IsOutput.oneCurrency {group : List Row} {dimension : String}
    (isOutput : IsOutput database isolated plan current previous output measure group)
    (together : ∀ component ∈ components bundle measure,
      isMoney component = true → component.currencyDimension = some dimension)
    (fixes : Fixes bundle isolated plan dimension)
    (partitions : PartitionsBy bundle plan measure dimension) :
    OneCurrency database output := by
  intro left isLeft right isRight leftMoney rightMoney
  have leftCurrency := together left.1 (isOutput.component isLeft) leftMoney
  have rightCurrency := together right.1 (isOutput.component isRight) rightMoney
  cases fixes with
  | @grouped member source reads name isGrouped listed =>
    rw [← name] at leftCurrency rightCurrency partitions
    rw [database.declared _ _ source leftCurrency reads.declared rfl,
      database.declared _ _ source rightCurrency reads.declared rfl]
    have atLeft := isOutput.dimension_of_grouped reads isGrouped listed
      partitions isLeft leftCurrency
    have atRight := isOutput.dimension_of_grouped reads isGrouped listed
      partitions isRight rightCurrency
    exact Option.some.inj (atLeft.symm.trans atRight)
  | @filtered member value source reads name fixed =>
    rw [← name] at leftCurrency rightCurrency
    rw [database.declared _ _ source leftCurrency reads.declared rfl,
      database.declared _ _ source rightCurrency reads.declared rfl,
      isOutput.dimension_of_filtered reads fixed isLeft,
      isOutput.dimension_of_filtered reads fixed isRight]

end Outputs

section Reached

variable {bundle : DefinitionBundle} {isolated allowed : List String}
  {plan : PlanNode} {member : String} {measure component : MeasureDefinition}

theorem fixesCurrency_of_component (accepted : affordanceViolations bundle = [])
    (authorized : assertNativeCurrency plan allowed bundle = .ok ())
    (reaches : RuleReaches bundle allowed isolated plan)
    (named : member ∈ plan.measures)
    (compiled : compiledMeasure bundle member = some measure)
    (isComponent : component ∈ components bundle measure)
    (money : isMoney component = true) :
    ∃ dimension, component.currencyDimension = some dimension ∧
      FixesCurrency bundle plan dimension := by
  cases form : measure.expressionKind with
  | none =>
    rw [components, form] at isComponent
    rw [List.mem_singleton.mp isComponent] at money ⊢
    have read := checkedMeasure_of_compiledMeasure reaches.distinct
      (nodup_measures_of_affordanceViolations accepted) compiled
    exact fixesCurrency_of_assertNativeCurrency authorized named read money
  | some kind =>
    have derived : measure.expressionKind ≠ none := by
      rw [form]
      exact Option.some_ne_none kind
    exact fixesCurrency_of_check (reaches.derived member named measure compiled
      derived component isComponent money)

theorem RuleReaches.partitionsBy (reaches : RuleReaches bundle allowed isolated plan)
    (named : member ∈ plan.measures)
    (compiled : compiledMeasure bundle member = some measure)
    (isComponent : component ∈ components bundle measure) {dimension : String}
    (currency : component.currencyDimension = some dimension) :
    PartitionsBy bundle plan measure dimension where
  nonempty := fun share => (reaches.partitioned member named measure compiled
    share component isComponent dimension currency).1
  own := fun share => (reaches.partitioned member named measure compiled share
    component isComponent dimension currency).2

theorem RuleReaches.neverMixes (reaches : RuleReaches bundle allowed isolated plan)
    (accepted : affordanceViolations bundle = [])
    (authorized : assertNativeCurrency plan allowed bundle = .ok ()) :
    NeverMixes bundle isolated plan := by
  intro Row Key decidable database current previous output isOutput left isLeft
    right isRight leftMoney rightMoney
  rcases exists_isOutput isOutput with ⟨measure, group, formed⟩
  rcases formed.compiled with ⟨member, named, compiled⟩
  have isComponent := formed.component isLeft
  rcases fixesCurrency_of_component accepted authorized reaches named compiled
    isComponent leftMoney with ⟨dimension, currency, fixes⟩
  have together : ∀ component ∈ components bundle measure, isMoney component = true →
        component.currencyDimension = some dimension := by
    intro component listed money
    rw [← currency]
    exact reaches.together member named measure compiled component listed left.1
      isComponent money leftMoney
  have fixed := fixes_of_fixesCurrency reaches.distinct formed.resolve
    (reaches.readAlike member named measure compiled left.1 isComponent dimension currency) fixes
  have partitions := reaches.partitionsBy named compiled isComponent currency
  exact formed.oneCurrency together fixed partitions left isLeft right isRight leftMoney rightMoney

theorem RuleReaches.guaranteeHolds (reaches : RuleReaches bundle allowed isolated plan)
    (resolve : namesResolve bundle plan = true)
    (named : member ∈ plan.measures)
    (compiled : compiledMeasure bundle member = some measure)
    (isComponent : component ∈ components bundle measure) {dimension : String}
    (currency : component.currencyDimension = some dimension) {name : String}
    (isName : name ∈ currencyMembers bundle dimension) :
    GuaranteeHolds bundle isolated plan name dimension := by
  intro value guaranteed
  have alike := reaches.readAlike member named measure compiled component
    isComponent dimension currency name isName
  rcases exists_leaf_of_guaranteedSingleEquality guaranteed with ⟨leaf, listed, equal⟩
  rcases alike.texts leaf listed value equal with ⟨arity, rfl⟩
  have filtered := mem_map_of_mem (f := PlanFilter.member) (mem_planFilters.mpr listed)
  have resolves := List.all_eq_true.mp resolve name (mem_append_right _ filtered)
  rcases reads_of_named reaches.distinct isName resolves alike with ⟨source, reads, isSource⟩
  refine ⟨source, reads.resolves, isSource, ?_⟩
  intro Row Key decidable database rows row kept
  exact dimension_of_guaranteedSingleEquality reads guaranteed kept

end Reached

end McpAssistant.BusinessQuery.CurrencyGuarantee
