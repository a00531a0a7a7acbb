import McpAssistant.BusinessQuery.PartsRoundTrip
import McpAssistant.BusinessQuery.PlanValidation

/-!
# Plans read back what they print

Normalization leaves a printed plan as it is: its filters are groups without
empty branches, none of its leaves states a date range, its limit is in range
and its period has one range.  Every field then reads back, and the plan passes
the checks it passed when it was first read.
-/

namespace McpAssistant.BusinessQuery.PlanRoundTrip

open FilterTree QueryPlan FilterJson PlanJson PlanNormalization PlanValidation
  FilterRoundTrip PartsRoundTrip Foundations.JsonReading Foundations.Fallible

theorem normalizeLeaf_dump (leaf : FilterLeaf) :
    normalizeLeaf (dumpFilterLeaf leaf) = .ok (dumpFilterLeaf leaf) := by
  cases leaf with
  | filter leaf =>
    rcases leaf with ⟨member, operator, values, arity⟩
    cases operator <;> rfl
  | predicate typed =>
    rcases typed with ⟨family, revision, operator, values, notSet, arity,
      attributeName, definition, kind, quantifier⟩
    cases operator <;> rfl

theorem normalizeBranches_branchEntries {all any : List Json}
    (allNormal : normalizeFilterNodes all = .ok all)
    (anyNormal : normalizeFilterNodes any = .ok any) :
    normalizeBranches (branchEntries all any) = .ok (branchEntries all any) := by
  have allBranch : normalizeBranch (.list all) = .ok (.list all) := by
    rw [normalizeBranch, allNormal]
    rfl
  have anyBranch : normalizeBranch (.list any) = .ok (.list any) := by
    rw [normalizeBranch, anyNormal]
    rfl
  cases all with
  | nil =>
    cases any with
    | nil => rfl
    | cons item items =>
      show normalizeBranches [("any", .list (item :: items))] = _
      rw [normalizeBranches, if_pos (.inr rfl), anyBranch]
      rfl
  | cons item items =>
    cases any with
    | nil =>
      show normalizeBranches [("all", .list (item :: items))] = _
      rw [normalizeBranches, if_pos (.inl rfl), allBranch]
      rfl
    | cons first rest =>
      show normalizeBranches [("all", .list (item :: items)), ("any", .list (first :: rest))] = _
      rw [normalizeBranches, if_pos (.inl rfl), allBranch, normalizeBranches,
        if_pos (.inr rfl), anyBranch]
      rfl

theorem normalizeFilterNode_branchEntries {all any : List Json}
    (allNormal : normalizeFilterNodes all = .ok all)
    (anyNormal : normalizeFilterNodes any = .ok any) :
    normalizeFilterNode (.dict (branchEntries all any)) = .ok (.dict (branchEntries all any)) := by
  have normal := normalizeBranches_branchEntries allNormal anyNormal
  rw [normalizeFilterNode, normal]
  split
  · rfl
  · cases all with
    | nil =>
      cases any with
      | nil => rfl
      | cons item items => rfl
    | cons item items =>
      cases any with
      | nil => rfl
      | cons first rest => rfl

mutual

theorem normalizeFilterNode_dump : ∀ (node : FilterNode),
    normalizeFilterNode (dumpFilterNode node) = .ok (dumpFilterNode node)
  | .leaf leaf => by
      have noBranch : (hasKey (dumpFilterLeaf leaf) "all" ||
          hasKey (dumpFilterLeaf leaf) "any") = false := by
        cases leaf with
        | filter leaf => rfl
        | predicate typed => rfl
      rw [dumpFilterNode, normalizeFilterNode, noBranch,
        if_neg Bool.false_ne_true, normalizeLeaf_dump]
      rfl
  | .group all any =>
    normalizeFilterNode_branchEntries (normalizeFilterNodes_dump all)
      (normalizeFilterNodes_dump any)

theorem normalizeFilterNodes_dump : ∀ (nodes : List FilterNode),
    normalizeFilterNodes (dumpFilterNodes nodes) = .ok (dumpFilterNodes nodes)
  | [] => rfl
  | node :: nodes => by
      have own := normalizeFilterNode_dump node
      have later := normalizeFilterNodes_dump nodes
      rw [dumpFilterNodes, normalizeFilterNodes, own, later]
      rfl

end

theorem normalizeFilterGroup_dump (group : FilterGroup) :
    normalizeFilterGroup (dumpFilterGroup group) = .ok (dumpFilterGroup group) := by
  rw [dumpFilterGroup, normalizeFilterGroup,
    normalizeBranches_branchEntries (normalizeFilterNodes_dump group.all)
      (normalizeFilterNodes_dump group.any)]
  rfl

theorem nodeAsPeriod_dump (node : FilterNode) : nodeAsPeriod (dumpFilterNode node) = .ok none := by
  cases node with
  | leaf leaf =>
    cases leaf with
    | filter leaf =>
      rcases leaf with ⟨member, operator, values, arity⟩
      cases operator <;> cases values <;> rfl
    | predicate typed =>
      rcases typed with ⟨family, revision, operator, values, notSet, arity,
        attributeName, definition, kind, quantifier⟩
      cases operator <;> cases values <;> rfl
  | group all any =>
    rw [dumpFilterNode]
    cases dumpFilterNodes all with
    | nil =>
      cases dumpFilterNodes any with
      | nil => rfl
      | cons item items => rfl
    | cons item items =>
      cases dumpFilterNodes any with
      | nil => rfl
      | cons first rest => rfl

theorem splitDates_dump (nodes : List FilterNode) :
    splitDates (dumpFilterNodes nodes) = .ok (dumpFilterNodes nodes, []) := by
  induction nodes with
  | nil => rfl
  | cons node nodes ih =>
    rw [dumpFilterNodes, splitDates, nodeAsPeriod_dump, ih]
    rfl

/-- A dictionary that holds a plan's fields as they print. -/
structure StoresPlan (entries : Entries) (node : PlanNode) (sets : List Json) : Prop where
  measures : entries.lookup "measures" = some (.list (node.measures.map .text))
  dimensions : entries.lookup "dimensions" =
    some (.list (node.dimensions.map .text))
  bucketSet : entries.lookup "bucket_set" =
    some (dumpNullable .text node.bucketSet)
  anchor : entries.lookup "anchor" = some (dumpNullable .text node.anchor)
  filters : entries.lookup "filters" =
    some (dumpNullable dumpFilterGroup node.filters)
  having : entries.lookup "having" =
    some (dumpNullable dumpFilterGroup node.having)
  period : entries.lookup "period" = some (dumpNullable dumpPeriod node.period)
  compareTo : entries.lookup "compare_to" = none ∧ node.compareTo = none ∨
    entries.lookup "compare_to" =
      some (dumpNullable dumpCompareTo node.compareTo)
  grain : entries.lookup "grain" = some (.text (grainName node.grain))
  order : entries.lookup "order" = some (.list (node.order.map dumpOrderClause))
  predicates : entries.lookup "attribute_predicates" =
    some (.list (node.attributePredicates.map fun typed =>
      .dict (dumpAttributePredicate typed)))
  selections : entries.lookup "detail_selections" =
    some (.list (node.detailSelections.map dumpDetailSelection))
  limit : entries.lookup "limit" = some (dumpLimit node.limit)
  derivedSets : entries.lookup "derived_sets" = none ∧ sets = [] ∨
    entries.lookup "derived_sets" = some (.list sets)
  closed : ∀ entry ∈ entries, entry.1 ∈ planKeys

/-- What a plan needs to be read back: validation gives all of it. -/
structure NodeReadsBack (instants : InstantReader) (node : PlanNode) : Prop where
  filters : ∀ group, node.filters = some group → filledGroup group = true
  having : ∀ group, node.having = some group → filledGroup group = true
  period : readNullable readPeriod (dumpNullable dumpPeriod node.period) = .ok node.period
  compareTo : readNullable readCompareTo
    (dumpNullable dumpCompareTo node.compareTo) = .ok node.compareTo
  selections : ∀ selection ∈ node.detailSelections,
    readDetailSelection instants (dumpDetailSelection selection) = .ok selection
  limit : 1 ≤ node.limit ∧ node.limit ≤ 50

section Normal

variable {entries : Entries} {key : String} {filters : Option FilterGroup}

theorem normalizeFilterOperators_dump
    (stored : entries.lookup key = some (dumpNullable dumpFilterGroup filters)) :
    normalizeFilterOperators key entries = .ok entries := by
  cases filters with
  | none =>
    unfold normalizeFilterOperators
    rw [stored]
    rfl
  | some group =>
    have group' : normalizeFilterOperators key entries =
        (normalizeFilterGroup (dumpFilterGroup group)).map fun normalized =>
          putKey key normalized entries := by
      unfold normalizeFilterOperators
      rw [stored]
      rfl
    rw [group', normalizeFilterGroup_dump]
    exact congrArg Except.ok (putKey_of_lookup stored)

theorem listAsGroup_dump
    (stored : entries.lookup key = some (dumpNullable dumpFilterGroup filters)) :
    listAsGroup key entries = entries := by
  unfold listAsGroup
  rw [stored]
  cases filters with
  | none => rfl
  | some group => rfl

theorem dropNeutralGroup_dump (filled : ∀ group, filters = some group → filledGroup group = true)
    (stored : entries.lookup key = some (dumpNullable dumpFilterGroup filters)) :
    dropNeutralGroup key entries = entries := by
  unfold dropNeutralGroup
  rw [stored]
  cases filters with
  | none => rfl
  | some group =>
    have kept := (readFilterGroup_dump (filled group rfl)).2
    exact if_neg (by rw [dumpNullable, kept]; exact Bool.false_ne_true)

theorem takeBranch_dump {group : Entries} {nodes : List FilterNode}
    (stored : group.lookup key = none ∧ nodes = [] ∨
      group.lookup key = some (.list (dumpFilterNodes nodes))) :
    takeBranch key group = .ok (group, []) := by
  unfold takeBranch
  rcases stored with ⟨missing, _⟩ | found
  · rw [missing]
  · rw [found]
    show (splitDates (dumpFilterNodes nodes)).map _ = _
    rw [splitDates_dump]
    exact congrArg (fun same => Except.ok (same, [])) (putKey_of_lookup found)

theorem lookup_branchEntries_all {all any : List FilterNode} :
    (branchEntries (dumpFilterNodes all) (dumpFilterNodes any)).lookup "all" =
        none ∧ all = [] ∨
      (branchEntries (dumpFilterNodes all) (dumpFilterNodes any)).lookup "all" =
        some (.list (dumpFilterNodes all)) := by
  cases all with
  | nil =>
    apply Or.inl
    cases any with
    | nil => exact ⟨rfl, rfl⟩
    | cons node nodes => exact ⟨rfl, rfl⟩
  | cons node nodes => exact .inr rfl

theorem lookup_branchEntries_any {all any : List FilterNode} :
    (branchEntries (dumpFilterNodes all) (dumpFilterNodes any)).lookup "any" =
        none ∧ any = [] ∨
      (branchEntries (dumpFilterNodes all) (dumpFilterNodes any)).lookup "any" =
        some (.list (dumpFilterNodes any)) := by
  cases any with
  | nil =>
    apply Or.inl
    cases all with
    | nil => exact ⟨rfl, rfl⟩
    | cons node nodes => exact ⟨rfl, rfl⟩
  | cons node nodes =>
    apply Or.inr
    cases all with
    | nil => rfl
    | cons first rest => rfl

theorem takeDateFilters_dump (stored : entries.lookup "filters" =
      some (dumpNullable dumpFilterGroup filters)) :
    takeDateFilters entries = .ok (entries, none) := by
  unfold takeDateFilters
  rw [stored]
  cases filters with
  | none => rfl
  | some group =>
    show (takeBranch "all" (branchEntries (dumpFilterNodes group.all)
      (dumpFilterNodes group.any)) >>= _) = _
    rw [takeBranch_dump lookup_branchEntries_all]
    show (takeBranch "any" (branchEntries (dumpFilterNodes group.all)
      (dumpFilterNodes group.any)) >>= _) = _
    rw [takeBranch_dump lookup_branchEntries_any]
    rfl

theorem collapsePeriod_dump (period : BusinessPeriod) :
    collapsePeriod (dumpPeriodEntries period) = dumpPeriodEntries period := by
  rcases period with ⟨dimension, range, granularity⟩
  cases range <;> rfl

theorem placePeriod_dump {period : Option BusinessPeriod}
    (stored : entries.lookup "period" = some (dumpNullable dumpPeriod period)) :
    placePeriod none entries = entries := by
  unfold placePeriod
  rw [stored]
  cases period with
  | none => rfl
  | some period =>
    show putKey "period" (.dict (collapsePeriod (dumpPeriodEntries period))) entries = entries
    rw [collapsePeriod_dump]
    exact putKey_of_lookup stored

theorem collapseCompareTo_dump {compareTo : Option CompareTo}
    (stored : entries.lookup "compare_to" = none ∧ compareTo = none ∨
      entries.lookup "compare_to" = some (dumpNullable dumpCompareTo compareTo)) :
    collapseCompareTo entries = entries := by
  unfold collapseCompareTo
  rcases stored with ⟨missing, _⟩ | found
  · rw [missing]
  · rw [found]
    cases compareTo with
    | none => rfl
    | some compareTo =>
      cases compareTo with
      | period period =>
        show putKey "compare_to"
          (.dict (collapsePeriod (dumpPeriodEntries period))) entries = entries
        rw [collapsePeriod_dump]
        exact putKey_of_lookup found
      | previousPeriod => rfl
      | samePeriodLastYear => rfl

theorem clampLimit_dump {limit : Nat} (range : 1 ≤ limit ∧ limit ≤ 50)
    (stored : entries.lookup "limit" = some (dumpLimit limit)) :
    clampLimit entries = entries := by
  have clamped : min maxPlanLimit (max minPlanLimit (limit : Int)) = limit := by
    rw [maxPlanLimit, minPlanLimit]
    omega
  unfold clampLimit
  rw [stored]
  show putKey "limit" (.integer (min maxPlanLimit (max minPlanLimit limit))) entries = entries
  rw [clamped]
  exact putKey_of_lookup stored

end Normal

variable {instants : InstantReader} {entries : Entries} {node : PlanNode}

theorem normalizePeriodAndDateFilters_dump {sets : List Json}
    (back : NodeReadsBack instants node) (stores : StoresPlan entries node sets) :
    normalizePeriodAndDateFilters entries = .ok entries := by
  rw [normalizePeriodAndDateFilters]
  apply bind_eq_ok.mpr
  refine ⟨entries, normalizeFilterOperators_dump stores.filters, ?_⟩
  apply bind_eq_ok.mpr
  refine ⟨entries, normalizeFilterOperators_dump stores.having, ?_⟩
  dsimp only
  rw [clampLimit_dump back.limit stores.limit, listAsGroup_dump stores.filters,
    listAsGroup_dump stores.having,
    dropNeutralGroup_dump back.filters stores.filters,
    dropNeutralGroup_dump back.having stores.having]
  apply bind_eq_ok.mpr
  refine ⟨(entries, none), takeDateFilters_dump stores.filters, ?_⟩
  dsimp only
  rw [Option.isSome_none, if_neg Bool.false_ne_true,
    placePeriod_dump stores.period, collapseCompareTo_dump stores.compareTo]
  rfl

structure NodeRead (instants : InstantReader) (entries : Entries) (node : PlanNode) : Prop where
  measures : readField entries "measures" (some []) (readNullAsEmpty readText) =
    .ok node.measures
  dimensions : readField entries "dimensions" (some [])
    (readNullAsEmpty readText) = .ok node.dimensions
  bucketSet : readField entries "bucket_set" (some none)
    (readNullable (@readText PlanRule)) = .ok node.bucketSet
  anchor : readField entries "anchor" (some none)
    (readNullable (@readText PlanRule)) = .ok node.anchor
  filters : readField entries "filters" (some none)
    (readNullable readFilterGroup) = .ok node.filters
  having : readField entries "having" (some none)
    (readNullable readFilterGroup) = .ok node.having
  period : readField entries "period" (some none) (readNullable readPeriod) =
    .ok node.period
  compareTo : readField entries "compare_to" (some none)
    (readNullable readCompareTo) = .ok node.compareTo
  grain : readField entries "grain" none (@readLiteral PlanRule _ grains) =
    .ok node.grain
  order : readField entries "order" (some [])
    (readNullAsEmpty readOrderClause) = .ok node.order
  predicates : readField entries "attribute_predicates" (some [])
    (readList readTypedPredicate) = .ok node.attributePredicates
  selections : readField entries "detail_selections" (some [])
    (readNullAsEmpty (readDetailSelection instants)) = .ok node.detailSelections
  limit : readField entries "limit" (some 20) readLimit = .ok node.limit

theorem readPlanNode_eq_ok :
    readPlanNode instants entries = .ok node ↔ NodeRead instants entries node := by
  rw [readPlanNode, map_eq_ok]
  constructor
  · rintro ⟨⟨measures, dimensions, bucketSet, anchor, filters, having, period,
      compareTo, grain, order, predicates, selections, limit⟩, parts, same⟩
    cases same
    simp only [both_eq_ok] at parts
    rcases parts with ⟨measures, dimensions, bucketSet, anchor, filters, having,
      period, compareTo, grain, order, predicates, selections, limit⟩
    exact ⟨measures, dimensions, bucketSet, anchor, filters, having, period,
      compareTo, grain, order, predicates, selections, limit⟩
  · intro read
    refine ⟨(node.measures, node.dimensions, node.bucketSet, node.anchor,
      node.filters, node.having, node.period, node.compareTo, node.grain,
      node.order, node.attributePredicates, node.detailSelections, node.limit),
      ?_, rfl⟩
    simp only [both_eq_ok]
    exact ⟨read.measures, read.dimensions, read.bucketSet, read.anchor,
      read.filters, read.having, read.period, read.compareTo, read.grain,
      read.order, read.predicates, read.selections, read.limit⟩

theorem readNullAsEmpty_dump {Value : Type}
    {read : Json → Reading PlanRule Value} {dump : Value → Json}
    {values : List Value}
    (each : ∀ value ∈ values, read (dump value) = .ok value) :
    readNullAsEmpty read (.list (values.map dump)) = .ok values :=
  readEach_map_dump each

variable {filters : Option FilterGroup}

theorem readFilters_dump (filled : ∀ group, filters = some group → filledGroup group = true) :
    readNullable readFilterGroup (dumpNullable dumpFilterGroup filters) = .ok filters := by
  cases filters with
  | none => rfl
  | some group =>
    show (readFilterGroup (dumpFilterGroup group)).map some = _
    rw [(readFilterGroup_dump (filled group rfl)).1]
    rfl

theorem readLimit_dump {limit : Nat} (range : 1 ≤ limit ∧ limit ≤ 50) :
    readLimit (dumpLimit limit) = .ok limit := by
  have inRange : minPlanLimit ≤ (limit : Int) ∧ (limit : Int) ≤ maxPlanLimit := by
    rw [minPlanLimit, maxPlanLimit]
    omega
  show (if minPlanLimit ≤ (limit : Int) ∧ (limit : Int) ≤ maxPlanLimit then
    Except.ok (limit : Int).toNat else refuse (.broken PlanRule.limitRange)) = .ok limit
  rw [if_pos inRange, Int.toNat_natCast]

theorem nodeRead_of_stores {sets : List Json} (back : NodeReadsBack instants node)
    (stores : StoresPlan entries node sets) : NodeRead instants entries node where
  measures := (readField_of_lookup stores.measures).trans (readNullAsEmpty_dump fun _ _ => rfl)
  dimensions := (readField_of_lookup stores.dimensions).trans (readNullAsEmpty_dump fun _ _ => rfl)
  bucketSet := (readField_of_lookup stores.bucketSet).trans (readNullableText_dump node.bucketSet)
  anchor := (readField_of_lookup stores.anchor).trans (readNullableText_dump node.anchor)
  filters := (readField_of_lookup stores.filters).trans (readFilters_dump back.filters)
  having := (readField_of_lookup stores.having).trans (readFilters_dump back.having)
  period := (readField_of_lookup stores.period).trans back.period
  compareTo := by
    rcases stores.compareTo with ⟨missing, none⟩ | found
    · rw [none]
      exact readField_of_lookup_none missing
    · exact (readField_of_lookup found).trans back.compareTo
  grain := (readField_of_lookup stores.grain).trans (readGrain_dump node.grain)
  order := (readField_of_lookup stores.order).trans
    (readNullAsEmpty_dump fun clause _ => readOrderClause_dump clause)
  predicates := (readField_of_lookup stores.predicates).trans
    (readEach_map_dump fun typed _ => readAttributePredicate_dump typed)
  selections := (readField_of_lookup stores.selections).trans (readNullAsEmpty_dump back.selections)
  limit := (readField_of_lookup stores.limit).trans (readLimit_dump back.limit)

/-- Normalized filters are no neutral group. -/
def KeepsGroup (entries : Entries) (key : String) : Prop :=
  ∀ group, entries.lookup key = some group → isNeutralGroupNode group = false

section Kept

variable {entries : Entries} {key other : String}

theorem keepsGroup_dropNeutralGroup : KeepsGroup (dropNeutralGroup key entries) key := by
  intro group found
  unfold dropNeutralGroup at found
  cases held : entries.lookup key with
  | none =>
    rw [held] at found
    dsimp only at found
    rw [held] at found
    cases found
  | some value =>
    rw [held] at found
    dsimp only at found
    cases neutral : isNeutralGroupNode value with
    | true =>
      rw [neutral, if_pos rfl, lookup_putKey_self] at found
      cases found
      rfl
    | false =>
      rw [neutral, if_neg Bool.false_ne_true, held] at found
      cases found
      exact neutral

theorem lookup_dropNeutralGroup (apart : other ≠ key) :
    (dropNeutralGroup key entries).lookup other = entries.lookup other := by
  unfold dropNeutralGroup
  split
  · split
    · exact lookup_putKey_of_ne apart
    · rfl
  · rfl

theorem lookup_placePeriod (lifted : Option Entries) (apart : other ≠ "period") :
    (placePeriod lifted entries).lookup other = entries.lookup other := by
  unfold placePeriod
  split
  · exact lookup_putKey_of_ne apart
  · exact lookup_putKey_of_ne apart
  · exact lookup_putKey_of_ne apart
  · rfl

theorem lookup_collapseCompareTo (apart : other ≠ "compare_to") :
    (collapseCompareTo entries).lookup other = entries.lookup other := by
  unfold collapseCompareTo
  split
  · exact lookup_putKey_of_ne apart
  · rfl

end Kept

theorem takeDateFilters_eq_ok {cleaned : Entries} {lifted : Option Entries}
    (taken : takeDateFilters entries = .ok (cleaned, lifted)) :
    lifted = none ∧ cleaned = entries ∨ lifted.isSome = true ∧
        ∃ group, cleaned = putKey "filters" (.dict group) entries := by
  unfold takeDateFilters at taken
  split at taken
  · rcases bind_eq_ok.mp taken with ⟨conjuncts, _, rest⟩
    rcases bind_eq_ok.mp rest with ⟨alternatives, _, result⟩
    dsimp only at result
    split at result
    · cases result
      exact .inl ⟨rfl, rfl⟩
    · cases result
      exact .inr ⟨rfl, alternatives.1, rfl⟩
  · cases taken
    exact .inl ⟨rfl, rfl⟩

theorem keepsGroup_of_normalize {raw : Entries}
    (normal : normalizePeriodAndDateFilters raw = .ok entries) :
    KeepsGroup entries "filters" ∧ KeepsGroup entries "having" := by
  rcases bind_eq_ok.mp normal with ⟨first, _, rest⟩
  rcases bind_eq_ok.mp rest with ⟨second, _, rest⟩
  rcases bind_eq_ok.mp rest with ⟨⟨cleaned, lifted⟩, taken, result⟩
  have having : KeepsGroup (dropNeutralGroup "having" (dropNeutralGroup "filters"
      (listAsGroup "having" (listAsGroup "filters" (clampLimit second)))))
      "having" := keepsGroup_dropNeutralGroup
  have filters : KeepsGroup (dropNeutralGroup "having" (dropNeutralGroup
      "filters" (listAsGroup "having" (listAsGroup "filters" (clampLimit second))))) "filters" := by
    intro group found
    rw [lookup_dropNeutralGroup (by decide)] at found
    exact keepsGroup_dropNeutralGroup group found
  generalize dropNeutralGroup "having" (dropNeutralGroup "filters"
    (listAsGroup "having" (listAsGroup "filters" (clampLimit second)))) = dropped at *
  dsimp only at result
  cases result
  constructor
  · intro group found
    rw [lookup_collapseCompareTo (by decide), lookup_placePeriod _ (by decide)] at found
    split at found
    · exact keepsGroup_dropNeutralGroup group found
    · rename_i notLifted
      rcases takeDateFilters_eq_ok taken with ⟨_, rfl⟩ | ⟨isLifted, _⟩
      · exact filters group found
      · exact absurd isLifted notLifted
  · intro group found
    rw [lookup_collapseCompareTo (by decide), lookup_placePeriod _ (by decide)] at found
    rcases takeDateFilters_eq_ok taken with ⟨rfl, rfl⟩ | ⟨isLifted, _, rfl⟩
    · exact having group found
    · rw [if_pos isLifted, lookup_dropNeutralGroup (by decide),
        lookup_putKey_of_ne (by decide)] at found
      exact having group found

theorem filled_of_readField {key : String} (keeps : KeepsGroup entries key)
    (read : readField entries key (some none) (readNullable readFilterGroup) = .ok filters) :
    ∀ group, filters = some group → filledGroup group = true := by
  rintro group rfl
  cases found : entries.lookup key with
  | none =>
    rw [readField_of_lookup_none found] at read
    cases read
  | some json =>
    rw [readField_of_lookup found] at read
    exact filledGroup_of_read (keeps json found) (read_of_readNullable read)

theorem limit_of_readField {limit : Nat}
    (read : readField entries "limit" (some 20) readLimit = .ok limit) :
    1 ≤ limit ∧ limit ≤ 50 := by
  cases found : entries.lookup "limit" with
  | none =>
    rw [readField_of_lookup_none found] at read
    cases read
    decide
  | some json =>
    rw [readField_of_lookup found] at read
    unfold readLimit at read
    split at read
    · cases read
      decide
    · split at read
      · rename_i range
        rw [minPlanLimit, maxPlanLimit] at range
        cases read
        omega
      · cases read
    · cases read

theorem selections_of_readField {selections : List DetailSelection}
    (read : readField entries "detail_selections" (some [])
      (readNullAsEmpty (readDetailSelection instants)) = .ok selections) :
    ∀ selection ∈ selections, readDetailSelection instants (dumpDetailSelection selection) =
        .ok selection := by
  intro selection listed
  cases found : entries.lookup "detail_selections" with
  | none =>
    rw [readField_of_lookup_none found] at read
    cases read
    cases listed
  | some json =>
    rw [readField_of_lookup found] at read
    cases json with
    | null =>
      cases read
      cases listed
    | list items =>
      rcases exists_read_of_mem_readEach read listed with ⟨item, _, own⟩
      exact rereads_selection item selection own
    | _ => cases read

theorem nodeReadsBack_of_read (filters : KeepsGroup entries "filters")
    (having : KeepsGroup entries "having")
    (read : NodeRead instants entries node) : NodeReadsBack instants node where
  filters := filled_of_readField filters read.filters
  having := filled_of_readField having read.having
  period := rereads_period.nullValue (fun _ => Json.noConfusion) read.period
  compareTo := by
    apply rereads_compareTo.nullValue _ read.compareTo
    intro compareTo
    cases compareTo with
    | _ => exact Json.noConfusion
  selections := selections_of_readField read.selections
  limit := limit_of_readField read.limit

end McpAssistant.BusinessQuery.PlanRoundTrip
