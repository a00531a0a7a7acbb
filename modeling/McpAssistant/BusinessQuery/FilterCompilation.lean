import McpAssistant.BusinessQuery.Keyset
import McpAssistant.BusinessQuery.PlanBinding

/-!
# Compiling filters

The compiler walks a filter tree before it runs anything, and refuses the plan
at the first leaf it cannot express: a measure among the row filters, a value
the dimension does not allow, a column the scope reserves.
-/

namespace McpAssistant.BusinessQuery.FilterCompilation

open Definitions FilterTree QueryPlan Outcomes Keyset Foundations.Fallible List
open PlanBinding (strip)

/-- What the filter compiler leaves to others: how a value is folded before it
is matched, how a typed predicate and a derived set are lowered, and whether a
period lies inside one calendar bucket. -/
structure CompilerParts where
  normalise : String → String
  lowerAttributePredicate : AttributePredicate → Except Raised Unit
  compileSet : String → Except Raised Unit
  withinOneBucket : BusinessPeriod → TimeGranularity → Bool

section Leaves

variable (parts : CompilerParts) (bundle : DefinitionBundle)

/-- The stored spellings by their folded form; two spellings of one form make
the whole list unusable. -/
def storedByNorm (stored : List String) : Option (List (String × String)) :=
  stored.foldlM (fun byNorm spelled =>
    match byNorm.lookup (parts.normalise spelled) with
    | some prior => if prior = spelled then some byNorm else none
    | none => some ((parts.normalise spelled, spelled) :: byNorm)) []

def canonicalAllowedValues (dimension : DimensionDefinition)
    (values : List FilterValue) : Option (List FilterValue) :=
  if dimension.allowedValues.isEmpty then
    some values
  else
    (storedByNorm parts dimension.allowedValues).bind fun byNorm =>
      values.mapM fun value =>
        (byNorm.lookup (parts.normalise value.pyStr)).map .text

def spelling (member : String) (value : FilterValue) : FilterValue :=
  match resolveMember bundle member with
  | some (_, .dimension dimension) =>
    match canonicalAllowedValues parts dimension [value] with
    | some [canonical] => canonical
    | _ => value
  | _ => value

def reservedColumns (resource : String) : List String :=
  match resourceNamed bundle resource with
  | none => []
  | some binding =>
    binding.scopeColumns.entity.toList ++ binding.scopeColumns.department.toList ++
      binding.recordPredicates.map Prod.fst

def compileDimensionFilter (allowMeasures : Bool)
    (dimension : DimensionDefinition) (leaf : PlanFilter) :
    Except Raised Unit :=
  let isReserved := (reservedColumns bundle dimension.owningResource).contains
    (strip dimension.sqlExpression)
  if leaf.operator.isSet then
    if allowMeasures then
      .error (unexpressible "set_filter_in_having")
    else if isReserved then
      .error denied
    else
      match leaf.setId with
      | some setId => parts.compileSet setId
      | none => .error (unexpressible "filter_arity")
  else if (canonicalAllowedValues parts dimension leaf.values).isNone then
    .error (unexpressible "dimension_allowed_values")
  else if isReserved then
    .error denied
  else
    .ok ()

/-- Lowers one leaf.  `tables` are the resources the statement may read and
`measures` the measures it selects; only a having clause may name these. -/
def compileLeaf (tables measures : List String) (allowMeasures : Bool)
    (leaf : FilterLeaf) : Except Raised Unit :=
  match leaf with
  | .predicate typed =>
    match resolveDetailDefinition bundle typed.familyKey typed.revisionHash with
    | none => .error (refused .memberNotFound)
    | some detail =>
      if tables.contains detail.ownerResource then
        parts.lowerAttributePredicate typed
      else
        .error (refused .noJoinPath)
  | .filter leaf =>
    match resolveMember bundle leaf.member with
    | some (_, .segment segment) =>
      if allowMeasures then
        .error (unexpressible "segment_in_having")
      else if leaf.operator ≠ .eq ∨ leaf.values ≠ [.boolean true] then
        .error (unexpressible "segment_operator")
      else if tables.contains segment.owningResource then
        .ok ()
      else
        .error (refused .noJoinPath)
    | some (_, .measure measure) =>
      if !allowMeasures then
        .error (unexpressible "measure_filter_disallowed")
      else if measure.expressionKind = some .share then
        .error (unexpressible "share_in_having")
      else if measures.contains leaf.member then
        .ok ()
      else
        .error (refused .memberNotFound)
    | some (_, .dimension dimension) =>
      compileDimensionFilter parts bundle allowMeasures dimension leaf
    | some (_, .bucketSet _) => .error (refused .memberNotFound)
    | none => .error (refused .memberNotFound)

/-- The walk reaches the leaves in order and stops at the first refusal. -/
def compileFilterGroup (tables measures : List String) (allowMeasures : Bool)
    (group : Option FilterGroup) : Except Raised Unit :=
  (iterFilterLeaves group).forM (compileLeaf parts bundle tables measures allowMeasures)

def AcceptsValue (tables measures : List String) (member : String) (value : FilterValue) : Prop :=
  compileLeaf parts bundle tables measures false
    (.filter ⟨member, .eq, [value], acceptsValues_single value⟩) = .ok ()

instance (tables measures : List String) (member : String) (value : FilterValue) :
    Decidable (AcceptsValue parts bundle tables measures member value) :=
  inferInstanceAs (Decidable (_ = _))

end Leaves

section Page

variable {parts : CompilerParts} {bundle : DefinitionBundle} {tables measures : List String}
  {kind : CapabilityKind} {leaf : PlanFilter}

theorem compileLeaf_dimension {dimension : DimensionDefinition} {value : FilterValue}
    (resolves : resolveMember bundle leaf.member = some (kind, .dimension dimension))
    (plain : leaf.operator.isSet = false) (single : leaf.values = [value]) :
    compileLeaf parts bundle tables measures false (.filter leaf) = .ok () ↔
      AcceptsValue parts bundle tables measures leaf.member value := by
  rw [AcceptsValue]
  simp only [compileLeaf, resolves, compileDimensionFilter, plain, single]
  rfl

/-- A row filter never names a measure. -/
theorem compileLeaf_measure {measure : MeasureDefinition}
    (resolves : resolveMember bundle leaf.member = some (kind, .measure measure)) :
    compileLeaf parts bundle tables measures false (.filter leaf) ≠ .ok () := by
  simp [compileLeaf, resolves]

theorem compileLeaf_bucketSet {bucket : BucketSetDefinition} {allowMeasures : Bool}
    (resolves : resolveMember bundle leaf.member = some (kind, .bucketSet bucket)) :
    compileLeaf parts bundle tables measures allowMeasures (.filter leaf) ≠ .ok () := by
  simp [compileLeaf, resolves]

theorem leavesOfList_append (first second : List FilterNode) : leavesOfList (first ++ second) =
      leavesOfList first ++ leavesOfList second := by
  induction first with
  | nil => rfl
  | cons node nodes ih =>
    rw [cons_append, leavesOfList, leavesOfList, ih, append_assoc]

def IsEntryLeaf (entries : List KeysetEntry) (leaf : FilterLeaf) : Prop :=
  ∃ entry ∈ entries, ∃ plain : PlanFilter, leaf = .filter plain ∧
    plain.member = entry.1 ∧ plain.operator.isSet = false ∧
    plain.values = [entry.2.2]

theorem isEntryLeaf_beyondFilter {entries : List KeysetEntry}
    {entry : KeysetEntry} (listed : entry ∈ entries) :
    ∀ leaf ∈ (beyondFilter entry).leaves, IsEntryLeaf entries leaf := by
  obtain ⟨member, direction, value⟩ := entry
  intro leaf inLeaves
  cases direction with
  | asc =>
    rw [List.mem_singleton.mp inLeaves]
    exact ⟨_, listed, _, rfl, rfl, rfl, rfl⟩
  | desc =>
    rw [List.mem_singleton.mp inLeaves]
    exact ⟨_, listed, _, rfl, rfl, rfl, rfl⟩

variable {entries : List KeysetEntry} {entry : KeysetEntry}

theorem isEntryLeaf_equalFilter (listed : entry ∈ entries) :
    ∀ leaf ∈ (equalFilter entry).leaves, IsEntryLeaf entries leaf := by
  intro leaf inLeaves
  rw [List.mem_singleton.mp inLeaves]
  exact ⟨_, listed, _, rfl, rfl, rfl, rfl⟩

theorem isEntryLeaf_keysetBranches {all : List KeysetEntry}
    {earlier : List FilterNode} (listed : ∀ entry ∈ entries, entry ∈ all)
    (known : ∀ leaf ∈ leavesOfList earlier, IsEntryLeaf all leaf) :
    ∀ leaf ∈ leavesOfList (keysetBranches earlier entries), IsEntryLeaf all leaf := by
  induction entries generalizing earlier with
  | nil =>
    intro leaf member
    cases member
  | cons entry entries ih =>
    have own := listed entry mem_cons_self
    intro leaf member
    rw [keysetBranches, leavesOfList] at member
    rcases List.mem_append.mp member with branch | later
    · split at branch
      · exact isEntryLeaf_beyondFilter own leaf branch
      · rw [FilterNode.leaves, leavesOfList_append] at branch
        simp only [leavesOfList, append_nil, mem_append] at branch
        rcases branch with equal | beyond
        · exact known leaf equal
        · exact isEntryLeaf_beyondFilter own leaf beyond
    · apply ih (fun other later => listed other (mem_cons_of_mem _ later))
        _ leaf later
      intro other inEarlier
      rw [leavesOfList_append] at inEarlier
      simp only [leavesOfList, append_nil, mem_append] at inEarlier
      rcases inEarlier with equal | own'
      · exact known other equal
      · exact isEntryLeaf_equalFilter own other own'

/-- Every leaf of a page's filter compares an order member with its value. -/
theorem isEntryLeaf_keysetFilter (entries : List KeysetEntry) :
    ∀ leaf ∈ (keysetFilter entries).leaves, IsEntryLeaf entries leaf := by
  match entries with
  | [] =>
    intro leaf member
    cases member
  | [entry] => exact isEntryLeaf_beyondFilter mem_cons_self
  | first :: second :: entries =>
    intro leaf member
    rw [keysetFilter, FilterNode.leaves] at member
    · exact isEntryLeaf_keysetBranches (fun _ => id) (fun _ inNone => by cases inNone) leaf member
    · intro entry single
      cases single

theorem exists_entryLeaf (listed : entry ∈ entries) :
    ∃ leaf ∈ (keysetFilter entries).leaves, IsEntryLeaf [entry] leaf := by
  have branch : ∀ (earlier : List FilterNode) (later : List KeysetEntry), entry ∈ later →
        ∃ leaf ∈ leavesOfList (keysetBranches earlier later), IsEntryLeaf [entry] leaf := by
    intro earlier later member
    induction later generalizing earlier with
    | nil => cases member
    | cons other later ih =>
      rw [keysetBranches, leavesOfList]
      rcases List.mem_cons.mp member with rfl | rest
      · have own := @isEntryLeaf_beyondFilter [entry] entry mem_cons_self
        have isLeaf : ∃ leaf, (beyondFilter entry).leaves = [leaf] := by
          obtain ⟨name, direction, value⟩ := entry
          cases direction with
          | asc => exact ⟨_, rfl⟩
          | desc => exact ⟨_, rfl⟩
        obtain ⟨leaf, leaves⟩ := isLeaf
        have member : leaf ∈ (beyondFilter entry).leaves := by
          rw [leaves]
          exact mem_cons_self
        refine ⟨leaf, mem_append_left _ ?_, own leaf member⟩
        split
        · exact member
        · rw [FilterNode.leaves, leavesOfList_append]
          simp [leavesOfList, member]
      · obtain ⟨leaf, inLater, isLeaf⟩ :=
          ih (earlier ++ [equalFilter other]) rest
        exact ⟨leaf, mem_append_right _ inLater, isLeaf⟩
  match entries, listed with
  | [only], listed =>
    rw [List.mem_singleton.mp listed]
    obtain ⟨name, direction, value⟩ := only
    cases direction with
    | asc =>
      exact ⟨_, mem_cons_self, isEntryLeaf_beyondFilter mem_cons_self _ mem_cons_self⟩
    | desc =>
      exact ⟨_, mem_cons_self, isEntryLeaf_beyondFilter mem_cons_self _ mem_cons_self⟩
  | first :: second :: entries, listed =>
    obtain ⟨leaf, member, isLeaf⟩ := branch [] _ listed
    refine ⟨leaf, ?_, isLeaf⟩
    rw [keysetFilter, FilterNode.leaves]
    · exact mem_append_right _ member
    · intro entry single
      cases single

/-- The combined filters compile exactly when the plan's own filters and the
page's do. -/
theorem compileFilterGroup_combined {filters : Option FilterGroup} {active : List KeysetEntry} :
    compileFilterGroup parts bundle tables measures false
        (combinedFilters filters active) = .ok () ↔
      compileFilterGroup parts bundle tables measures false filters = .ok () ∧
        (active ≠ [] → ∀ leaf ∈ (keysetFilter active).leaves,
          compileLeaf parts bundle tables measures false leaf = .ok ()) := by
  cases active with
  | nil => simp [combinedFilters]
  | cons entry entries =>
    simp only [compileFilterGroup, forM_eq_ok]
    cases filters with
    | none =>
      show (∀ leaf ∈ leavesOfList [keysetFilter (entry :: entries)] ++ [], _) ↔ _
      simp [leavesOfList, iterFilterLeaves]
    | some group =>
      show (∀ leaf ∈ leavesOfList [FilterGroup.node group,
        keysetFilter (entry :: entries)] ++ [], _) ↔ _
      simp only [leavesOfList, append_nil, mem_append, or_imp, forall_and]
      simp [iterFilterLeaves, FilterGroup.node, FilterNode.leaves, FilterGroup.leaves]

end Page

end McpAssistant.BusinessQuery.FilterCompilation
