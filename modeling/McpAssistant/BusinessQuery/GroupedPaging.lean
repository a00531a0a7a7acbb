import McpAssistant.BusinessQuery.GroupedStatement
import Mathlib.Algebra.Ring.Int.Defs

/-!
# Paging grouped plans

The position of a page filters source rows, before they are grouped.  A run of
pages shows every group once, with all of its rows, when at every boundary the
order names projected dimensions the row filters accept, and no group held back
ties with the last one shown.
-/

namespace McpAssistant.BusinessQuery.GroupedPaging

open Definitions QueryPlan Outcomes FilterEvaluation Keyset KeysetEvaluation
  FilterCompilation GroupedStatement Foundations.KeysetPaging
  Foundations.Grouping List

structure PagePosition (plan : BusinessQueryPlan) (bundle : DefinitionBundle)
    where
  entries : KeysetPosition
  columns : ∀ entry ∈ entries, entry.1 ∈ answerColumns (pageShape plan.toPlanNode bundle)

/-- The position before the first row. -/
def firstPosition (plan : BusinessQueryPlan) (bundle : DefinitionBundle) :
    PagePosition plan bundle where
  entries := []
  columns := fun _ member => by cases member

section Paging

variable {Row Key : Type} [LinearOrder Key] (parts : CompilerParts)
  (bundle : DefinitionBundle) (tables : List String)
  (database : SourceDatabase Row Key) (plan : BusinessQueryPlan)

def pageColumns : List (Column (List Row) Key) :=
  orderColumns (groupDatabase parts database plan.toPlanNode)
    (pageShape plan.toPlanNode bundle).order

def nextPosition (last : List Row) : PagePosition plan bundle where
  entries := nextKeyset (pageShape plan.toPlanNode bundle)
    (groupValue parts database plan.toPlanNode last)
  columns := fun _ => mem_answerColumns_of_mem_nextKeyset

/-- What a page may answer, before its limit: nothing when the compiler refuses
it, else the groups of its statement in the page's order. -/
def PageAnswer (pageSize : Nat) (table : List Row)
    (position : PagePosition plan bundle) (answer : List (List Row)) : Prop :=
  ∃ page, applyKeysetToPlan plan bundle position.entries pageSize = .ok page ∧
    compileGrouped parts bundle tables page.toPlanNode = .ok () ∧
    answer.Perm (answerGroups parts bundle database page.toPlanNode table) ∧
    answer.Pairwise fun first second =>
      ¬Precedes (orderColumns (groupDatabase parts database page.toPlanNode)
        page.order) second first

/-- A boundary the next position can tell: each order member is a projected
dimension, a row filter accepts its value in the last group shown and compares
with it as the column sorts, and no group held back ties with that group. -/
structure CleanBoundary (last : List Row) (held : List (List Row)) : Prop where
  projected : ∀ clause ∈ (pageShape plan.toPlanNode bundle).order, clause.member ∈ plan.dimensions
  accepted : ∀ clause ∈ (pageShape plan.toPlanNode bundle).order, ∀ value,
    groupValue parts database plan.toPlanNode last clause.member = some value →
      AcceptsValue parts bundle tables plan.measures clause.member value ∧
        database.rank clause.member (spelling parts bundle clause.member value) =
          database.rank clause.member value
  apart : ∀ group ∈ held, ¬Ties (pageColumns parts bundle database plan) last group

/-- The entries a position's filter compares with. -/
def activeEntries (position : PagePosition plan bundle) : List KeysetEntry :=
  activeKeyset ((pageShape plan.toPlanNode bundle).order.map orderItem) position.entries

/-- The source rows a position leaves in the statement. -/
def RowSelected (position : PagePosition plan bundle) (row : Row) : Prop :=
  Passes (rowDatabase parts database plan.toPlanNode) (spelling parts bundle)
    (combinedFilters none (activeEntries bundle plan position)) row

instance (position : PagePosition plan bundle) :
    DecidablePred (RowSelected parts bundle database plan position) :=
  fun _ => inferInstanceAs (Decidable (Passes _ _ _ _))

/-- The groups a position leaves in the answer: those it leaves a row of. -/
def Selected (position : PagePosition plan bundle) (group : List Row) : Prop :=
  ∃ row ∈ group, RowSelected parts bundle database plan position row

instance (position : PagePosition plan bundle) :
    DecidablePred (Selected parts bundle database plan position) :=
  fun _ => inferInstanceAs (Decidable (∃ row ∈ _, _))

/-- The plan's node as a page after a position runs it. -/
def pageNode (position : PagePosition plan bundle) (pageSize : Nat) : PlanNode :=
  { plan.toPlanNode with
    order := (pageShape plan.toPlanNode bundle).order
    filters := combinedFilters plan.filters (activeEntries bundle plan position)
    limit := pageSize }

end Paging

section Shape

variable {parts : CompilerParts} {bundle : DefinitionBundle}
  {tables : List String} {plan : BusinessQueryPlan}
  {position : PagePosition plan bundle} {pageSize : Nat}

theorem dimensions_keysetShape {node : PlanNode} (grouped : node.grain = .grouped) :
    (keysetShape node bundle).1 = node.dimensions := by
  rw [keysetShape, grouped]
  dsimp only
  split
  · rfl
  · rfl

variable (grouped : plan.grain = .grouped)
include grouped

/-- A page of a grouped plan changes its order, its filters and its limit. -/
theorem toPlanNode_eq_pageNode {page : BusinessQueryPlan}
    (applied : applyKeysetToPlan plan bundle position.entries pageSize = .ok page) :
    page.toPlanNode = pageNode bundle plan position pageSize := by
  have notScalar : plan.grain ≠ .scalar := by
    rw [grouped]
    exact nofun
  rw [applyKeysetToPlan_eq_ok notScalar applied, pageNode, activeEntries]
  have dimensions : (pageShape plan.toPlanNode bundle).dimensions =
      plan.dimensions := dimensions_keysetShape grouped
  have shape : pageShape plan.toPlanNode bundle =
      { plan.toPlanNode with
        dimensions := (pageShape plan.toPlanNode bundle).dimensions
        order := (pageShape plan.toPlanNode bundle).order } := rfl
  rw [dimensions] at shape
  rw [shape]

theorem mem_order_pageShape {clause : OrderClause}
    (member : clause ∈ (pageShape plan.toPlanNode bundle).order) :
    clause ∈ plan.order ∨ clause.member ∈ plan.dimensions ∨
      plan.bucketSet = some clause.member := by
  obtain ⟨item, listed, rfl⟩ := List.mem_map.mp member
  rw [grouped] at listed
  dsimp only at listed
  split at listed
  · apply Or.inr
    rcases List.mem_append.mp listed with dimension | bucket
    · obtain ⟨name, named, rfl⟩ := List.mem_map.mp dimension
      exact .inl named
    · obtain ⟨name, named, rfl⟩ := List.mem_map.mp bucket
      exact .inr (Option.mem_toList.mp (List.mem_filter.mp named).1)
  · obtain ⟨clause, own, rfl⟩ := List.mem_map.mp listed
    exact .inl own

theorem compiles_pageNode (compiled : GroupedCompiles parts bundle tables plan.toPlanNode)
    (filters : compileFilterGroup parts bundle tables plan.measures false
      (combinedFilters plan.filters (activeEntries bundle plan position)) = .ok ()) :
    GroupedCompiles parts bundle tables (pageNode bundle plan position pageSize) := by
  constructor
  · exact compiled.measures
  · exact compiled.bucketed
  · exact compiled.dimensions
  · exact compiled.bucketSets
  · exact filters
  · exact compiled.having
  · intro clause member
    show compileOrderClause bundle tables plan.toPlanNode clause = .ok ()
    rcases mem_order_pageShape grouped member with own | dimension | bucket
    · exact compiled.order clause own
    · apply if_pos
      simp [dimension]
    · apply if_pos
      simp [bucket]

theorem active_projected (compiled : GroupedCompiles parts bundle tables plan.toPlanNode)
    (filters : compileFilterGroup parts bundle tables plan.measures false
      (combinedFilters plan.filters (activeEntries bundle plan position)) = .ok ()) :
    ∀ entry ∈ activeEntries bundle plan position, entry.1 ∈ plan.dimensions := by
  intro entry active
  have column := position.columns _ (mem_activeKeyset active).2
  have leaves := (compileFilterGroup_combined.mp filters).2 (ne_nil_of_mem active)
  obtain ⟨leaf, inFilter, own, isOwn, plain, rfl, sameMember, -⟩ := exists_entryLeaf active
  rw [List.mem_singleton.mp isOwn] at sameMember
  have lowered := leaves _ inFilter
  have columns : answerColumns (pageShape plan.toPlanNode bundle) =
      plan.measures ++ plan.dimensions ++ plan.bucketSet.toList := by
    have dimensions : (pageShape plan.toPlanNode bundle).dimensions =
        plan.dimensions := dimensions_keysetShape grouped
    have grain : (pageShape plan.toPlanNode bundle).grain = .grouped := grouped
    rw [answerColumns, grain]
    dsimp only
    rw [dimensions]
    rfl
  rw [columns, mem_append, mem_append] at column
  rcases column with (measure | dimension) | bucket
  · obtain ⟨_, _, resolves⟩ :=
      resolves_measure (compiled.measures _ measure)
    exact absurd lowered (compileLeaf_measure (sameMember ▸ resolves))
  · exact dimension
  · obtain ⟨_, _, resolves⟩ :=
      resolves_bucketSet (compiled.bucketSets _ bucket)
    exact absurd lowered (compileLeaf_bucketSet (sameMember ▸ resolves))

end Shape

section Exact

variable {Row Key : Type} [LinearOrder Key] {parts : CompilerParts}
  {bundle : DefinitionBundle} {tables : List String}
  {database : SourceDatabase Row Key} {plan : BusinessQueryPlan}
  {position : PagePosition plan bundle} {pageSize : Nat} {table : List Row}

theorem rowSelected_congr (projected : ∀ entry ∈ activeEntries bundle plan position,
      entry.1 ∈ plan.dimensions) {first second : Row}
    (same : groupKey parts database plan.toPlanNode first =
      groupKey parts database plan.toPlanNode second) :
    RowSelected parts bundle database plan position first ↔
      RowSelected parts bundle database plan position second := by
  have reads : ∀ entry ∈ (activeEntries bundle plan position).map
      (entryPosition (rowDatabase parts database plan.toPlanNode) (spelling parts bundle)),
      entry.1.read first = entry.1.read second := by
    intro entry member
    obtain ⟨own, active, rfl⟩ := List.mem_map.mp member
    exact read_eq_of_groupKey same (projected own active)
  rw [RowSelected, RowSelected, Passes, Passes, combinedFilters_eq_true,
    combinedFilters_eq_true, entryReached_iff, entryReached_iff,
    reaches_congr reads]
  rfl

theorem answerGroups_pageNode_perm (projected : ∀ entry ∈ activeEntries bundle plan position,
      entry.1 ∈ plan.dimensions) :
    (answerGroups parts bundle database (pageNode bundle plan position pageSize) table).Perm
      ((answerGroups parts bundle database plan.toPlanNode table).filter fun group =>
          decide (Selected parts bundle database plan position group)) := by
  let selected := fun row =>
    decide (RowSelected parts bundle database plan position row)
  let kept := table.filter fun row =>
    decide (Passes (rowDatabase parts database plan.toPlanNode)
      (spelling parts bundle) plan.filters row)
  have rows : (table.filter fun row =>
      decide (Passes (rowDatabase parts database (pageNode bundle plan position pageSize))
        (spelling parts bundle)
        (pageNode bundle plan position pageSize).filters row)) =
      kept.filter selected := by
    rw [filter_filter]
    apply filter_congr
    intro row _
    show decide (Passes (rowDatabase parts database plan.toPlanNode) (spelling parts bundle)
      (combinedFilters plan.filters (activeEntries bundle plan position))
      row) = _
    rw [Bool.eq_iff_iff, Bool.and_eq_true, decide_eq_true_eq,
      decide_eq_true_eq, decide_eq_true_eq, RowSelected, Passes, Passes, Passes,
      combinedFilters_eq_true, combinedFilters_eq_true]
    simp [filtersTruth, and_comm]
  have whole : (groupsBy (groupKey parts database plan.toPlanNode) (kept.filter selected)).Perm
      ((groupsBy (groupKey parts database plan.toPlanNode) kept).filter
        fun group => group.any selected) := by
    apply groupsBy_filter_perm
    intro first second same
    rw [Bool.eq_iff_iff, decide_eq_true_eq, decide_eq_true_eq]
    exact rowSelected_congr projected same
  show List.Perm ((groupsBy (groupKey parts database plan.toPlanNode) (table.filter _)).filter _) _
  rw [rows]
  apply (whole.filter _).trans
  rw [filter_comm]
  apply List.Perm.of_eq
  apply filter_congr
  intro group _
  rw [Bool.eq_iff_iff, any_eq_true, decide_eq_true_eq, Selected]
  simp [selected]

theorem selecting (grouped : plan.grain = .grouped)
    (compiled : GroupedCompiles parts bundle tables plan.toPlanNode) :
    Selecting (PageAnswer parts bundle tables database plan pageSize table)
      (Selected parts bundle database plan)
      (Precedes (pageColumns parts bundle database plan))
      (answerGroups parts bundle database plan.toPlanNode table) := by
  constructor
  · rintro position answer ⟨page, applied, pageCompiles, perm, -⟩
    rw [toPlanNode_eq_pageNode grouped applied] at pageCompiles perm
    have projected := active_projected grouped compiled
      (compileGrouped_eq_ok.mp pageCompiles).filters
    exact exists_dropped (perm.trans (answerGroups_pageNode_perm projected))
  · rintro position answer ⟨page, applied, -, -, ordered⟩
    rw [toPlanNode_eq_pageNode grouped applied] at ordered
    exact ordered
  · exact not_precedes_self _

theorem exists_pageAnswer (grouped : plan.grain = .grouped)
    (pageable : planIsPageable plan.toPlanNode bundle = true)
    (compiled : GroupedCompiles parts bundle tables plan.toPlanNode)
    (filters : compileFilterGroup parts bundle tables plan.measures false
      (combinedFilters plan.filters (activeEntries bundle plan position)) = .ok ()) :
    ∃ answer, PageAnswer parts bundle tables database plan pageSize table position answer := by
  obtain ⟨page, applied⟩ := applyKeysetToPlan_isOk pageable position.entries pageSize
  obtain ⟨answer, perm, ordered⟩ := exists_ordered
    (orderColumns (groupDatabase parts database page.toPlanNode) page.order)
    (answerGroups parts bundle database page.toPlanNode table)
  refine ⟨answer, page, applied, ?_, perm, ordered⟩
  rw [toPlanNode_eq_pageNode grouped applied]
  exact compileGrouped_eq_ok.mpr (compiles_pageNode grouped compiled filters)

theorem precedes_groups_iff (compiled : GroupedCompiles parts bundle tables plan.toPlanNode)
    (projected : ∀ clause ∈ (pageShape plan.toPlanNode bundle).order,
      clause.member ∈ plan.dimensions) {first second : List Row}
    {firstHead secondHead : Row}
    (firstHeads : IsGroupHead parts database plan.toPlanNode table first firstHead)
    (secondHeads : IsGroupHead parts database plan.toPlanNode table second secondHead) :
    Precedes (pageColumns parts bundle database plan) first second ↔
      Precedes (orderColumns (rowDatabase parts database plan.toPlanNode)
        (pageShape plan.toPlanNode bundle).order) firstHead secondHead := by
  apply precedes_map_congr
  intro clause member
  have notMeasure := compiled.not_measure (projected clause member)
  refine ⟨rfl, ?_, ?_⟩
  · exact firstHeads.read_eq notMeasure
  · exact secondHeads.read_eq notMeasure

variable {last : List Row}

omit [LinearOrder Key] in
theorem entries_nextPosition (grouped : plan.grain = .grouped)
    (compiled : GroupedCompiles parts bundle tables plan.toPlanNode)
    (projected : ∀ clause ∈ (pageShape plan.toPlanNode bundle).order,
      clause.member ∈ plan.dimensions) {head : Row}
    (heads : IsGroupHead parts database plan.toPlanNode table last head) :
    (nextPosition parts bundle database plan last).entries =
      nextKeyset (pageShape plan.toPlanNode bundle)
        (dimensionProjection parts database plan.toPlanNode head) := by
  have dimensions : (pageShape plan.toPlanNode bundle).dimensions =
      plan.dimensions := dimensions_keysetShape grouped
  apply map_congr_left
  intro member kept
  have isDimension : member ∈ plan.dimensions := by
    rcases List.mem_append.mp (List.mem_filter.mp kept).1 with ordered | own
    · obtain ⟨clause, listed, rfl⟩ := List.mem_map.mp ordered
      exact projected clause listed
    · exact dimensions ▸ own
  rw [heads.reads member (compiled.not_measure isDimension)]

variable {held : List (List Row)}

theorem selected_nextPosition_iff (grouped : plan.grain = .grouped)
    (compiled : GroupedCompiles parts bundle tables plan.toPlanNode)
    (known : ∀ row ∈ table, ∀ member ∈ groupMembers plan.toPlanNode,
      dimensionProjection parts database plan.toPlanNode row member ≠ none)
    (boundary : Boundary (Precedes (pageColumns parts bundle database plan))
      (answerGroups parts bundle database plan.toPlanNode table) last held)
    (clean : CleanBoundary parts bundle tables database plan last held)
    {group : List Row}
    (member : group ∈ answerGroups parts bundle database plan.toPlanNode table) :
    Selected parts bundle database plan (nextPosition parts bundle database plan last) group ↔
      Precedes (pageColumns parts bundle database plan) last group := by
  obtain ⟨lastHead, lastHeads⟩ := exists_groupHead boundary.lastIn
  obtain ⟨head, heads⟩ := exists_groupHead member
  have valued : ∀ clause ∈ (pageShape plan.toPlanNode bundle).order,
      ∀ row ∈ table, dimensionProjection parts database plan.toPlanNode row
        clause.member ≠ none := by
    intro clause listed row inTable
    apply known row inTable
    apply mem_append_left
    exact mem_append_left _ (clean.projected clause listed)
  have complete : Complete (rowDatabase parts database plan.toPlanNode)
      (spelling parts bundle) (pageShape plan.toPlanNode bundle) lastHead := by
    constructor
    · intro clause listed
      have dimensions : (pageShape plan.toPlanNode bundle).dimensions =
          plan.dimensions := dimensions_keysetShape grouped
      have grain : (pageShape plan.toPlanNode bundle).grain = .grouped := grouped
      rw [answerColumns, grain]
      dsimp only
      rw [dimensions]
      apply mem_append_left
      exact mem_append_right _ (clean.projected clause listed)
    · intro clause listed
      obtain ⟨value, isValue⟩ := Option.ne_none_iff_exists'.mp
        (valued clause listed lastHead lastHeads.inTable)
      have shown : groupValue parts database plan.toPlanNode last clause.member = some value := by
        rw [lastHeads.reads _ (compiled.not_measure (clean.projected clause listed)), isValue]
      exact ⟨value, isValue, (clean.accepted clause listed value shown).2⟩
  have ordered : (pageShape plan.toPlanNode bundle).order ≠ [] := by
    intro empty
    obtain ⟨other, inHeld⟩ := exists_mem_of_ne_nil held boundary.heldBack
    apply clean.apart other inHeld
    rw [pageColumns, empty]
    intro column inEmpty
    cases inEmpty
  have entriesProjected : ∀ entry ∈ activeEntries bundle plan
      (nextPosition parts bundle database plan last),
      entry.1 ∈ plan.dimensions := by
    intro entry active
    obtain ⟨clause, listed, equal⟩ := List.mem_map.mp (mem_activeKeyset active).1
    have sameMember : clause.member = entry.1 := congrArg Prod.fst equal
    exact sameMember ▸ clean.projected clause listed
  have byHead : Selected parts bundle database plan
        (nextPosition parts bundle database plan last) group ↔
      RowSelected parts bundle database plan
        (nextPosition parts bundle database plan last) head := by
    constructor
    · rintro ⟨row, inGroup, selected⟩
      exact (rowSelected_congr entriesProjected (heads.sameKey row inGroup)).mp selected
    · intro selected
      exact ⟨head, mem_of_mem_head? heads.isHead, selected⟩
  have noNull : ¬FirstDiffersByNull (orderColumns (rowDatabase parts database plan.toPlanNode)
        (pageShape plan.toPlanNode bundle).order) lastHead head := by
    apply not_firstDiffersByNull
    intro column inOrder
    obtain ⟨clause, listed, rfl⟩ := List.mem_map.mp inOrder
    rw [Ne, read_eq_bot]
    exact valued clause listed head heads.inTable
  rw [byHead, precedes_groups_iff compiled clean.projected lastHeads heads,
    RowSelected, activeEntries,
    entries_nextPosition grouped compiled clean.projected lastHeads]
  have next := @passes_next_iff _ _ _ _ _ _ none _ complete ordered head
  rw [show nextKeyset (pageShape plan.toPlanNode bundle)
    (dimensionProjection parts database plan.toPlanNode lastHead) =
      nextKeyset (pageShape plan.toPlanNode bundle)
        ((rowDatabase parts database plan.toPlanNode).value lastHead) from rfl,
    next]
  constructor
  · rintro ⟨-, precedes, -⟩
    exact precedes
  · intro precedes
    exact ⟨rfl, precedes, noNull⟩

theorem splits_of_cleanBoundary (grouped : plan.grain = .grouped)
    (pageable : planIsPageable plan.toPlanNode bundle = true)
    (compiled : GroupedCompiles parts bundle tables plan.toPlanNode)
    (known : ∀ row ∈ table, ∀ member ∈ groupMembers plan.toPlanNode,
      dimensionProjection parts database plan.toPlanNode row member ≠ none)
    (boundary : Boundary (Precedes (pageColumns parts bundle database plan))
      (answerGroups parts bundle database plan.toPlanNode table) last held)
    (clean : CleanBoundary parts bundle tables database plan last held) :
    Splits (PageAnswer parts bundle tables database plan pageSize table)
      (Selected parts bundle database plan)
      (Precedes (pageColumns parts bundle database plan))
      (nextPosition parts bundle database plan)
      (answerGroups parts bundle database plan.toPlanNode table) last held := by
  constructor
  · apply exists_pageAnswer grouped pageable compiled
    apply compileFilterGroup_combined.mpr
    refine ⟨compiled.filters, ?_⟩
    intro _ leaf inFilter
    obtain ⟨entry, active, plain, rfl, sameMember, notSet, single⟩ :=
      isEntryLeaf_keysetFilter _ leaf inFilter
    obtain ⟨inItems, inPosition⟩ := mem_activeKeyset active
    obtain ⟨clause, listed, equal⟩ := List.mem_map.mp inItems
    have clauseMember : clause.member = entry.1 := congrArg Prod.fst equal
    have projected := clean.projected clause listed
    obtain ⟨name, -, shown⟩ := List.mem_map.mp inPosition
    have sameName : name = entry.1 := congrArg Prod.fst shown
    have isValue : groupValue parts database plan.toPlanNode last
        clause.member = some entry.2.2 := by
      rw [clauseMember, ← sameName]
      exact congrArg Prod.snd shown
    obtain ⟨_, _, resolves⟩ := resolves_dimension (compiled.dimensions _ projected)
    rw [clauseMember, ← sameMember] at resolves
    rw [compileLeaf_dimension resolves notSet single, sameMember, ← clauseMember]
    exact (clean.accepted clause listed _ isValue).1
  · intro group inHeld
    rw [selected_nextPosition_iff grouped compiled known boundary clean
      (boundary.heldIn group inHeld)]
    rcases precedes_or_ties_or_precedes (pageColumns parts bundle database plan)
      last group with precedes | tie | follows
    · exact precedes
    · exact absurd tie (clean.apart group inHeld)
    · exact absurd follows (boundary.after group inHeld)
  · intro group member notAfter selected
    exact notAfter ((selected_nextPosition_iff grouped compiled known boundary
      clean member).mp selected)

/-- In a run of pages whose boundaries are all clean, the pages join up to all
the groups of the whole answer, each once and with all of its rows, in the page
order. -/
theorem grouped_pages_exact (grouped : plan.grain = .grouped)
    (pageable : planIsPageable plan.toPlanNode bundle = true)
    (accepted : compileGrouped parts bundle tables plan.toPlanNode = .ok ())
    (known : ∀ row ∈ table, ∀ member ∈ groupMembers plan.toPlanNode,
      dimensionProjection parts database plan.toPlanNode row member ≠ none)
    (sizePositive : 0 < pageSize) {steps : List (PageStep (List Row))}
    (run : Chain (PageAnswer parts bundle tables database plan pageSize table)
      (nextPosition parts bundle database plan) pageSize
      (answerGroups parts bundle database plan.toPlanNode table).length
      (firstPosition plan bundle) 0 steps)
    (boundaries : AllBoundaries (CleanBoundary parts bundle tables database plan) steps) :
    (shownRows steps).Perm (answerGroups parts bundle database plan.toPlanNode table) ∧
      (shownRows steps).Pairwise fun first second =>
        ¬Precedes (pageColumns parts bundle database plan) second first := by
  have compiled := compileGrouped_eq_ok.mp accepted
  have noEntries : activeEntries bundle plan (firstPosition plan bundle) = [] :=
    List.filterMap_eq_nil_iff.mpr fun _ _ => rfl
  have start : Remaining (PageAnswer parts bundle tables database plan pageSize table)
      (Selected parts bundle database plan)
      (Precedes (pageColumns parts bundle database plan))
      (answerGroups parts bundle database plan.toPlanNode table)
      (firstPosition plan bundle) []
      (answerGroups parts bundle database plan.toPlanNode table) := by
    constructor
    · apply exists_pageAnswer grouped pageable compiled
      rw [noEntries]
      exact compiled.filters
    · exact .refl _
    · intro group member
      obtain ⟨head, heads⟩ := exists_groupHead member
      refine ⟨head, mem_of_mem_head? heads.isHead, ?_⟩
      rw [RowSelected, noEntries]
      rfl
    · intro group member
      cases member
    · exact .nil
    · intro group member
      cases member
  exact chain_shows_rest (selecting grouped compiled) sizePositive rfl run rfl
    start (fun _ _ => splits_of_cleanBoundary grouped pageable compiled known)
    boundaries

end Exact

/-- An invoice's day of issue and its amount. -/
abbrev InvoiceRow := Int × Int

def invoiceBundle : DefinitionBundle where
  contentHash := "sha256:invoices"
  resources := [
    { name := "invoice", projectionView := "ai_v1_bq_invoice_fact"
      primaryKey := "id", departmentScopeMode := .none
      scopeColumns := ⟨some "entity_id", none⟩ }]
  measures := [
    { name := "invoice.total", owningResource := "invoice"
      sqlExpression := "amount", aggType := .sum }]
  dimensions := [
    { name := "invoice.issued_on", owningResource := "invoice"
      sqlExpression := "issued_on", type := .time }]
  capabilities := [
    { name := "invoice.total", kind := .measure, resolvesTo := "invoice.total"
      requiredPermissions := ["view invoice"], capabilityState := .enabled },
    { name := "invoice.issued_on", kind := .dimension
      resolvesTo := "invoice.issued_on"
      requiredPermissions := ["view invoice"], capabilityState := .enabled }]

def invoiceParts : CompilerParts where
  normalise := fun text => text
  lowerAttributePredicate := fun _ => .error (refused .memberNotFound)
  compileSet := fun _ => .error (refused .memberNotFound)
  withinOneBucket := fun _ _ => false

def invoiceDatabase : SourceDatabase InvoiceRow Int where
  value := fun row _ => some (.integer row.1)
  bucket := fun _ row _ => some (.integer (row.1 / 365))
  rank := fun _ value =>
    match value with
    | .integer number => number
    | _ => 0
  aggregate := fun _ group => some (.integer (group.map Prod.snd).sum)
  other := fun _ _ => none
  otherHaving := fun _ _ => none

def totalsByYear : BusinessQueryPlan where
  measures := ["invoice.total"]
  dimensions := ["invoice.issued_on"]
  period := some ⟨"invoice.issued_on", .relative .allTime, some .year⟩
  grain := .grouped

def invoices : List InvoiceRow :=
  [(30, 10), (400, 50), (31, 20)]

def firstYear : List InvoiceRow :=
  [(30, 10), (31, 20)]

def secondYear : List InvoiceRow :=
  [(400, 50)]

def yearPages : List (PageStep (List InvoiceRow)) :=
  [⟨[firstYear], [secondYear]⟩, ⟨[secondYear], []⟩]

theorem yearPages_run : Chain (PageAnswer invoiceParts invoiceBundle ["invoice"] invoiceDatabase
        totalsByYear 1 invoices)
      (nextPosition invoiceParts invoiceBundle invoiceDatabase totalsByYear) 1
      (answerGroups invoiceParts invoiceBundle invoiceDatabase
        totalsByYear.toPlanNode invoices).length
      (firstPosition totalsByYear invoiceBundle) 0 yearPages := by
  have first : PageAnswer invoiceParts invoiceBundle ["invoice"]
      invoiceDatabase totalsByYear 1 invoices
      (firstPosition totalsByYear invoiceBundle) [firstYear, secondYear] :=
    ⟨_, rfl, by decide, by decide, by decide⟩
  have second : PageAnswer invoiceParts invoiceBundle ["invoice"]
      invoiceDatabase totalsByYear 1 invoices
      (nextPosition invoiceParts invoiceBundle invoiceDatabase totalsByYear
        firstYear) [secondYear] :=
    ⟨_, rfl, by decide, by decide, by decide⟩
  apply Chain.turn first
  · exact ⟨by decide, by decide, by decide⟩
  · rfl
  · apply Chain.stop second
    rintro ⟨-, -, more⟩
    exact absurd more (by decide)

theorem yearPages_clean : AllBoundaries (CleanBoundary invoiceParts invoiceBundle ["invoice"]
      invoiceDatabase totalsByYear) yearPages := by
  intro step member last isLast heldBack
  rcases List.mem_cons.mp member with rfl | rest
  · cases isLast
    constructor
    · decide
    · intro clause listed value isValue
      rw [List.mem_singleton.mp listed] at isValue ⊢
      cases isValue
      exact ⟨by decide, rfl⟩
    · decide
  · rw [List.mem_singleton.mp rest] at heldBack
    exact absurd rfl heldBack

theorem grouped_pages_exact_totalsByYear : (shownRows yearPages).Perm
        (answerGroups invoiceParts invoiceBundle invoiceDatabase totalsByYear.toPlanNode invoices) ∧
      (shownRows yearPages).Pairwise fun first second =>
        ¬Precedes (pageColumns invoiceParts invoiceBundle invoiceDatabase
          totalsByYear) second first :=
  grouped_pages_exact rfl rfl (by decide) (by decide) (by decide) yearPages_run yearPages_clean

def greatestYears : BusinessQueryPlan :=
  { totalsByYear with order := [⟨"invoice.total", .desc⟩] }

/-- Ordered by a measure, the second page compares the measure in its row
filters; the compiler refuses it and the second group is never shown. -/
theorem pages_stop_at_measure_order : ∃ steps,
      Chain (PageAnswer invoiceParts invoiceBundle ["invoice"] invoiceDatabase
          greatestYears 1 invoices)
        (nextPosition invoiceParts invoiceBundle invoiceDatabase greatestYears)
        1 (answerGroups invoiceParts invoiceBundle invoiceDatabase
          greatestYears.toPlanNode invoices).length
        (firstPosition greatestYears invoiceBundle) 0 steps ∧
      shownRows steps = [secondYear] ∧
      (answerGroups invoiceParts invoiceBundle invoiceDatabase
        greatestYears.toPlanNode invoices).Perm [firstYear, secondYear] := by
  have first : PageAnswer invoiceParts invoiceBundle ["invoice"]
      invoiceDatabase greatestYears 1 invoices
      (firstPosition greatestYears invoiceBundle) [secondYear, firstYear] :=
    ⟨_, rfl, by decide, by decide, by decide⟩
  refine ⟨[⟨[secondYear], [firstYear]⟩], ?_, rfl, by decide⟩
  apply Chain.turn first
  · exact ⟨by decide, by decide, by decide⟩
  · rfl
  · apply Chain.refused
    rintro answer ⟨page, applied, compiles, -⟩
    rw [toPlanNode_eq_pageNode rfl applied] at compiles
    revert compiles
    decide

end McpAssistant.BusinessQuery.GroupedPaging
