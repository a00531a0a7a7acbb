import McpAssistant.Foundations.KeysetPaging
import McpAssistant.BusinessQuery.FilterEvaluation
import McpAssistant.BusinessQuery.Keyset

/-!
# The rows a page keeps

The filter of a page is true of exactly the rows beyond the page's position.
-/

namespace McpAssistant.BusinessQuery.KeysetEvaluation

open Definitions FilterTree QueryPlan FilterEvaluation Keyset Foundations.KeysetPaging List

section Branches

variable {truth : FilterLeaf → Truth}

/-- Some entry is passed, the earlier ones being equal. -/
def EntryReached (truth : FilterLeaf → Truth) : List KeysetEntry → Prop
  | [] => False
  | entry :: entries =>
    nodeTruth truth (beyondFilter entry) = some true ∨
      (nodeTruth truth (equalFilter entry) = some true ∧ EntryReached truth entries)

theorem groupNode_eq_true {nodes : List FilterNode} :
    nodeTruth truth (.group nodes []) = some true ↔
      ∀ node ∈ nodes, nodeTruth truth node = some true := by
  rw [nodeTruth, nodesTruth_eq_map]
  show groupTruth _ [] = some true ↔ _
  rw [groupTruth_all]
  exact forall_mem_map

theorem keysetBranches_eq_true {earlier : List FilterNode} {entries : List KeysetEntry} :
    (∃ node ∈ keysetBranches earlier entries, nodeTruth truth node = some true) ↔
      (∀ node ∈ earlier, nodeTruth truth node = some true) ∧ EntryReached truth entries := by
  induction entries generalizing earlier with
  | nil => simp [keysetBranches, EntryReached]
  | cons entry entries ih =>
    have own : nodeTruth truth (if earlier.isEmpty then beyondFilter entry
          else .group (earlier ++ [beyondFilter entry]) []) = some true ↔
        (∀ node ∈ earlier, nodeTruth truth node = some true) ∧
          nodeTruth truth (beyondFilter entry) = some true := by
      split
      · rename_i empty
        rw [List.isEmpty_iff.mp empty]
        simp
      · rw [groupNode_eq_true, forall_mem_append, forall_mem_singleton]
    rw [keysetBranches, exists_mem_cons_iff, own, ih,
      forall_mem_append, forall_mem_singleton, EntryReached]
    constructor
    · rintro (⟨equal, beyond⟩ | ⟨⟨equal, same⟩, later⟩)
      · exact ⟨equal, .inl beyond⟩
      · exact ⟨equal, .inr ⟨same, later⟩⟩
    · rintro ⟨equal, beyond | ⟨same, later⟩⟩
      · exact .inl ⟨equal, beyond⟩
      · exact .inr ⟨⟨equal, same⟩, later⟩

theorem keysetFilter_eq_true {entry : KeysetEntry} {entries : List KeysetEntry} :
    nodeTruth truth (keysetFilter (entry :: entries)) = some true ↔
      EntryReached truth (entry :: entries) := by
  cases entries with
  | nil =>
    show nodeTruth truth (beyondFilter entry) = some true ↔ _
    simp [EntryReached]
  | cons second entries =>
    show groupTruth [] (nodesTruth truth
      (keysetBranches [] (entry :: second :: entries))) = some true ↔ _
    have branches := @keysetBranches_eq_true truth [] (entry :: second :: entries)
    rw [keysetBranches] at branches ⊢
    rw [nodesTruth, groupTruth_any, nodesTruth_eq_map, ← map_cons]
    simp only [mem_map, exists_exists_and_eq_and]
    rw [branches]
    simp

/-- The combined filters keep what the plan's own filters and the page's
keep. -/
theorem combinedFilters_eq_true {filters : Option FilterGroup} {active : List KeysetEntry} :
    filtersTruth truth (combinedFilters filters active) = some true ↔
      filtersTruth truth filters = some true ∧ (active ≠ [] → EntryReached truth active) := by
  cases active with
  | nil => simp [combinedFilters]
  | cons entry entries =>
    cases filters with
    | none =>
      show groupTruth (nodesTruth truth [keysetFilter (entry :: entries)]) [] = some true ↔ _
      rw [groupTruth_all, nodesTruth_eq_map]
      simp [filtersTruth, keysetFilter_eq_true]
    | some group =>
      show groupTruth (nodesTruth truth
        [FilterGroup.node group, keysetFilter (entry :: entries)]) [] = some true ↔ _
      rw [groupTruth_all, nodesTruth_eq_map]
      simp only [map_cons, map_nil, forall_mem_cons, keysetFilter_eq_true]
      simp [filtersTruth, FilterGroup.node, nodeTruth]

end Branches

section Columns

variable {Row Key : Type} [LinearOrder Key] (database : Database Row Key)
  (spelling : String → FilterValue → FilterValue)

def itemColumn (item : OrderItem) : Column Row Key where
  read := fun row =>
    match database.value row item.1 with
    | none => ⊥
    | some value => database.rank item.1 value
  descending := item.2 = .desc

def entryPosition (entry : KeysetEntry) : Column Row Key × Key :=
  (itemColumn database (entry.1, entry.2.1), database.rank entry.1 (spelling entry.1 entry.2.2))

variable {database} {spelling} {item : OrderItem} {row : Row}

omit [LinearOrder Key] in
theorem read_of_null (isNull : database.value row item.1 = none) :
    (itemColumn database item).read row = ⊥ := by
  simp only [itemColumn, isNull]

omit [LinearOrder Key] in
theorem read_of_value {value : FilterValue} (isValue : database.value row item.1 = some value) :
    (itemColumn database item).read row = database.rank item.1 value := by
  simp only [itemColumn, isValue]

omit [LinearOrder Key] in
theorem read_eq_bot : (itemColumn database item).read row = ⊥ ↔
      database.value row item.1 = none := by
  cases found : database.value row item.1 with
  | none => simp [read_of_null found]
  | some value => simp [read_of_value found]

variable {entry : KeysetEntry}

theorem beyondFilter_eq_true :
    nodeTruth (leafTruth database spelling row) (beyondFilter entry) = some true ↔
      (entryPosition database spelling entry).1.Beyond
        (entryPosition database spelling entry).2 row := by
  obtain ⟨member, direction, value⟩ := entry
  cases direction with
  | asc =>
    show (database.value row member).map _ = some true ↔ _
    rw [entryPosition, Column.Beyond]
    cases found : database.value row member with
    | none =>
      have isNull : (itemColumn database (member, .asc)).read row = ⊥ := read_of_null found
      simp [isNull]
    | some other =>
      have isValue : (itemColumn database (member, .asc)).read row =
          database.rank member other := read_of_value found
      have direction : (itemColumn database (member, .asc)).descending = false := rfl
      simp [isValue, direction]
  | desc =>
    show (database.value row member).map _ = some true ↔ _
    rw [entryPosition, Column.Beyond]
    cases found : database.value row member with
    | none =>
      have isNull : (itemColumn database (member, .desc)).read row = ⊥ := read_of_null found
      simp [isNull]
    | some other =>
      have isValue : (itemColumn database (member, .desc)).read row =
          database.rank member other := read_of_value found
      have direction : (itemColumn database (member, .desc)).descending = true := rfl
      simp [isValue, direction]

theorem equalFilter_eq_true :
    nodeTruth (leafTruth database spelling row) (equalFilter entry) = some true ↔
      (entryPosition database spelling entry).1.read row =
        (entryPosition database spelling entry).2 := by
  obtain ⟨member, direction, value⟩ := entry
  show (database.value row member).map _ = some true ↔ _
  rw [entryPosition]
  cases found : database.value row member with
  | none =>
    have isNull : (itemColumn database (member, direction)).read row = ⊥ := read_of_null found
    simp [isNull]
  | some other =>
    have isValue : (itemColumn database (member, direction)).read row =
        database.rank member other := read_of_value found
    simp [isValue]

theorem entryReached_iff {entries : List KeysetEntry} :
    EntryReached (leafTruth database spelling row) entries ↔
      Reaches (entries.map (entryPosition database spelling)) row := by
  induction entries with
  | nil => rfl
  | cons entry entries ih =>
    rw [EntryReached, beyondFilter_eq_true, equalFilter_eq_true, ih, map_cons]
    rfl

/-- A boundary row with a value on every order member, which the next position
carries and the next filter compares as the column does. -/
structure Complete (database : Database Row Key)
    (spelling : String → FilterValue → FilterValue) (page : PlanNode)
    (last : Row) : Prop where
  projected : ∀ clause ∈ page.order, clause.member ∈ answerColumns page
  valued : ∀ clause ∈ page.order, ∃ value, database.value last clause.member = some value ∧
      database.rank clause.member (spelling clause.member value) = database.rank clause.member value

/-- The columns a page is ordered by. -/
def orderColumns (database : Database Row Key) (order : List OrderClause) : List (Column Row Key) :=
  order.map fun clause => itemColumn database (orderItem clause)

omit [LinearOrder Key] in
theorem positionOf_activeKeyset {page : PlanNode} {last : Row}
    (complete : Complete database spelling page last) :
    PositionOf (orderColumns database page.order) last
      ((activeKeyset (page.order.map orderItem) (nextKeyset page (database.value last))).map
          (entryPosition database spelling)) := by
  have general : ∀ order : List OrderClause, (∀ clause ∈ order, clause ∈ page.order) →
      PositionOf (orderColumns database order) last ((activeKeyset (order.map orderItem)
          (nextKeyset page (database.value last))).map (entryPosition database spelling)) := by
    intro order listed
    induction order with
    | nil => exact ⟨rfl, fun entry member => by cases member⟩
    | cons clause order ih =>
      have own := listed clause mem_cons_self
      obtain ⟨columns, values⟩ := ih fun other member =>
        listed other (mem_cons_of_mem _ member)
      obtain ⟨value, isValue, sameRank⟩ := complete.valued clause own
      have named : clause.member ∈ page.order.map OrderClause.member := mem_map_of_mem own
      have found : (nextKeyset page (database.value last)).lookup
          clause.member = some (some value) := by
        rw [lookup_nextKeyset named, if_pos (complete.projected clause own), isValue]
      have active : activeKeyset ((clause :: order).map orderItem)
          (nextKeyset page (database.value last)) =
          (clause.member, clause.direction, value) :: activeKeyset (order.map orderItem)
              (nextKeyset page (database.value last)) := by
        simp only [activeKeyset, map_cons, filterMap_cons, orderItem, found]
      rw [active]
      constructor
      · rw [map_cons, map_cons, columns]
        rfl
      · intro entry member
        rw [map_cons] at member
        rcases List.mem_cons.mp member with rfl | later
        · show (itemColumn database (clause.member, clause.direction)).read last = _
          rw [entryPosition, sameRank]
          exact read_of_value isValue
        · exact values entry later
  exact general page.order fun _ member => member

theorem passes_next_iff {page : PlanNode} {filters : Option FilterGroup}
    {last : Row} (complete : Complete database spelling page last)
    (ordered : page.order ≠ []) (row : Row) :
    Passes database spelling (combinedFilters filters (activeKeyset (page.order.map orderItem)
            (nextKeyset page (database.value last)))) row ↔
      Passes database spelling filters row ∧ Precedes (orderColumns database page.order) last row ∧
        ¬FirstDiffersByNull (orderColumns database page.order) last row := by
  have position := positionOf_activeKeyset complete
  have nonempty : activeKeyset (page.order.map orderItem)
      (nextKeyset page (database.value last)) ≠ [] := by
    intro empty
    apply ordered
    have columns := position.1
    rw [empty] at columns
    simpa [orderColumns] using columns.symm
  rw [Passes, combinedFilters_eq_true, entryReached_iff, reaches_iff position row]
  constructor
  · rintro ⟨own, reached⟩
    exact ⟨own, reached nonempty⟩
  · rintro ⟨own, reached⟩
    exact ⟨own, fun _ => reached⟩

end Columns

end McpAssistant.BusinessQuery.KeysetEvaluation
