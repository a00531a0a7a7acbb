import McpAssistant.BusinessQuery.ObservationOrder
import McpAssistant.BusinessQuery.ReflectedTables

/-!
# Selections that are read together

A read takes the selections a family at a time.  A fact of the read is a fact that one of
its selections returns alone; a selection whose family no other one names keeps all of its
facts.  A read as of an instant keeps the latest observation of each key, and a fact is
typed by the definition of the revision it was recorded under, where one is declared.
-/

namespace McpAssistant.BusinessQuery.DetailIndependence

open Definitions QueryPlan DetailSources DetailEngine DetailFacts ObservationOrder
open ReflectedTables
open EvidenceSealing (CellValue)
open Foundations.Fallible List

/-! ## Authorized reads -/

structure AuthorizedRead where
  sql : OrderedSql
  contents : Contents
  schema : Schema
  authorized : Visibility.Principal
  bundle : DetailBundle
  scope : ReadScope
  selections : List DetailSelection
  items : List CanonicalDetailSelection
  resolved : resolve schema authorized bundle selections = .ok items

namespace AuthorizedRead

variable (run : AuthorizedRead)

def reads (items : List CanonicalDetailSelection) : Except ReadFailure DetailReadResult :=
  read run.sql.toSql run.contents run.schema run.scope items

def owners : List CellValue :=
  boundedIds run.scope.parentIds

def boundedScope : ReadScope :=
  { run.scope with parentIds := run.owners }

def alone (item : CanonicalDetailSelection) : Except ReadFailure (Option (List RecordDetail)) :=
  readAlone run.sql.toSql run.contents run.boundedScope run.schema item

def noFacts : DetailReadResult where
  details := []
  failedFamilies := []

def columnsOf (item : CanonicalDetailSelection) : List String :=
  match reflectSourceTable run.schema item.source with
  | .ok (columns, _) => columns
  | .error _ => []

def recorded (item : CanonicalDetailSelection) (row : Row) : Option String :=
  if (run.columnsOf item).contains "revision_hash" then textOf (row "revision_hash") else none

def Stores (item : CanonicalDetailSelection) (row : Row) : Prop :=
  row ∈ run.contents.rows item.source.projectionView

def FactOf (item : CanonicalDetailSelection) (row : Row) (fact : RecordDetail) : Prop :=
  ∃ statement, familyStatement run.boundedScope item (run.columnsOf item) = .ok statement ∧
    buildRecordDetail run.sql.toSql statement row = .ok fact

structure Observed (item : CanonicalDetailSelection) (instant : String) (row : Row) : Prop where
  stored : run.Stores item row
  owner : ∃ id ∈ run.owners, run.sql.toSql.equals (row item.source.ownerColumn) id = true
  family : row "family_key" = .text item.selection.family
  entity : ∀ column, item.source.scopeColumns.entity = some column →
    run.sql.toSql.equals (row column) (cellOf run.scope.entityId) = true
  department : ∀ column departmentId, item.source.scopeColumns.department = some column →
    run.scope.departmentId = some departmentId →
      run.sql.toSql.equals (row column) (.integer departmentId) = true
  notAfter : run.sql.notAfter (row "source_updated_at") instant = true

structure Latest (key : Row → CellValue × CellValue) (item : CanonicalDetailSelection)
    (instant : String) (chosen : List Row) : Prop where
  once : (chosen.map key).Nodup
  observed : ∀ row ∈ chosen, run.Observed item instant row
  covers : ∀ row, run.Observed item instant row → ∃ kept ∈ chosen, key kept = key row
  latest : ∀ kept ∈ chosen, ∀ row, run.Observed item instant row → key row = key kept →
    run.sql.atMost (row "source_updated_at") (kept "source_updated_at") = true

def LatestFacts (key : CanonicalDetailSelection → Row → CellValue × CellValue) : Prop :=
  ∀ item ∈ run.items, ∀ instant, item.selection.revisionMode = .asOf →
    item.selection.asOf = some instant → ∀ own, run.reads [item] = .ok own →
      item.selection.family ∉ own.failedFamilies → ∃ chosen,
        run.Latest (key item) item instant chosen ∧
          List.Forall₂ (run.FactOf item) chosen own.details

def Declares (family revision : String) (definition : SignedDetail) : Prop :=
  definition ∈ run.bundle.detailDefinitions ∧ definition.familyKey = family ∧
    definition.revisionHash = revision

structure TypedBy (item : CanonicalDetailSelection) (row : Row) (definition : SignedDetail)
    (fact : RecordDetail) : Prop where
  stored : run.Stores item row
  value : fact.typedValue =
    parseTypedValue run.sql.toSql definition.valueKind (row item.source.typedValueColumn)
  recorded : fact.revisionHash = run.recorded item row
  label : fact.definitionRevision = definition.revisionHash

/-- The facts of a read are those of its selections alone. -/
def Union : Prop :=
  ∀ result, run.reads run.items = .ok result → ∀ fact,
    fact ∈ result.details ↔ ∃ item ∈ run.items, ∃ own,
      run.reads [item] = .ok own ∧ fact ∈ own.details

def attributeKey (item : CanonicalDetailSelection) (row : Row) : CellValue × CellValue :=
  (row item.source.ownerColumn, row "attribute_key")

def Labelled : Prop :=
  ∀ item ∈ run.items, ∀ own, run.reads [item] = .ok own → ∀ fact ∈ own.details,
    ∃ row definition revision, run.TypedBy item row definition fact ∧
      run.recorded item row = some revision ∧
      run.Declares item.selection.family revision definition

def valueKey (item : CanonicalDetailSelection) (row : Row) : CellValue × CellValue :=
  (row item.source.ownerColumn,
    if item.definition.cardinality = .oneToMany ∧
        (run.columnsOf item).contains "attribute_key" then
      row "attribute_key"
    else .null)

def Typed (item : CanonicalDetailSelection) (fact : RecordDetail) : Prop :=
  ∃ row definition, run.TypedBy item row definition fact ∧
    ((∃ revision, run.recorded item row = some revision ∧
        run.Declares item.selection.family revision definition) ∨
      definition = item.definition ∧ ∀ revision, run.recorded item row = some revision →
        ∀ other, ¬ run.Declares item.selection.family revision other)

def Sole (item : CanonicalDetailSelection) : Prop :=
  ∀ other ∈ run.items, other.selection.family = item.selection.family → other = item

/-- What holds of every authorized read whose sources, where they read one view, sign the
same columns of it. -/
structure Kept : Prop where
  sound : SignAlike run.items → ∀ result, run.reads run.items = .ok result →
    ∀ fact ∈ result.details, ∃ item ∈ run.items, ∃ own,
      run.reads [item] = .ok own ∧ fact ∈ own.details
  whole : SignAlike run.items → ∀ result, run.reads run.items = .ok result →
    ∀ item ∈ run.items, run.Sole item → ∃ own, run.reads [item] = .ok own ∧
      ∀ fact ∈ own.details, fact ∈ result.details
  union : SignAlike run.items → (∀ item ∈ run.items, run.Sole item) → run.Union
  latest : run.LatestFacts run.valueKey
  typed : ∀ item ∈ run.items, ∀ own, run.reads [item] = .ok own →
    ∀ fact ∈ own.details, run.Typed item fact

section Reading

variable {run} {items : List CanonicalDetailSelection}

theorem reads_nothing (nothing : run.owners = [] ∨ items = []) : run.reads items = .ok noFacts := by
  rw [reads, DetailEngine.read, if_pos]
  · rfl
  · rw [List.isEmpty_iff, List.isEmpty_iff]
    exact nothing

variable {result : DetailReadResult}

theorem reads_something (something : ¬ (run.owners = [] ∨ items = [])) :
    run.reads items = .ok result ↔ ∃ found,
      readFamilies run.sql.toSql run.contents run.boundedScope run.schema
        (firstOfFamilies items) = .ok found ∧
      { found with failedFamilies := sortedSet found.failedFamilies } = result := by
  rw [reads, DetailEngine.read, if_neg, bind_eq_ok]
  · simp only [pure_eq_ok]
    exact Iff.rfl
  · rw [List.isEmpty_iff, List.isEmpty_iff]
    exact something

theorem firstOfFamilies_single (item : CanonicalDetailSelection) :
    firstOfFamilies [item] = [item] := by
  have names : sortedSet [item.selection.family] = [item.selection.family] := rfl
  rw [firstOfFamilies, map_singleton, names, filterMap_cons, List.find?_cons_of_pos]
  · rfl
  · exact decide_eq_true rfl

variable {item : CanonicalDetailSelection}

theorem reads_single (owned : run.owners ≠ []) :
    run.reads [item] = .ok result ↔ ∃ found, run.alone item = .ok found ∧
      noFacts.after item.selection.family found = result := by
  rw [reads_something (by simp [owned]), firstOfFamilies_single]
  constructor
  · rintro ⟨found, ran, rfl⟩
    rcases readFamilies_cons.mp ran with ⟨columns, next, own, later, reflected, reads, ⟨⟩, rfl⟩
    refine ⟨own, readAlone_eq_ok.mpr ⟨columns, next, reflected, reads⟩, ?_⟩
    cases own with
    | none => rfl
    | some details => rfl
  · rintro ⟨own, alone, rfl⟩
    rcases readAlone_eq_ok.mp alone with ⟨columns, next, reflected, reads⟩
    refine ⟨_, readFamilies_cons.mpr ⟨columns, next, own, noFacts, reflected, reads, rfl, rfl⟩, ?_⟩
    cases own with
    | none => rfl
    | some details => rfl

variable {fact : RecordDetail}

theorem mem_after {family : String} {found : Option (List RecordDetail)} :
    fact ∈ (noFacts.after family found).details ↔
      ∃ details, found = some details ∧ fact ∈ details := by
  cases found with
  | none => exact iff_of_false not_mem_nil nofun
  | some details =>
    show fact ∈ details ++ [] ↔ _
    rw [append_nil]
    constructor
    · intro listed
      exact ⟨details, rfl, listed⟩
    · rintro ⟨_, ⟨⟩, listed⟩
      exact listed

theorem signAlike_firsts (alike : SignAlike items) :
    SignAlike (firstOfFamilies items) := fun one listed other also =>
  alike one (mem_of_mem_firstOfFamilies listed) other (mem_of_mem_firstOfFamilies also)

/-- A read returns what the first selection of each family returns alone, and is refused
only where one of these is. -/
theorem reads_firsts (alike : SignAlike items) : ((∃ result, run.reads items = .ok result) ↔
      ∀ item ∈ firstOfFamilies items, ∃ own, run.reads [item] = .ok own) ∧
    ∀ result, run.reads items = .ok result → ∀ fact,
      fact ∈ result.details ↔ ∃ item ∈ firstOfFamilies items, ∃ own,
        run.reads [item] = .ok own ∧ fact ∈ own.details := by
  by_cases nothing : run.owners = [] ∨ items = []
  · have single : ∀ item ∈ firstOfFamilies items, run.reads [item] = .ok noFacts := by
      intro item first
      apply reads_nothing
      apply nothing.imp_right
      rintro rfl
      cases first
    constructor
    · exact iff_of_true ⟨_, reads_nothing nothing⟩ fun item first => ⟨_, single item first⟩
    · intro result ran fact
      cases (reads_nothing nothing).symm.trans ran
      apply iff_of_false not_mem_nil
      rintro ⟨item, first, own, isOwn, listed⟩
      cases (single item first).symm.trans isOwn
      cases listed
  · have owned : run.owners ≠ [] := fun unowned => nothing (.inl unowned)
    rcases @readFamilies_facts run.sql.toSql run.contents run.boundedScope run.schema _
      (signAlike_firsts alike) with ⟨accepted, facts⟩
    constructor
    · constructor
      · rintro ⟨result, ran⟩ item first
        rcases (reads_something nothing).mp ran with ⟨found, isFound, _⟩
        rcases accepted.mp ⟨found, isFound⟩ item first with ⟨own, alone⟩
        exact ⟨_, (reads_single owned).mpr ⟨own, alone, rfl⟩⟩
      · intro singles
        have each : ∀ item ∈ firstOfFamilies items, ∃ found, run.alone item = .ok found := by
          intro item first
          rcases singles item first with ⟨own, isOwn⟩
          rcases (reads_single owned).mp isOwn with ⟨found, alone, _⟩
          exact ⟨found, alone⟩
        rcases accepted.mpr each with ⟨found, isFound⟩
        exact ⟨_, (reads_something nothing).mpr ⟨found, isFound, rfl⟩⟩
    · intro result ran fact
      rcases (reads_something nothing).mp ran with ⟨found, isFound, rfl⟩
      rw [facts found isFound fact]
      apply exists_congr
      intro item
      apply and_congr_right
      intro _
      constructor
      · rintro ⟨details, alone, listed⟩
        exact ⟨_, (reads_single owned).mpr ⟨_, alone, rfl⟩, mem_after.mpr ⟨details, rfl, listed⟩⟩
      · rintro ⟨own, isOwn, listed⟩
        rcases (reads_single owned).mp isOwn with ⟨own, alone, rfl⟩
        rcases mem_after.mp listed with ⟨details, rfl, among⟩
        exact ⟨details, alone, among⟩

theorem mem_firstOfFamilies (listed : item ∈ run.items)
    (sole : run.Sole item) : item ∈ firstOfFamilies run.items := by
  apply List.mem_filterMap.mpr
  refine ⟨item.selection.family, mem_sortedSet.mpr (mem_map_of_mem listed), ?_⟩
  rcases found : run.items.find? fun other =>
    other.selection.family = item.selection.family with _ | other
  · have absent := List.find?_eq_none.mp found item listed
    exact absurd (decide_eq_true rfl) absent
  · have family := List.find?_some found
    rw [found, sole other (mem_of_find?_eq_some found) (of_decide_eq_true family)]

variable {own : DetailReadResult}

theorem facts_of_single (owned : run.owners ≠ []) (ran : run.reads [item] = .ok own) :
    ∃ statement, familyStatement run.boundedScope item (run.columnsOf item) = .ok statement ∧
      ((own.details = [] ∧ item.selection.family ∈ own.failedFamilies) ∨
        (observations statement (statement.fetch run.sql.toSql run.contents)).mapM
          (buildRecordDetail run.sql.toSql statement) = .ok own.details) := by
  rcases (reads_single owned).mp ran with ⟨found, alone, rfl⟩
  rcases readAlone_eq_ok.mp alone with ⟨columns, next, reflected, reads⟩
  rcases bind_eq_ok.mp reads with ⟨statement, made, answered⟩
  have isColumns : run.columnsOf item = columns := by
    rw [columnsOf, reflected]
  refine ⟨statement, isColumns ▸ made, ?_⟩
  rw [runStatement] at answered
  split at answered
  · simp only [bind_eq_ok, pure_eq_ok] at answered
    rcases answered with ⟨details, built, rfl⟩
    show (_ ∨ _ = Except.ok (details ++ []))
    rw [append_nil]
    exact .inr built
  · cases answered
    exact .inl ⟨rfl, mem_cons_self⟩

theorem single_unowned
    (unowned : run.owners = []) (ran : run.reads [item] = .ok own) : own.details = [] := by
  cases (reads_nothing (.inl unowned)).symm.trans ran
  rfl

variable {columns : List String} {filters : List RowFilter} {instant : String}

theorem asOfFilters_eq_ok (asOf : item.selection.revisionMode = .asOf)
    (isInstant : item.selection.asOf = some instant)
    (made : asOfFilters item columns = .ok filters) :
    "source_updated_at" ∈ columns ∧ filters = [.notAfter "source_updated_at" instant] := by
  rw [asOfFilters, if_pos asOf, isInstant] at made
  simp only [bind_eq_ok, pure_eq_ok] at made
  rcases made with ⟨_, present, rfl⟩
  exact ⟨requireColumn_eq_ok.mp present, rfl⟩

variable {scope : ReadScope} {column : Option String} {row : Row}

theorem entityFilters_accept {sql : Sql} (made : entityFilters scope columns column = .ok filters) :
    (∀ filter ∈ filters, filter.accepts sql row = true) ↔ ∀ name, column = some name →
      sql.equals (row name) (cellOf scope.entityId) = true := by
  rcases column with _ | name
  · cases made
    exact iff_of_true (forall_mem_nil _) nofun
  · rw [(entityFilters_some made).2, forall_mem_singleton]
    constructor
    · rintro accepted _ ⟨⟩
      exact accepted
    · intro each
      exact each name rfl

theorem departmentFilters_accept {sql : Sql}
    (made : departmentFilters scope columns column = .ok filters) :
    (∀ filter ∈ filters, filter.accepts sql row = true) ↔
      ∀ name departmentId, column = some name → scope.departmentId = some departmentId →
        sql.equals (row name) (.integer departmentId) = true := by
  rcases column with _ | name
  · cases made
    apply iff_of_true (forall_mem_nil _)
    rintro _ _ ⟨⟩
  · rw [departmentFilters] at made
    split at made
    · cases made
    · simp only [bind_eq_ok, pure_eq_ok] at made
      rcases made with ⟨_, _, rfl⟩
      rcases scope.departmentId with _ | departmentId
      · apply iff_of_true (forall_mem_nil _)
        rintro _ _ _ ⟨⟩
      · show (∀ filter ∈ [_], _) ↔ _
        rw [forall_mem_singleton]
        constructor
        · rintro accepted _ _ ⟨⟩ ⟨⟩
          exact accepted
        · intro each
          exact each name departmentId rfl rfl

theorem mem_fetch_asOf {item : CanonicalDetailSelection} {statement : FamilyStatement}
    {instant : String}
    (made : familyStatement run.boundedScope item (run.columnsOf item) = .ok statement)
    (asOf : item.selection.revisionMode = .asOf) (isInstant : item.selection.asOf = some instant)
    (unpinned : item.selection.revisionHash = none) {row : Row} :
    row ∈ statement.fetch run.sql.toSql run.contents ↔ run.Observed item instant row := by
  rw [mem_fetch]
  simp only [familyStatement, bind_eq_ok, pure_eq_ok] at made
  rcases made with ⟨_, _, _, _, entity, isEntity, department, isDepartment, latest, isLatest, rfl⟩
  have none : revisionFilters item (run.columnsOf item) = [] := by
    rw [revisionFilters, if_neg]
    rintro ⟨_, pinned | current⟩
    · exact pinned unpinned
    · rw [asOf] at current
      cases current
  rw [FamilyStatement.selects, Bool.and_eq_true, any_eq_true, all_eq_true]
  dsimp only
  rw [(asOfFilters_eq_ok asOf isInstant isLatest).2, none, forall_mem_append,
    forall_mem_append, forall_mem_append, forall_mem_cons,
    entityFilters_accept isEntity, departmentFilters_accept isDepartment,
    forall_mem_singleton]
  constructor
  · rintro ⟨stored, owner, ⟨⟨⟨family, entity⟩, department⟩, _⟩, notAfter⟩
    exact ⟨stored, owner, of_decide_eq_true family, entity, department, notAfter⟩
  · intro observed
    exact ⟨observed.stored, observed.owner, ⟨⟨⟨decide_eq_true observed.family,
      observed.entity⟩, observed.department⟩, forall_mem_nil _⟩, observed.notAfter⟩

theorem forall₂_of_mapM {Item Value : Type} {step : Item → Except ReadFailure Value}
    {items : List Item} {values : List Value} (ran : items.mapM step = .ok values) :
    List.Forall₂ (fun item value => step item = .ok value) items values := by
  induction items generalizing values with
  | nil =>
    cases ran
    exact .nil
  | cons item rest ih =>
    rw [mapM_cons] at ran
    simp only [bind_eq_ok, pure_eq_ok] at ran
    rcases ran with ⟨value, isValue, later, isLater, rfl⟩
    exact .cons isValue (ih isLater)

variable {statement : FamilyStatement}
  (made : familyStatement run.boundedScope item (run.columnsOf item) = .ok statement)
include made

theorem observationKey_eq : observationKey statement = run.valueKey item := by
  simp only [familyStatement, bind_eq_ok, pure_eq_ok] at made
  rcases made with ⟨_, _, _, _, _, _, _, _, _, _, rfl⟩
  rfl

/-- Of two rows of one owner, as of an instant the later one comes first. -/
theorem latest_of_precedes
    (asOf : item.selection.revisionMode = .asOf) (isInstant : item.selection.asOf = some instant)
    {kept : Row} (owner : row item.source.ownerColumn = kept item.source.ownerColumn)
    (before : Sql.precedes run.sql.toSql statement.order kept row = true) :
    run.sql.atMost (row "source_updated_at") (kept "source_updated_at") = true := by
  simp only [familyStatement, bind_eq_ok, pure_eq_ok] at made
  rcases made with ⟨_, _, _, _, _, _, _, _, _, isLatest, rfl⟩
  have present := List.contains_iff_mem.mpr (asOfFilters_eq_ok asOf isInstant isLatest).1
  dsimp only at before
  rw [orderColumns, if_pos asOf, filter_cons, if_pos present, precedes_cons] at before
  have same : comesBefore run.sql.toSql (item.source.ownerColumn, .asc) row kept = true := by
    rw [comesBefore, if_pos rfl, owner]
    exact (Bool.or_self _).symm.trans (run.sql.total _ _)
  have later := before.2 same
  rw [precedes_cons] at later
  exact later.1

theorem latest_observations
    (asOf : item.selection.revisionMode = .asOf) (isInstant : item.selection.asOf = some instant)
    (unpinned : item.selection.revisionHash = none) :
    run.Latest (run.valueKey item) item instant
      (observations statement (statement.fetch run.sql.toSql run.contents)) := by
  have selected (row : Row) := @mem_fetch_asOf run _ _ _ made asOf isInstant unpinned row
  have sameItem := (familyStatement_scoped made).1
  rw [observations, if_pos (by rw [sameItem]; exact asOf), observationKey_eq made]
  constructor
  case once => exact nodup_keepFirst
  case observed =>
      intro row kept
      exact (selected row).mp (mem_keepFirst kept)
  case covers =>
      intro row observed
      exact keepFirst_covers ((selected row).mpr observed) not_mem_nil
  case latest =>
      intro kept among row observed same
      rcases keepFirst_before (pairwise_fetch run.contents statement) among
        ((selected row).mpr observed) same with rfl | before
      · exact (Bool.or_self _).symm.trans (run.sql.total _ _)
      · exact latest_of_precedes made asOf isInstant (congrArg Prod.fst same) before

omit made

theorem resolved_of_mem (listed : item ∈ run.items) : validateSelection item.selection = .ok () ∧
      selectDefinitions run.bundle item.selection = .ok (item.definition, item.definitions) := by
  rcases (mapM_eq_ok run.resolved).2 item listed with ⟨selection, _, own⟩
  simp only [resolveSelection, bind_eq_ok, pure_eq_ok] at own
  rcases own with ⟨_, valid, ⟨definition, definitions⟩, selected, _, _, source, _, _, _, _, _, rfl⟩
  exact ⟨valid, selected⟩

variable {selection : DetailSelection}

theorem unpinned_of_valid
    (valid : validateSelection selection = .ok ()) (asOf : selection.revisionMode = .asOf) :
    selection.revisionHash = none := by
  rw [validateSelection] at valid
  split at valid
  · cases valid
  split at valid
  · cases valid
  split at valid
  · cases valid
  split at valid
  · cases valid
  · rename_i unpinned
    by_contra pinned
    exact unpinned ⟨by rw [asOf]; exact nofun, pinned⟩

theorem mem_least {first : SignedDetail} {rest : List SignedDetail} :
    rest.foldl (fun least detail =>
      if detail.revisionHash < least.revisionHash then detail else least) first ∈
        first :: rest := by
  induction rest generalizing first with
  | nil => exact mem_cons_self
  | cons second rest ih =>
    rw [foldl_cons]
    split
    · exact mem_cons_of_mem _ ih
    · rcases List.mem_cons.mp (@ih first) with same | later
      · rw [same]
        exact mem_cons_self
      · exact mem_cons_of_mem _ (mem_cons_of_mem _ later)

theorem selectDefinitions_eq_ok {bundle : DetailBundle}
    {definition : SignedDetail} {definitions : List SignedDetail}
    (selected : selectDefinitions bundle selection = .ok (definition, definitions)) :
    definition ∈ definitions ∧ ∀ detail, detail ∈ definitions ↔
      detail ∈ bundle.detailDefinitions ∧ detail.familyKey = selection.family ∧
        (∀ hash, selection.revisionHash = some hash → detail.revisionHash = hash) ∧
        (selection.revisionHash = none → selection.revisionMode = .current →
          detail.isCurrent = true) := by
  rw [selectDefinitions] at selected
  split at selected
  · cases selected
  split at selected
  · cases selected
  · rename_i first rest isDefinitions
    cases selected
    constructor
    · rw [isDefinitions]
      exact mem_least
    intro detail
    rcases selection.revisionHash with _ | hash
    · dsimp only
      split
      · rename_i current
        rw [mem_filter, mem_filter, decide_eq_true_iff, and_assoc]
        simp only [reduceCtorEq, false_implies, implies_true, true_and, true_implies, current]
      · rename_i others
        rw [mem_filter, decide_eq_true_iff]
        simp only [reduceCtorEq, false_implies, implies_true, and_true, others]
    · dsimp only
      rw [mem_filter, mem_filter, decide_eq_true_iff, decide_eq_true_iff, and_assoc]
      simp only [Option.some.injEq, forall_eq', reduceCtorEq, false_implies, and_true]

variable {revision : String}

theorem recorded_pinned
    (made : familyStatement run.boundedScope item (run.columnsOf item) = .ok statement)
    (one : item.selection.revisionHash ≠ none ∨ item.selection.revisionMode = .current)
    (selected : statement.selects run.sql.toSql row = true)
    (isRecorded : run.recorded item row = some revision) :
    revision = item.selection.revisionHash.getD item.definition.revisionHash := by
  rw [recorded] at isRecorded
  split at isRecorded
  · rename_i present
    rw [FamilyStatement.selects, Bool.and_eq_true, all_eq_true] at selected
    simp only [familyStatement, bind_eq_ok, pure_eq_ok] at made
    rcases made with ⟨_, _, _, _, entity, _, department, _, latest, _, rfl⟩
    have accepted := selected.2 (.isText "revision_hash"
      (item.selection.revisionHash.getD item.definition.revisionHash)) (by
        rw [revisionFilters, if_pos ⟨present, one⟩]
        simp)
    rw [of_decide_eq_true accepted] at isRecorded
    exact (Option.some.inj isRecorded).symm
  · cases isRecorded

theorem declared_definition (listed : item ∈ run.items)
    (made : familyStatement run.boundedScope item (run.columnsOf item) = .ok statement)
    (selected : statement.selects run.sql.toSql row = true)
    (isRecorded : run.recorded item row = some revision) {other : SignedDetail}
    (declared : run.Declares item.selection.family revision other) :
    ∃ definition ∈ item.definitions, definition.revisionHash = revision := by
  rcases selectDefinitions_eq_ok (resolved_of_mem listed).2 with ⟨own, asked⟩
  rcases declared with ⟨signed, family, rfl⟩
  rcases pinned : item.selection.revisionHash with _ | hash
  · by_cases current : item.selection.revisionMode = .current
    · have target := recorded_pinned made (.inr current) selected isRecorded
      rw [pinned] at target
      exact ⟨item.definition, own, target.symm⟩
    · refine ⟨other, (asked other).mpr ⟨signed, family, ?_, ?_⟩, rfl⟩
      · rw [pinned]
        exact nofun
      · intro _ also
        exact absurd also current
  · have some : item.selection.revisionHash ≠ none := by
      rw [pinned]
      exact nofun
    have target := recorded_pinned made (.inl some) selected isRecorded
    rw [pinned] at target
    refine ⟨other, (asked other).mpr ⟨signed, family, ?_, ?_⟩, rfl⟩
    · rw [pinned]
      rintro _ ⟨⟩
      exact target
    · intro unpinned
      exact absurd unpinned some

theorem row_of_fact (ran : run.reads [item] = .ok own) (listed : fact ∈ own.details) :
    ∃ statement row, familyStatement run.boundedScope item (run.columnsOf item) = .ok statement ∧
        run.Stores item row ∧ statement.selects run.sql.toSql row = true ∧
        buildRecordDetail run.sql.toSql statement row = .ok fact := by
  by_cases owned : run.owners = []
  · rw [single_unowned owned ran] at listed
    cases listed
  rcases facts_of_single owned ran with ⟨statement, made, ⟨empty, _⟩ | built⟩
  · rw [empty] at listed
    cases listed
  · rcases (mapM_eq_ok built).2 fact listed with ⟨row, among, isFact⟩
    rcases mem_fetch.mp (mem_observations among) with ⟨stored, selected⟩
    rw [(familyStatement_scoped made).1] at stored
    exact ⟨statement, row, made, stored, selected, isFact⟩

/-- A detail is typed by the first of its selection's definitions of its revision, and by
the selection's own where there is none. -/
theorem typedBy_of_build
    (made : familyStatement run.boundedScope item (run.columnsOf item) = .ok statement)
    (stored : run.Stores item row)
    (built : buildRecordDetail run.sql.toSql statement row = .ok fact) :
    run.TypedBy item row ((item.definitions.find? fun definition =>
      some definition.revisionHash = run.recorded item row).getD item.definition) fact := by
  simp only [familyStatement, bind_eq_ok, pure_eq_ok] at made
  rcases made with ⟨_, _, _, _, _, _, _, _, _, _, rfl⟩
  have isRecorded : textOf (FamilyStatement.optional
      { item, columns := run.columnsOf item, parentIds := [], filters := [], order := [] }
      row "revision_hash") = run.recorded item row := by
    rw [FamilyStatement.optional, recorded]
    split
    · rfl
    · rfl
  rw [buildRecordDetail] at built
  split at built
  · cases built
    exact ⟨stored, by rw [← isRecorded]; rfl, isRecorded, by rw [← isRecorded]; rfl⟩
  · cases built

theorem typed_of_single (among : item ∈ run.items) (ran : run.reads [item] = .ok own)
    (listed : fact ∈ own.details) : run.Typed item fact := by
  rcases row_of_fact ran listed with ⟨statement, row, made, stored, selected, built⟩
  have typed := typedBy_of_build made stored built
  rcases found : item.definitions.find? fun definition =>
    some definition.revisionHash = run.recorded item row with _ | definition
  · rw [found] at typed
    refine ⟨row, item.definition, typed, .inr ⟨rfl, ?_⟩⟩
    intro revision isRecorded other declared
    rcases declared_definition among made selected isRecorded declared with
      ⟨definition, inDefinitions, same⟩
    have absent := List.find?_eq_none.mp found definition inDefinitions
    apply absent
    rw [isRecorded, same]
    exact decide_eq_true rfl
  · rw [found] at typed
    have isRecorded := List.find?_some found
    have signed := ((selectDefinitions_eq_ok (resolved_of_mem among).2).2 definition).mp
      (mem_of_find?_eq_some found)
    exact ⟨row, definition, typed, .inl ⟨definition.revisionHash,
      (of_decide_eq_true isRecorded).symm, signed.1, signed.2.1, rfl⟩⟩


theorem latestFacts (run : AuthorizedRead) : run.LatestFacts run.valueKey := by
  intro item listed instant asOf isInstant own ran answered
  by_cases owned : run.owners = []
  · refine ⟨[], ⟨nodup_nil, nofun, ?_, nofun⟩, ?_⟩
    · intro row observed
      rcases observed.owner with ⟨id, among, _⟩
      rw [owned] at among
      cases among
    · rw [single_unowned owned ran]
      exact .nil
  · rcases facts_of_single owned ran with ⟨statement, made, ⟨_, failed⟩ | built⟩
    · exact absurd failed answered
    · have unpinned := unpinned_of_valid (resolved_of_mem listed).1 asOf
      refine ⟨_, latest_observations made asOf isInstant unpinned, ?_⟩
      apply (forall₂_of_mapM built).imp
      intro row fact isFact
      exact ⟨statement, made, isFact⟩

/-- What the engine keeps of every authorized read. -/
theorem kept (run : AuthorizedRead) : run.Kept := by
  constructor
  case sound =>
      intro alike result ran fact listed
      rcases ((reads_firsts alike).2 result ran fact).mp listed with ⟨item, first, rest⟩
      exact ⟨item, mem_of_mem_firstOfFamilies first, rest⟩
  case whole =>
      intro alike result ran item listed sole
      have first := mem_firstOfFamilies listed sole
      rcases (reads_firsts alike).1.mp ⟨result, ran⟩ item first with ⟨own, isOwn⟩
      refine ⟨own, isOwn, ?_⟩
      intro fact among
      exact ((reads_firsts alike).2 result ran fact).mpr ⟨item, first, own, isOwn, among⟩
  case union =>
      intro alike soles result ran fact
      rw [(reads_firsts alike).2 result ran fact]
      apply exists_congr
      intro item
      apply and_congr_left
      intro _
      constructor
      · exact mem_of_mem_firstOfFamilies
      · intro listed
        exact mem_firstOfFamilies listed (soles item listed)
  case latest => exact latestFacts run
  case typed =>
      intro item among own ran fact listed
      exact typed_of_single among ran listed

end Reading

end AuthorizedRead

def shown : CellValue → String
  | .text value => value
  | .integer value => toString value
  | _ => ""

def textOrder : OrderedSql where
  decimal _ := none
  notAfter value instant := shown value ≤ instant
  atMost left right := shown left ≤ shown right
  jsonLoads _ := none
  total left right := by
    rw [Bool.or_eq_true, decide_eq_true_iff, decide_eq_true_iff]
    exact le_total _ _
  trans first second third one two := by
    rw [decide_eq_true_iff] at one two ⊢
    exact le_trans one two

def sizeColumns : List String :=
  ["job_id", "family_key", "typed_value", "display_value", "revision_hash", "attribute_key",
    "source_updated_at"]

def sizeSource : DetailSource where
  familyKey := "size"
  projectionView := "facts"
  ownerResource := "job"
  ownerColumn := "job_id"
  scopeColumns := { entity := none, department := none }
  typedValueColumn := "typed_value"
  displayValueColumn := "display_value"
  columns := sizeColumns

def sizeDefinition : SignedDetail where
  familyKey := "size"
  revisionHash := "r1"
  ownerResource := "job"
  requiredPermissions := ["view job"]
  physicalSource := "facts"
  ownerColumn := "job_id"
  valueColumn := "typed_value"
  valueKind := .integer
  cardinality := .oneToOne
  scopeColumns := { entity := none, department := none }

def sizeRow (attributeName : String) : Row
  | "job_id" => .integer 7
  | "family_key" => .text "size"
  | "typed_value" => .integer 3
  | "revision_hash" => .text "r0"
  | "attribute_key" => .text attributeName
  | "source_updated_at" => .text "2026-01-01"
  | _ => .null

def sizeSelection : DetailSelection where
  family := "size"
  revisionMode := .asOf
  asOf := some "2026-02-01"

def sizeItem : CanonicalDetailSelection where
  selection := sizeSelection
  definition := sizeDefinition
  definitions := [sizeDefinition]
  source := sizeSource

def clerk : Visibility.Principal where
  role := "clerk"
  permissions := ["view job"]

/-- The sizes of job 7 as of an instant, where its width and its height are stored. -/
def sizes : AuthorizedRead where
  sql := textOrder
  contents := {
    rows _ := [sizeRow "width", sizeRow "height"]
    answers _ := true }
  schema := {
    sourceContracts _ := some sizeColumns
    physicalColumns _ := some sizeColumns
    tables _ := none }
  authorized := clerk
  bundle := {
    detailDefinitions := [sizeDefinition]
    detailSources := [sizeSource]
    oneSourceEach := nodup_singleton _ }
  scope := {
    parentIds := [.integer 7]
    principal := clerk
    entityId := .integer 1 }
  selections := [sizeSelection]
  items := [sizeItem]
  resolved := by rfl

def sizeStatement : FamilyStatement where
  item := sizeItem
  columns := sizeColumns
  parentIds := [.integer 7]
  filters := [.isText "family_key" "size", .notAfter "source_updated_at" "2026-02-01"]
  order := [("job_id", .asc), ("source_updated_at", .desc), ("revision_hash", .asc)]

theorem sizeStatement_made :
    familyStatement sizes.boundedScope sizeItem sizeColumns = .ok sizeStatement := by
  rfl

theorem sizes_fetched : sizeStatement.fetch sizes.sql.toSql sizes.contents =
    [sizeRow "width", sizeRow "height"] := by
  have stored : (sizes.contents.rows sizeStatement.item.source.projectionView).filter
      (sizeStatement.selects sizes.sql.toSql) = [sizeRow "width", sizeRow "height"] := by
    rfl
  rw [FamilyStatement.fetch, stored]
  apply mergeSort_of_pairwise
  decide

def sizeFact : RecordDetail where
  family := "size"
  ownerResource := some "job"
  typedValue := .given (.integer 3)
  displayValue := none
  revisionHash := some "r0"
  definitionRevision := "r1"
  observationVersion := none
  validation := none
  provenance := [("projection_view", .text "facts"), ("source_updated_at", .text "2026-01-01")]
  ownerId := .integer 7
  profileRevisionHash := none

theorem sizes_read : sizes.reads [sizeItem] =
    .ok { details := [sizeFact], failedFamilies := [] } := by
  apply (AuthorizedRead.reads_single (by decide)).mpr
  refine ⟨some [sizeFact], ?_, rfl⟩
  apply readAlone_eq_ok.mpr
  refine ⟨sizeColumns, _, rfl, bind_eq_ok.mpr ⟨_, sizeStatement_made, ?_⟩⟩
  have answered : sizes.contents.answers sizeStatement.item.selection.family = true := rfl
  rw [runStatement, if_pos answered, sizes_fetched]
  rfl

theorem size_observed {attributeName : String} (stored : attributeName ∈ ["width", "height"]) :
    sizes.Observed sizeItem "2026-02-01" (sizeRow attributeName) where
  stored := by
    rw [mem_cons, mem_singleton] at stored
    rcases stored with rfl | rfl
    · exact mem_cons_self
    · exact mem_cons_of_mem _ mem_cons_self
  owner := ⟨.integer 7, by decide, by rfl⟩
  family := rfl
  entity := nofun
  department := nofun
  notAfter := by
    show textOrder.notAfter (.text "2026-01-01") "2026-02-01" = true
    decide

/-- A job has one size as of an instant, though two of its attributes are stored, and the
size is labelled by a revision it was not recorded under. -/
theorem sizes_not_kept_apart :
    ¬ sizes.LatestFacts AuthorizedRead.attributeKey ∧ ¬ sizes.Labelled := by
  constructor
  · intro latest
    rcases latest sizeItem mem_cons_self "2026-02-01" rfl rfl _ sizes_read
      not_mem_nil with ⟨chosen, isLatest, facts⟩
    rcases isLatest.covers _ (size_observed mem_cons_self) with ⟨wide, among, isWide⟩
    rcases isLatest.covers _ (size_observed (mem_cons_of_mem _ mem_cons_self)) with
      ⟨high, also, isHigh⟩
    rcases List.length_eq_one_iff.mp facts.length_eq with ⟨only, rfl⟩
    rw [List.mem_singleton.mp among] at isWide
    rw [List.mem_singleton.mp also] at isHigh
    have same := congrArg Prod.snd (isWide.symm.trans isHigh)
    revert same
    decide
  · intro labelled
    rcases labelled sizeItem mem_cons_self _ sizes_read sizeFact mem_cons_self with
      ⟨row, definition, revision, typed, isRecorded, signed, _, same⟩
    have recorded := typed.recorded.trans isRecorded
    rw [← same, List.mem_singleton.mp signed] at recorded
    revert recorded
    decide

end McpAssistant.BusinessQuery.DetailIndependence
