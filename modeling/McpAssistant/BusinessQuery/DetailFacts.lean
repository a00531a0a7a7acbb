import McpAssistant.BusinessQuery.DetailEngine

/-!
# What the engine's read returns

A read that succeeds prepares one statement for each family and then runs them.
Each detail is built from a row that its family's statement selects, and the
statement's conditions hold the row to the principal's entity and department.
-/

namespace McpAssistant.BusinessQuery.DetailFacts

open Definitions DetailSources DetailEngine
open EvidenceSealing (CellValue)
open Foundations.Fallible List

section Resolution

variable {schema : Schema} {principal : Visibility.Principal} {bundle : DetailBundle}
  {source : DetailSource}

theorem signedSource_eq_ok {family : String} :
    signedSource bundle family = .ok source ↔ bundle.sourceFor family = some source := by
  unfold signedSource
  cases bundle.sourceFor family with
  | none => simp
  | some found => simp

theorem sourceFor_mem {family : String} (found : bundle.sourceFor family = some source) :
    source ∈ bundle.detailSources ∧ source.familyKey = family := by
  constructor
  · exact mem_of_find?_eq_some found
  · simpa using List.find?_some found

variable {item : CanonicalDetailSelection}

theorem resolveSelection_source {selection : QueryPlan.DetailSelection}
    (resolved : resolveSelection schema principal bundle selection = .ok item) :
    item.selection = selection ∧ bundle.sourceFor selection.family = some item.source := by
  unfold resolveSelection at resolved
  simp only [bind_eq_ok, pure_eq_ok] at resolved
  obtain ⟨_, _, ⟨_, _⟩, _, _, _, source, signed, _, _, _, _, rfl⟩ := resolved
  exact ⟨rfl, signedSource_eq_ok.mp signed⟩

theorem resolve_source {selections : List QueryPlan.DetailSelection}
    {items : List CanonicalDetailSelection}
    (resolved : resolve schema principal bundle selections = .ok items)
    (member : item ∈ items) :
    item.selection ∈ selections ∧ bundle.sourceFor item.selection.family = some item.source := by
  obtain ⟨selection, selected, own⟩ := (mapM_eq_ok resolved).2 item member
  obtain ⟨rfl, signed⟩ := resolveSelection_source own
  exact ⟨selected, signed⟩

end Resolution

section Families

variable {items : List CanonicalDetailSelection} {item : CanonicalDetailSelection}

theorem mem_of_mem_firstOfFamilies (member : item ∈ firstOfFamilies items) : item ∈ items := by
  obtain ⟨family, _, found⟩ := List.mem_filterMap.mp member
  exact mem_of_find?_eq_some found

theorem firstOfFamilies_distinct : (firstOfFamilies items).Pairwise fun first second =>
      first.selection.family ≠ second.selection.family := by
  apply List.Pairwise.filterMap (R := fun first second => first < second) _ _ (pairwise_sortedSet _)
  intro first second before one own other later
  have firstFamily : one.selection.family = first := by
    simpa using List.find?_some own
  have secondFamily : other.selection.family = second := by
    simpa using List.find?_some later
  rw [firstFamily, secondFamily]
  exact ne_of_lt before

end Families

section Statements

variable {scope : ReadScope} {item : CanonicalDetailSelection}
  {columns : List String} {statement : FamilyStatement}

/-- The conditions a family's statement puts on its rows. -/
structure Scoped (scope : ReadScope) (statement : FamilyStatement) : Prop where
  parentIds_eq : statement.parentIds = scope.parentIds
  family : .isText "family_key" statement.item.selection.family ∈
    statement.filters
  entity : ∀ column, statement.item.source.scopeColumns.entity = some column →
    checkEntity scope = .ok () ∧ .equals column (cellOf scope.entityId) ∈ statement.filters
  department : ∀ column department, statement.item.source.scopeColumns.department = some column →
    scope.departmentId = some department →
    .equals column (.integer department) ∈ statement.filters

variable {filters : List RowFilter}

theorem entityFilters_some {column : String}
    (made : entityFilters scope columns (some column) = .ok filters) :
    checkEntity scope = .ok () ∧ filters = [.equals column (cellOf scope.entityId)] := by
  unfold entityFilters at made
  simp only [bind_eq_ok, pure_eq_ok] at made
  obtain ⟨_, checked, _, _, rfl⟩ := made
  exact ⟨checked, rfl⟩

theorem departmentFilters_some {column : String} {department : Int}
    (bound : scope.departmentId = some department)
    (made : departmentFilters scope columns (some column) = .ok filters) :
    filters = [.equals column (.integer department)] := by
  simp only [departmentFilters] at made
  rw [if_neg (fun missing => by simp [bound] at missing), bound] at made
  simp only [bind_eq_ok, pure_eq_ok] at made
  obtain ⟨_, _, rfl⟩ := made
  rfl

theorem familyStatement_scoped (prepared : familyStatement scope item columns = .ok statement) :
    statement.item = item ∧ Scoped scope statement := by
  unfold familyStatement at prepared
  simp only [bind_eq_ok, pure_eq_ok] at prepared
  obtain ⟨_, _, _, _, entity, byEntity, department, byDepartment, asOf, _, rfl⟩ := prepared
  refine ⟨rfl, ?_⟩
  constructor
  case parentIds_eq => rfl
  case family => exact mem_cons_self
  case entity =>
      intro column named
      rw [named] at byEntity
      obtain ⟨checked, rfl⟩ := entityFilters_some byEntity
      exact ⟨checked, by simp⟩
  case department =>
      intro column own named bound
      rw [named] at byDepartment
      obtain rfl := departmentFilters_some bound byDepartment
      simp

/-- The statements of a read, without running them. -/
def prepareFamilies (scope : ReadScope) : Schema → List CanonicalDetailSelection →
      Except ReadFailure (List FamilyStatement)
  | _, [] => .ok []
  | schema, item :: rest => do
    let (columns, schema) ← reflectSourceTable schema item.source
    let statement ← familyStatement scope item columns
    let later ← prepareFamilies scope schema rest
    pure (statement :: later)

variable {statements : List FamilyStatement}

theorem prepareFamilies_cons {schema : Schema} {rest : List CanonicalDetailSelection} :
    prepareFamilies scope schema (item :: rest) = .ok statements ↔ ∃ columns next statement later,
        reflectSourceTable schema item.source = .ok (columns, next) ∧
        familyStatement scope item columns = .ok statement ∧
        prepareFamilies scope next rest = .ok later ∧
        statement :: later = statements := by
  rw [prepareFamilies, bind_eq_ok]
  constructor
  · rintro ⟨⟨columns, next⟩, reflected, prepared⟩
    simp only [bind_eq_ok, pure_eq_ok] at prepared
    obtain ⟨statement, own, later, others, equal⟩ := prepared
    exact ⟨columns, next, statement, later, reflected, own, others, equal⟩
  · rintro ⟨columns, next, statement, later, reflected, own, others, equal⟩
    refine ⟨(columns, next), reflected, ?_⟩
    simp only [bind_eq_ok, pure_eq_ok]
    exact ⟨statement, own, later, others, equal⟩

theorem prepareFamilies_scoped {schema : Schema} {items : List CanonicalDetailSelection}
    (prepared : prepareFamilies scope schema items = .ok statements) :
    statements.map FamilyStatement.item = items ∧
      ∀ statement ∈ statements, Scoped scope statement := by
  induction items generalizing schema statements with
  | nil =>
    obtain rfl := Except.ok.inj prepared
    exact ⟨rfl, fun _ member => absurd member not_mem_nil⟩
  | cons item rest ih =>
    rw [prepareFamilies_cons] at prepared
    obtain ⟨columns, next, statement, later, _, own, others, rfl⟩ := prepared
    obtain ⟨rfl, first⟩ := familyStatement_scoped own
    obtain ⟨rfl, laterScoped⟩ := ih others
    constructor
    · rfl
    · exact List.forall_mem_cons.mpr ⟨first, laterScoped⟩

theorem Scoped.row_family {sql : Sql} {row : Row} (holds : Scoped scope statement)
    (selected : statement.selects sql row = true) :
    row "family_key" = .text statement.item.selection.family := by
  rw [FamilyStatement.selects, Bool.and_eq_true, all_eq_true] at selected
  simpa [RowFilter.accepts] using selected.2 _ holds.family

end Statements

section Runs

variable {sql : Sql} {contents : Contents} {statement : FamilyStatement}

def Returns (sql : Sql) (contents : Contents) (statement : FamilyStatement)
    (detail : RecordDetail) : Prop :=
  ∃ row ∈ contents.rows statement.item.source.projectionView,
    statement.selects sql row = true ∧ buildRecordDetail sql statement row = .ok detail

variable {row : Row} {detail : RecordDetail}

theorem buildRecordDetail_fields (built : buildRecordDetail sql statement row = .ok detail) :
    statement.readable row = true ∧ detail.family = statement.item.selection.family ∧
      detail.ownerResource = some statement.item.source.ownerResource ∧
      detail.ownerId = sql.readId (row statement.item.source.ownerColumn) := by
  unfold buildRecordDetail at built
  dsimp only at built
  split at built
  · rename_i readable
    obtain rfl := Except.ok.inj built
    exact ⟨readable, rfl, rfl, rfl⟩
  · exact nomatch built

theorem exists_buildRecordDetail (readable : statement.readable row = true) :
    ∃ detail, buildRecordDetail sql statement row = .ok detail := by
  unfold buildRecordDetail
  dsimp only
  rw [if_pos readable]
  exact ⟨_, rfl⟩

theorem mem_fetch : row ∈ statement.fetch sql contents ↔
    row ∈ contents.rows statement.item.source.projectionView ∧
      statement.selects sql row = true := by
  rw [FamilyStatement.fetch, mem_mergeSort, mem_filter]

theorem mem_keepFirst {Key : Type} [DecidableEq Key] {key : Row → Key}
    {rows : List Row} {seen : List Key}
    (member : row ∈ keepFirst key rows seen) : row ∈ rows := by
  induction rows generalizing seen with
  | nil => exact absurd member not_mem_nil
  | cons first rest ih =>
    rw [keepFirst] at member
    split at member
    · exact mem_cons_of_mem first (ih member)
    · rcases List.mem_cons.mp member with rfl | later
      · exact mem_cons_self
      · exact mem_cons_of_mem first (ih later)

theorem mem_observations {rows : List Row}
    (member : row ∈ observations statement rows) : row ∈ rows := by
  unfold observations at member
  split at member
  · exact mem_keepFirst member
  · exact member

theorem observations_singleton : observations statement [row] = [row] := by
  unfold observations
  split
  · rw [keepFirst, if_neg not_mem_nil, keepFirst]
  · rfl

theorem runStatement_returns {details : List RecordDetail}
    (ran : runStatement sql contents statement = .ok (some details))
    (member : detail ∈ details) :
    Returns sql contents statement detail := by
  unfold runStatement at ran
  split at ran
  · simp only [bind_eq_ok, pure_eq_ok, Option.some.injEq] at ran
    obtain ⟨built, made, rfl⟩ := ran
    obtain ⟨row, observed, own⟩ := (mapM_eq_ok made).2 detail member
    obtain ⟨held, selected⟩ := mem_fetch.mp (mem_observations observed)
    exact ⟨row, held, selected, own⟩
  · exact nomatch ran

/-- The runs of prepared statements, in their order. -/
def runStatements (sql : Sql) (contents : Contents) :
    List FamilyStatement → Except ReadFailure DetailReadResult
  | [] => .ok { details := [], failedFamilies := [] }
  | statement :: rest => do
    let found ← runStatement sql contents statement
    let later ← runStatements sql contents rest
    pure (later.after statement.item.selection.family found)

variable {result : DetailReadResult}

theorem runStatements_returns {statements : List FamilyStatement}
    (ran : runStatements sql contents statements = .ok result)
    (member : detail ∈ result.details) :
    ∃ statement ∈ statements, Returns sql contents statement detail := by
  induction statements generalizing result with
  | nil =>
    obtain rfl := Except.ok.inj ran
    exact absurd member not_mem_nil
  | cons statement rest ih =>
    rw [runStatements] at ran
    simp only [bind_eq_ok, pure_eq_ok] at ran
    obtain ⟨found, own, later, others, rfl⟩ := ran
    have fromLater (inLater : detail ∈ later.details) :
        ∃ other ∈ statement :: rest, Returns sql contents other detail := by
      obtain ⟨other, among, returned⟩ := ih others inLater
      exact ⟨other, mem_cons_of_mem statement among, returned⟩
    cases found with
    | none => exact fromLater member
    | some details =>
      rcases List.mem_append.mp member with first | inLater
      · exact ⟨statement, mem_cons_self, runStatement_returns own first⟩
      · exact fromLater inLater

theorem readFamilies_eq_ok {scope : ReadScope} {schema : Schema}
    {items : List CanonicalDetailSelection} :
    readFamilies sql contents scope schema items = .ok result ↔
      ∃ statements, prepareFamilies scope schema items = .ok statements ∧
        runStatements sql contents statements = .ok result := by
  induction items generalizing schema result with
  | nil => simp [readFamilies, prepareFamilies, runStatements]
  | cons item rest ih =>
    rw [readFamilies, bind_eq_ok]
    constructor
    · rintro ⟨⟨columns, next⟩, reflected, read⟩
      simp only [bind_eq_ok, pure_eq_ok] at read
      obtain ⟨statement, prepared, found, ran, later, others, rfl⟩ := read
      obtain ⟨statements, preparedLater, ranLater⟩ := ih.mp others
      refine ⟨statement :: statements, prepareFamilies_cons.mpr
        ⟨columns, next, statement, statements, reflected, prepared, preparedLater, rfl⟩, ?_⟩
      rw [runStatements]
      simp only [bind_eq_ok, pure_eq_ok]
      exact ⟨found, ran, later, ranLater, by rw [(familyStatement_scoped prepared).1]⟩
    · rintro ⟨statements, prepared, ran⟩
      obtain ⟨columns, next, statement, later, reflected, own, others, rfl⟩ :=
        prepareFamilies_cons.mp prepared
      rw [runStatements] at ran
      simp only [bind_eq_ok, pure_eq_ok] at ran
      obtain ⟨found, ranOwn, result, ranLater, rfl⟩ := ran
      refine ⟨(columns, next), reflected, ?_⟩
      simp only [bind_eq_ok, pure_eq_ok]
      exact ⟨statement, own, found, ranOwn, result, ih.mpr ⟨later, others, ranLater⟩,
        by rw [(familyStatement_scoped own).1]⟩

end Runs

/-- A database whose views hold one row between them. -/
def onlyRow (view : String) (row : Row) : Contents where
  rows := fun other => if other = view then [row] else []
  answers := fun _ => true

section OnlyRow

variable {sql : Sql} {view : String} {row : Row} {statement : FamilyStatement}

theorem runStatement_other (missed : statement.item.source.projectionView = view →
      statement.selects sql row = false) :
    runStatement sql (onlyRow view row) statement = .ok (some []) := by
  have nothing : statement.fetch sql (onlyRow view row) = [] := by
    apply List.eq_nil_iff_forall_not_mem.mpr
    intro other member
    obtain ⟨held, selected⟩ := mem_fetch.mp member
    unfold onlyRow at held
    dsimp only at held
    split at held
    case isTrue same =>
      obtain rfl := List.mem_singleton.mp held
      rw [missed same] at selected
      exact Bool.false_ne_true selected
    case isFalse => exact absurd held not_mem_nil
  have answered : (onlyRow view row).answers statement.item.selection.family = true := rfl
  unfold runStatement
  rw [if_pos answered, nothing]
  unfold observations
  split <;> rfl

variable {detail : RecordDetail}

theorem runStatement_only (same : statement.item.source.projectionView = view)
    (selected : statement.selects sql row = true)
    (built : buildRecordDetail sql statement row = .ok detail) :
    runStatement sql (onlyRow view row) statement = .ok (some [detail]) := by
  have fetched : statement.fetch sql (onlyRow view row) = [row] := by
    unfold FamilyStatement.fetch onlyRow
    dsimp only
    rw [if_pos same, filter_cons_of_pos selected, filter_nil, mergeSort_singleton]
  have answered : (onlyRow view row).answers statement.item.selection.family = true := rfl
  unfold runStatement
  rw [if_pos answered, fetched, observations_singleton, mapM_cons, built]
  rfl

variable {statements : List FamilyStatement}

theorem runStatements_missed (missed : ∀ other ∈ statements, other.selects sql row = false) :
    runStatements sql (onlyRow view row) statements =
      .ok { details := [], failedFamilies := [] } := by
  induction statements with
  | nil => rfl
  | cons other rest ih =>
    rw [forall_mem_cons] at missed
    rw [runStatements, runStatement_other fun _ => missed.1, ih missed.2]
    rfl

theorem runStatements_only (distinct : statements.Pairwise fun first second =>
      first.item.selection.family ≠ second.item.selection.family)
    (byFamily : ∀ other ∈ statements, other.selects sql row = true →
      row "family_key" = .text other.item.selection.family)
    (member : statement ∈ statements)
    (same : statement.item.source.projectionView = view)
    (selected : statement.selects sql row = true)
    (built : buildRecordDetail sql statement row = .ok detail) :
    runStatements sql (onlyRow view row) statements =
      .ok { details := [detail], failedFamilies := [] } := by
  have own := byFamily statement member selected
  have missed : ∀ other ∈ statements,
      other.item.selection.family ≠ statement.item.selection.family →
        other.selects sql row = false := by
    intro other among apart
    rw [← Bool.not_eq_true]
    intro also
    have family := (byFamily other among also).symm.trans own
    exact apart (CellValue.text.inj family)
  induction statements with
  | nil => exact absurd member not_mem_nil
  | cons first rest ih =>
    obtain ⟨apart, distinctRest⟩ := List.pairwise_cons.mp distinct
    rw [forall_mem_cons] at missed
    rw [runStatements]
    rcases List.mem_cons.mp member with rfl | later
    · rw [runStatement_only same selected built, runStatements_missed fun other inRest =>
          missed.2 other inRest (apart other inRest).symm]
      rfl
    · rw [runStatement_other fun _ => missed.1 (apart statement later),
        ih distinctRest (fun other inRest =>
          byFamily other (mem_cons_of_mem first inRest)) later missed.2]
      rfl

end OnlyRow

end McpAssistant.BusinessQuery.DetailFacts
