import McpAssistant.BusinessQuery.DetailReads
import Mathlib

/-!
# Details belong to the records of their answer

A detail belongs to its answer when the answer gives its owner's id for its
owner's resource, and its row passes the scope of the principal.  The engine
keeps every row in scope.  It keeps the owners right exactly as far as the list
of ids is right for each family that is read by it: the executor gathers one list
for all of them.
-/

namespace McpAssistant.BusinessQuery.DetailOwnership

open Definitions QueryPlan Visibility Scopes DetailSources DetailEngine DetailFacts DetailReads
open EvidenceSealing (CellValue)
open Foundations.Fallible List

variable (sql : Sql) (schema : Schema) (bundle : DetailBundle)
  (plan : ScopedPlan) (rows : List AnswerRow) (recordRefs : List RecordRef)
  (principal : Option Principal)

/-- The ids an answer gives for a resource: of its members, of its references,
and the bare ids when the selections have no other owning resource. -/
def identifiedIds (selections : List DetailSelection) (resource : String) : List CellValue :=
  rows.filterMap (fun row => heldId row (resource ++ ".id")) ++
    (recordRefs.filter fun ref => ref.resource = resource).map (fun ref => .integer ref.recordId) ++
    if ownerResources bundle selections = [resource] then
      rows.filterMap fun row => heldId row "id"
    else []

def Identifies (resource : String) (id : CellValue) : Prop :=
  ∃ known ∈ identifiedIds bundle rows recordRefs plan.plan.detailSelections
    resource, sql.readId known = sql.readId id

structure InScope (reader : Principal) (source : DetailSource) (row : Row) : Prop where
  entity : ∀ column own, source.scopeColumns.entity = some column →
    reader.entityId = some own → reader.isCrossEntity = false →
    sql.equals (row column) (.integer own) = true
  department : ∀ column own, source.scopeColumns.department = some column →
    departmentOf reader = some own →
    sql.equals (row column) (.integer own) = true

structure Belongs (contents : Contents) (detail : RecordDetail)
    (source : DetailSource) (row : Row) : Prop where
  signed : source ∈ bundle.detailSources
  held : row ∈ contents.rows source.projectionView
  family : detail.family = source.familyKey
  ownerResource : detail.ownerResource = some source.ownerResource
  ownerId : detail.ownerId = sql.readId (row source.ownerColumn)
  identified : Identifies sql bundle plan rows recordRefs source.ownerResource detail.ownerId
  inScope : ∀ reader, scopedPrincipal principal plan = some reader → InScope sql reader source row

/-- Whatever the views hold, every detail that is returned belongs to the
answer. -/
def DetailsBelong : Prop :=
  ∀ contents details failedFamilies,
    executeDetailReads sql contents schema bundle plan rows recordRefs principal =
      .ok (.read details failedFamilies) →
    ∀ detail ∈ details, ∃ source row,
      Belongs sql bundle plan rows recordRefs principal contents detail source row

/-- What the engine is asked for, its ids already distinct and bounded. -/
def boundedScope (entityId : FilterValue) (reader : Principal) : ReadScope :=
  readScope bundle plan
    (boundedIds (gatherOwnerIds bundle plan.plan.detailSelections rows recordRefs))
    entityId reader

/-- No part of the read is refused before it runs these statements. -/
structure Prepares (entityId : FilterValue) (reader : Principal)
    (canonical : List CanonicalDetailSelection)
    (statements : List FamilyStatement) : Prop where
  entity : entityFor principal plan = some entityId
  bound : scopedPrincipal principal plan = some reader
  resolved : resolve schema reader bundle plan.plan.detailSelections = .ok canonical
  prepared : prepareFamilies (boundedScope bundle plan rows recordRefs entityId reader) schema
    (firstOfFamilies canonical) = .ok statements

def CanOwn (statement : FamilyStatement) (id : CellValue) : Prop :=
  ∃ row : Row, statement.selects sql row = true ∧ statement.readable row = true ∧
    sql.equals (row statement.item.source.ownerColumn) id = true

/-- The answer gives each of the ids for the owning resource of each family that
is read by it. -/
def OwnersMatch : Prop :=
  ∀ entityId reader canonical statements,
    Prepares schema bundle plan rows recordRefs principal entityId reader canonical statements →
    ∀ statement ∈ statements, ∀ id ∈ boundedIds (gatherOwnerIds bundle
        plan.plan.detailSelections rows recordRefs),
      CanOwn sql statement id →
      Identifies sql bundle plan rows recordRefs statement.item.source.ownerResource id

variable {sql schema bundle plan rows recordRefs principal}

theorem Identifies.of_readId {resource : String} {id other : CellValue}
    (identified : Identifies sql bundle plan rows recordRefs resource id)
    (same : sql.readId id = sql.readId other) :
    Identifies sql bundle plan rows recordRefs resource other := by
  rcases identified with ⟨known, given, equal⟩
  exact ⟨known, given, equal.trans same⟩

theorem readId_readId (id : CellValue) : sql.readId (sql.readId id) = sql.readId id := by
  cases id with
  | text value =>
    cases read : sql.decimal value with
    | none => simp only [Sql.readId, read]
    | some number => simp only [Sql.readId, read]
  | _ => rfl

theorem mem_of_mem_boundedIds {ids : List CellValue} {id : CellValue}
    (member : id ∈ boundedIds ids) : id ∈ ids := by
  have distinct := mem_of_mem_take member
  rw [mem_eraseDups] at distinct
  exact (List.mem_filter.mp distinct).1

section Preparation

variable {entityId : FilterValue} {reader : Principal} {canonical : List CanonicalDetailSelection}
  {statements : List FamilyStatement} {statement : FamilyStatement}

theorem Prepares.sourceFor
    (prepares : Prepares schema bundle plan rows recordRefs principal entityId
      reader canonical statements)
    (member : statement ∈ statements) :
    statement.item.selection ∈ plan.plan.detailSelections ∧
      bundle.sourceFor statement.item.selection.family = some statement.item.source := by
  apply resolve_source prepares.resolved
  apply mem_of_mem_firstOfFamilies
  rw [← (prepareFamilies_scoped prepares.prepared).1]
  exact mem_map_of_mem member

theorem Prepares.distinct (prepares : Prepares schema bundle plan rows recordRefs principal entityId
      reader canonical statements) :
    statements.Pairwise fun first second =>
      first.item.selection.family ≠ second.item.selection.family := by
  have families : (firstOfFamilies canonical).Pairwise fun first second =>
      first.selection.family ≠ second.selection.family := firstOfFamilies_distinct
  rw [← (prepareFamilies_scoped prepares.prepared).1, pairwise_map] at families
  exact families

theorem entityFor_of_bound {own : Int} (entity : entityFor principal plan = some entityId)
    (bound : scopedPrincipal principal plan = some reader)
    (ofReader : reader.entityId = some own) :
    ∃ value, entityId = .integer value := by
  unfold entityFor at entity
  cases ofCaller : principal.bind Principal.entityId with
  | some value =>
    simp only [ofCaller] at entity
    exact ⟨value, (Option.some.inj entity).symm⟩
  | none =>
    cases ofPlan : plan.principal.bind Principal.entityId with
    | some value =>
      simp only [ofCaller, ofPlan] at entity
      exact ⟨value, (Option.some.inj entity).symm⟩
    | none =>
      exfalso
      unfold scopedPrincipal at bound
      cases planned : plan.principal with
      | some other =>
        rw [planned] at bound ofPlan
        obtain rfl := Option.some.inj bound
        exact Option.some_ne_none own (ofReader.symm.trans ofPlan)
      | none =>
        rw [planned] at bound
        obtain rfl : principal = some reader := bound
        exact Option.some_ne_none own (ofReader.symm.trans ofCaller)

theorem Prepares.inScope (prepares : Prepares schema bundle plan rows recordRefs principal entityId
      reader canonical statements)
    (member : statement ∈ statements) {row : Row}
    (selected : statement.selects sql row = true) :
    InScope sql reader statement.item.source row := by
  have holds := (prepareFamilies_scoped prepares.prepared).2 statement member
  rw [FamilyStatement.selects, Bool.and_eq_true, all_eq_true] at selected
  constructor
  · intro column own named ofReader notCross
    obtain ⟨checked, filtered⟩ := holds.entity column named
    obtain ⟨value, rfl⟩ := entityFor_of_bound prepares.entity prepares.bound ofReader
    obtain rfl : value = own := by
      unfold checkEntity at checked
      simp only [boundedScope, readScope, ofReader, notCross] at checked
      apply Int.repr_injective
      simpa [FilterValue.pyStr] using checked
    exact selected.2 _ filtered
  · intro column own named bound
    exact selected.2 _ (holds.department column own named bound)

end Preparation

section Run

variable {contents : Contents} {entityId : FilterValue} {reader : Principal}
  {canonical : List CanonicalDetailSelection}
  {statements : List FamilyStatement} {result : DetailReadResult}

theorem read_eq_ok {scope : ReadScope}
    (idsHeld : boundedIds scope.parentIds ≠ []) (selected : canonical ≠ []) :
    DetailEngine.read sql contents schema scope canonical = .ok result ↔ ∃ statements found,
        prepareFamilies { scope with parentIds := boundedIds scope.parentIds }
          schema (firstOfFamilies canonical) = .ok statements ∧
        runStatements sql contents statements = .ok found ∧
        { found with failedFamilies := sortedSet found.failedFamilies } = result := by
  have goesOn : ¬((boundedIds scope.parentIds).isEmpty = true ∨ canonical.isEmpty = true) := by
    simp [idsHeld, selected]
  unfold DetailEngine.read
  rw [if_neg goesOn]
  simp only [bind_eq_ok, pure_eq_ok, readFamilies_eq_ok]
  constructor
  · rintro ⟨found, ⟨statements, prepared, ran⟩, equal⟩
    exact ⟨statements, found, prepared, ran, equal⟩
  · rintro ⟨statements, found, prepared, ran, equal⟩
    exact ⟨found, ⟨statements, prepared, ran⟩, equal⟩

variable {details : List RecordDetail} {failedFamilies : List String} {detail : RecordDetail}

theorem readOutcome_returns {read : Except ReadFailure DetailReadResult}
    (ran : readOutcome plan read = .ok (.read details failedFamilies))
    (member : detail ∈ details) :
    ∃ result, read = .ok result ∧ detail ∈ result.details := by
  cases read with
  | ok result =>
    rw [readOutcome] at ran
    split at ran
    · exact nomatch ran
    · obtain ⟨rfl, -⟩ := DetailReadOutcome.read.inj (Except.ok.inj ran)
      exact ⟨result, rfl, member⟩
  | error failure =>
    cases failure with
    | refused reason =>
      rw [readOutcome] at ran
      split at ran
      · exact nomatch ran
      · obtain ⟨rfl, -⟩ := DetailReadOutcome.read.inj (Except.ok.inj ran)
        exact absurd member not_mem_nil
    | _ => exact nomatch ran

theorem executeDetailReads_returns
    (ran : executeDetailReads sql contents schema bundle plan rows recordRefs
      principal = .ok (.read details failedFamilies))
    (member : detail ∈ details) :
    ∃ entityId reader canonical statements,
      Prepares schema bundle plan rows recordRefs principal entityId reader canonical statements ∧
      ∃ statement ∈ statements, Returns sql contents statement detail := by
  have nothing : details ≠ [] := ne_nil_of_mem member
  unfold executeDetailReads at ran
  dsimp only at ran
  split at ran
  · obtain ⟨rfl, -⟩ := DetailReadOutcome.read.inj (Except.ok.inj ran)
    exact absurd rfl nothing
  split at ran
  · obtain ⟨rfl, -⟩ := DetailReadOutcome.read.inj (Except.ok.inj ran)
    exact absurd rfl nothing
  split at ran
  · exact nomatch ran
  rename_i entityId entity
  split at ran
  · exact nomatch ran
  rename_i reader bound
  obtain ⟨result, read, inResult⟩ := readOutcome_returns ran member
  unfold readRecordDetailsResult at read
  rw [bind_eq_ok] at read
  obtain ⟨canonical, resolved, readCanonical⟩ := read
  have idsHeld : boundedIds (readScope bundle plan (gatherOwnerIds bundle
      plan.plan.detailSelections rows recordRefs) entityId reader).parentIds ≠ [] := by
    intro none
    unfold DetailEngine.read at readCanonical
    rw [if_pos (Or.inl (by rw [none]; rfl))] at readCanonical
    obtain rfl := Except.ok.inj readCanonical
    exact absurd inResult not_mem_nil
  have selected : canonical ≠ [] := by
    intro none
    unfold DetailEngine.read at readCanonical
    rw [if_pos (Or.inr (by rw [none]; rfl))] at readCanonical
    obtain rfl := Except.ok.inj readCanonical
    exact absurd inResult not_mem_nil
  obtain ⟨statements, found, prepared, ranAll, rfl⟩ :=
    (read_eq_ok idsHeld selected).mp readCanonical
  exact ⟨entityId, reader, canonical, statements,
    ⟨entity, bound, resolved, prepared⟩, runStatements_returns ranAll inResult⟩

theorem executeDetailReads_answers
    (prepares : Prepares schema bundle plan rows recordRefs principal entityId
      reader canonical statements)
    (statementsHeld : statements ≠ [])
    (idsHeld : boundedIds (gatherOwnerIds bundle plan.plan.detailSelections rows recordRefs) ≠ [])
    (ran : runStatements sql contents statements = .ok { details, failedFamilies := [] }) :
    executeDetailReads sql contents schema bundle plan rows recordRefs principal =
      .ok (.read details []) := by
  obtain ⟨statement, member⟩ := exists_mem_of_ne_nil statements statementsHeld
  obtain ⟨inPlan, signed⟩ := prepares.sourceFor member
  have goesOn : ¬(plan.plan.detailSelections.isEmpty = true ∨
      bundle.detailSources.isEmpty = true) := by
    simp [ne_nil_of_mem inPlan, ne_nil_of_mem (sourceFor_mem signed).1]
  have gathered : ¬(gatherOwnerIds bundle plan.plan.detailSelections rows
      recordRefs).isEmpty = true := by
    obtain ⟨id, bounded⟩ := exists_mem_of_ne_nil _ idsHeld
    simp [ne_nil_of_mem (mem_of_mem_boundedIds bounded)]
  have selected : canonical ≠ [] := by
    rintro rfl
    have none : statements = [] := (Except.ok.inj prepares.prepared).symm
    exact statementsHeld none
  have answered : DetailEngine.read sql contents schema
      (readScope bundle plan (gatherOwnerIds bundle plan.plan.detailSelections
        rows recordRefs) entityId reader) canonical =
        .ok { details, failedFamilies := [] } :=
    (read_eq_ok idsHeld selected).mpr ⟨statements, _, prepares.prepared, ran, rfl⟩
  unfold executeDetailReads
  dsimp only
  rw [if_neg goesOn, if_neg gathered, prepares.entity]
  dsimp only
  rw [prepares.bound]
  dsimp only
  have resolved : readRecordDetailsResult sql contents schema bundle
      (readScope bundle plan (gatherOwnerIds bundle plan.plan.detailSelections
        rows recordRefs) entityId reader) plan.plan.detailSelections =
        .ok { details, failedFamilies := [] } := by
    unfold readRecordDetailsResult
    rw [bind_eq_ok]
    exact ⟨canonical, prepares.resolved, answered⟩
  rw [resolved, readOutcome, if_neg fun failed => failed.1 rfl]

end Run

/-- When the answer does not give a gathered id for the resource of a family that
can own it, a view holding just that fact shows it. -/
theorem ownersMatch_of_detailsBelong
    (belong : DetailsBelong sql schema bundle plan rows recordRefs principal) :
    OwnersMatch sql schema bundle plan rows recordRefs principal := by
  intro entityId reader canonical statements prepares statement member id gathered owns
  rcases owns with ⟨row, selected, readable, owned⟩
  obtain ⟨detail, built⟩ : ∃ detail, buildRecordDetail sql statement row =
      .ok detail := exists_buildRecordDetail readable
  have holds := (prepareFamilies_scoped prepares.prepared).2
  have ran := runStatements_only prepares.distinct
    (fun other among also => (holds other among).row_family also)
    member rfl selected built
  have answered := executeDetailReads_answers prepares
    (ne_nil_of_mem member) (ne_nil_of_mem gathered) ran
  obtain ⟨source, held, belongs⟩ := belong _ _ _ answered detail mem_cons_self
  obtain ⟨_, _, ownerResource, ownerId⟩ := buildRecordDetail_fields built
  have resource : source.ownerResource = statement.item.source.ownerResource :=
    Option.some.inj (belongs.ownerResource.symm.trans ownerResource)
  rw [← resource]
  apply belongs.identified.of_readId
  rw [ownerId, readId_readId]
  exact (equals_iff.mp owned).2.2

/-- Every detail belongs to the answer, whatever the views hold, exactly when the
answer gives each gathered id for the owning resource of each family it is read
for. -/
theorem details_belong_iff (sql : Sql) (schema : Schema) (bundle : DetailBundle)
    (plan : ScopedPlan) (rows : List AnswerRow) (recordRefs : List RecordRef)
    (principal : Option Principal) :
    DetailsBelong sql schema bundle plan rows recordRefs principal ↔
      OwnersMatch sql schema bundle plan rows recordRefs principal := by
  constructor
  · exact ownersMatch_of_detailsBelong
  · intro matched contents details failedFamilies ran detail member
    obtain ⟨entityId, reader, canonical, statements, prepares, statement, among,
      row, held, selected, built⟩ := executeDetailReads_returns ran member
    obtain ⟨_, signed⟩ := prepares.sourceFor among
    obtain ⟨readable, family, ownerResource, ownerId⟩ := buildRecordDetail_fields built
    obtain ⟨id, given, owned⟩ : ∃ id ∈ statement.parentIds,
        sql.equals (row statement.item.source.ownerColumn) id = true := by
      rw [FamilyStatement.selects, Bool.and_eq_true, any_eq_true] at selected
      exact selected.1
    rw [((prepareFamilies_scoped prepares.prepared).2 statement among).parentIds_eq] at given
    refine ⟨statement.item.source, row, ?_⟩
    constructor
    case signed => exact (sourceFor_mem signed).1
    case held => exact held
    case family => rw [family, (sourceFor_mem signed).2]
    case ownerResource => exact ownerResource
    case ownerId => exact ownerId
    case identified =>
        have known := matched entityId reader canonical statements prepares
          statement among id given ⟨row, selected, readable, owned⟩
        apply known.of_readId
        rw [ownerId, readId_readId]
        exact (equals_iff.mp owned).2.2.symm
    case inScope =>
        intro other bound
        obtain rfl := Option.some.inj (prepares.bound.symm.trans bound)
        exact prepares.inScope among selected

section JobsAndInvoices

/-- A comparison of ids that are numbers. -/
def plainSql : Sql where
  decimal := fun text => text.toNat?.map Int.ofNat
  notAfter := fun _ _ => true
  atMost := fun _ _ => true
  jsonLoads := fun _ => none

def attributeDetail (family hash owner : String) : SignedDetail where
  familyKey := family
  revisionHash := hash
  ownerResource := owner
  physicalSource := "ai_v2_bq_detail_attribute_fact"
  ownerColumn := "resource_id"
  valueColumn := "typed_value"
  valueKind := .text
  cardinality := .oneToOne
  scopeColumns := ⟨some "entity_id", none⟩

def attributeSource (family owner : String) : DetailSource where
  familyKey := family
  projectionView := "ai_v2_bq_detail_attribute_fact"
  ownerResource := owner
  ownerColumn := "resource_id"
  scopeColumns := ⟨some "entity_id", none⟩
  typedValueColumn := "typed_value"
  displayValueColumn := "display_value"

def finishHash : String :=
  "sha256:" ++ "aaaaaaaaaaaaaaaaaaaaaaaaaaaaaaaaaaaaaaaaaaaaaaaaaaaaaaaaaaaaaaaa"

def noteHash : String :=
  "sha256:" ++ "bbbbbbbbbbbbbbbbbbbbbbbbbbbbbbbbbbbbbbbbbbbbbbbbbbbbbbbbbbbbbbbb"

def attributeBundle : DetailBundle where
  detailDefinitions := [attributeDetail "job_finish" finishHash "job",
    attributeDetail "invoice_note" noteHash "invoice"]
  detailSources := [attributeSource "job_finish" "job", attributeSource "invoice_note" "invoice"]
  oneSourceEach := by decide

def attributeSchema : Schema where
  sourceContracts := fun view => detailViewColumns.lookup view
  physicalColumns := fun view => detailViewColumns.lookup view
  tables := fun _ => none

def salesManager : Principal where
  role := "manager"
  permissions := ["view job", "view invoice"]
  entityId := some 1

def invoicedJobs : ScopedPlan where
  plan :=
    { grain := .entityRows
      dimensions := ["job.id", "invoice.id"]
      detailSelections := [{ family := "job_finish" }, { family := "invoice_note" }] }
  resources := ["invoice", "job"]
  forced := []
  principal := some salesManager

def invoicedJob : AnswerRow :=
  [("job.id", .integer 7), ("invoice.id", .integer 3)]

def attributeItem (family hash owner : String) : CanonicalDetailSelection where
  selection := { family }
  definition := attributeDetail family hash owner
  definitions := [attributeDetail family hash owner]
  source := attributeSource family owner

def attributeStatement (family hash owner : String) : FamilyStatement where
  item := attributeItem family hash owner
  columns := detailSourceColumns (attributeSource family owner)
  parentIds := [.integer 3, .integer 7]
  filters := [.isText "family_key" family, .equals "entity_id" (.integer 1)]
  order := [("resource_id", .asc), ("revision_hash", .asc), ("source_updated_at", .asc)]

def otherJobFact : Row := fun column =>
  ([("resource_id", CellValue.integer 3), ("entity_id", .integer 1),
    ("family_key", .text "job_finish")].lookup column).getD .null

theorem prepares_invoicedJobs :
    Prepares attributeSchema attributeBundle invoicedJobs [invoicedJob] []
      (some salesManager) (.integer 1) salesManager
      [attributeItem "job_finish" finishHash "job", attributeItem "invoice_note" noteHash "invoice"]
      [attributeStatement "invoice_note" noteHash "invoice",
        attributeStatement "job_finish" finishHash "job"] := by
  constructor
  case entity => rfl
  case bound => rfl
  case resolved => rfl
  case prepared => rfl

/-- The facts of job 3 are shown for an answer of job 7 and invoice 3. -/
theorem not_detailsBelong_invoicedJobs :
    ¬DetailsBelong plainSql attributeSchema attributeBundle invoicedJobs
      [invoicedJob] [] (some salesManager) := by
  intro belong
  have canOwn : CanOwn plainSql
      (attributeStatement "job_finish" finishHash "job") (.integer 3) := by
    refine ⟨otherJobFact, ?_⟩
    decide +kernel
  have gathered : CellValue.integer 3 ∈ boundedIds (gatherOwnerIds attributeBundle
      invoicedJobs.plan.detailSelections [invoicedJob] []) := by
    decide +kernel
  obtain ⟨known, given, same⟩ := ownersMatch_of_detailsBelong belong _ _ _ _
    prepares_invoicedJobs (attributeStatement "job_finish" finishHash "job")
    (mem_cons_of_mem _ mem_cons_self) _ gathered canOwn
  have jobs : identifiedIds attributeBundle [invoicedJob] []
      invoicedJobs.plan.detailSelections "job" = [.integer 7] := by
    decide +kernel
  obtain rfl := List.mem_singleton.mp (jobs ▸ given)
  exact absurd same (by decide)

end JobsAndInvoices

end McpAssistant.BusinessQuery.DetailOwnership
