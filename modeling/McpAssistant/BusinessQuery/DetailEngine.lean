import McpAssistant.BusinessQuery.DetailSources

/-!
# The detail engine

The engine binds each selected family to its signed definitions and source, and
reads the facts of the owners it is given, a family at a time in the order of
their names.  It refuses the whole read for a selection or a source that is not
as signed; a source whose read fails loses its family alone.
-/

namespace McpAssistant.BusinessQuery.DetailEngine

open Definitions QueryPlan Visibility DetailSources
open EvidenceSealing (CellValue)
open Foundations.JsonReading

def maxParentIds : Nat := 50

/-- What a read raises: a refusal with its reason, a column the table does not
have, a row that makes no detail record, or a principal that is not there. -/
inductive ReadFailure where
  | refused (reason : String)
  | keyError (column : String)
  | validationError
  | attributeError
deriving DecidableEq

structure CanonicalDetailSelection where
  selection : DetailSelection
  definition : SignedDetail
  definitions : List SignedDetail
  source : DetailSource

def isRevisionHash (hash : String) : Bool :=
  hash.toList.take 7 = "sha256:".toList && hash.toList.length = 71 &&
    (hash.toList.drop 7).all fun char =>
      char.isDigit || ('a' ≤ char && char ≤ 'f') || ('A' ≤ char && char ≤ 'F')

def validateSelection (selection : DetailSelection) : Except ReadFailure Unit :=
  if selection.revisionMode = .asOf ∧ selection.asOf = none then
    .error (.refused "invalid_detail_revision")
  else if selection.revisionMode ≠ .asOf ∧ selection.asOf ≠ none then
    .error (.refused "invalid_detail_revision")
  else if selection.revisionMode = .exact ∧ selection.revisionHash = none then
    .error (.refused "invalid_detail_revision")
  else if selection.revisionMode ≠ .exact ∧ selection.revisionHash ≠ none then
    .error (.refused "invalid_detail_revision")
  else if selection.revisionHash.any fun hash => !isRevisionHash hash then
    .error (.refused "invalid_detail_revision")
  else .ok ()

def selectDefinitions (bundle : DetailBundle) (selection : DetailSelection) :
    Except ReadFailure (SignedDetail × List SignedDetail) :=
  let family := bundle.detailDefinitions.filter fun detail =>
    detail.familyKey = selection.family
  let definitions : List SignedDetail :=
    match selection.revisionHash with
    | some hash => family.filter fun detail => detail.revisionHash = hash
    | none =>
      if selection.revisionMode = .current then
        family.filter fun detail => detail.isCurrent
      else family
  if family.isEmpty then .error (.refused "unknown_detail")
  else
    match definitions with
    | [] => .error (.refused "stale_revision")
    | first :: rest =>
      .ok (rest.foldl (fun least detail =>
        if detail.revisionHash < least.revisionHash then detail else least)
        first, definitions)

def checkDefinitions (principal : Principal) (selection : DetailSelection)
    (definitions : List SignedDetail) : Except ReadFailure Unit :=
  if (selection.revisionMode = .current ∨ selection.revisionMode = .exact) ∧
      definitions.length ≠ 1 then
    .error (.refused "ambiguous_detail_revision")
  else if definitions.any fun detail =>
      !detailPermissionsSatisfied detail.toDetailDefinition principal then
    .error (.refused "unauthorized_detail")
  else .ok ()

def signedSource (bundle : DetailBundle) (family : String) : Except ReadFailure DetailSource :=
  match bundle.sourceFor family with
  | some source => .ok source
  | none => .error (.refused "detail_source_unavailable")

def registeredSourceColumns (schema : Schema) (source : DetailSource) :
    Except ReadFailure (List String) :=
  let signed := detailSourceColumns source
  if signed.isEmpty then .error (.refused "detail_source_mismatch")
  else
    match schema.sourceContracts source.projectionView with
    | none => .error (.refused "detail_source_unavailable")
    | some registered =>
      if signed.all registered.contains then .ok signed
      else .error (.refused "detail_source_mismatch")

def readsAsSigned (source : DetailSource) (detail : SignedDetail) : Bool :=
  source.projectionView = detail.physicalSource &&
    source.ownerResource = detail.ownerResource &&
    source.ownerColumn = detail.ownerColumn &&
    source.typedValueColumn = detail.valueColumn &&
    source.scopeColumns = detail.scopeColumns

def checkSource (source : DetailSource) (definitions : List SignedDetail) :
    Except ReadFailure Unit :=
  if definitions.all (readsAsSigned source) then .ok ()
  else .error (.refused "detail_source_mismatch")

def resolveSelection (schema : Schema) (principal : Principal)
    (bundle : DetailBundle) (selection : DetailSelection) :
    Except ReadFailure CanonicalDetailSelection := do
  validateSelection selection
  let (definition, definitions) ← selectDefinitions bundle selection
  checkDefinitions principal selection definitions
  let source ← signedSource bundle selection.family
  let _ ← registeredSourceColumns schema source
  checkSource source definitions
  pure { selection, definition, definitions, source }

/-- Authorizes each selection and binds it to one signed source. -/
def resolve (schema : Schema) (principal : Principal) (bundle : DetailBundle)
    (selections : List DetailSelection) :
    Except ReadFailure (List CanonicalDetailSelection) :=
  selections.mapM (resolveSelection schema principal bundle)

def firstOfFamilies (selections : List CanonicalDetailSelection) : List CanonicalDetailSelection :=
  (sortedSet (selections.map fun item => item.selection.family)).filterMap
    fun family => selections.find? fun item => item.selection.family = family

/-- The columns a source cannot be read without. -/
def requiredColumns (source : DetailSource) : List String :=
  [source.ownerColumn, source.typedValueColumn, source.displayValueColumn,
    "family_key"] ++
    source.scopeColumns.entity.toList ++ source.scopeColumns.department.toList

def reflectSourceTable (schema : Schema) (source : DetailSource) :
    Except ReadFailure (List String × Schema) := do
  let signed ← registeredSourceColumns schema source
  match schema.tables source.projectionView with
  | some columns => pure (columns, schema)
  | none =>
    match schema.physicalColumns source.projectionView with
    | none => .error (.refused "detail_source_unavailable")
    | some [] => .error (.refused "detail_source_unavailable")
    | some physical =>
      let columns := signed.filter physical.contains
      if (requiredColumns source).all columns.contains then
        pure (columns, { schema with
          tables := Function.update schema.tables source.projectionView (some columns) })
      else .error (.refused "detail_source_mismatch")

/-- What the engine reads for: the owners, the principal and the scope. -/
structure ReadScope where
  parentIds : List CellValue
  principal : Principal
  entityId : FilterValue
  departmentId : Option Int := none
  departmentRequired : Bool := false

/-- A condition on a row's columns. -/
inductive RowFilter where
  | isText (column text : String)
  | equals (column : String) (value : CellValue)
  | notAfter (column instant : String)

def RowFilter.accepts (sql : Sql) (row : Row) : RowFilter → Bool
  | .isText column text => row column = .text text
  | .equals column value => sql.equals (row column) value
  | .notAfter column instant => sql.notAfter (row column) instant

structure FamilyStatement where
  item : CanonicalDetailSelection
  columns : List String
  parentIds : List CellValue
  filters : List RowFilter
  order : List (String × Direction)

/-- A value as a statement compares it. -/
def cellOf : FilterValue → CellValue
  | .text value => .text value
  | .integer value => .integer value
  | .float _ printed => .decimal printed
  | .boolean value => .boolean value

def requireColumns (columns names : List String) : Except ReadFailure Unit :=
  match names.find? fun name => !columns.contains name with
  | some name => .error (.keyError name)
  | none => .ok ()

def requireColumn (columns : List String) (name : String) : Except ReadFailure Unit :=
  if columns.contains name then .ok ()
  else .error (.refused "detail_source_mismatch")

def checkEntity (scope : ReadScope) : Except ReadFailure Unit :=
  match scope.principal.entityId with
  | none =>
    if scope.principal.isCrossEntity then .ok ()
    else .error (.refused "missing_entity_scope")
  | some own =>
    if !scope.principal.isCrossEntity && scope.entityId.pyStr ≠ toString own then
      .error (.refused "entity_scope_mismatch")
    else .ok ()

def entityFilters (scope : ReadScope) (columns : List String) :
    Option String → Except ReadFailure (List RowFilter)
  | none => .ok []
  | some column => do
    checkEntity scope
    requireColumn columns column
    pure [.equals column (cellOf scope.entityId)]

def departmentFilters (scope : ReadScope) (columns : List String) :
    Option String → Except ReadFailure (List RowFilter)
  | none => .ok []
  | some column =>
    if scope.departmentRequired ∧ scope.departmentId = none then
      .error (.refused "missing_department_scope")
    else do
      requireColumn columns column
      pure (scope.departmentId.toList.map fun department =>
        .equals column (.integer department))

def revisionFilters (item : CanonicalDetailSelection) (columns : List String) : List RowFilter :=
  if columns.contains "revision_hash" ∧ (item.selection.revisionHash ≠ none ∨
      item.selection.revisionMode = .current) then
    [.isText "revision_hash" (item.selection.revisionHash.getD item.definition.revisionHash)]
  else []

def asOfFilters (item : CanonicalDetailSelection) (columns : List String) :
    Except ReadFailure (List RowFilter) :=
  if item.selection.revisionMode = .asOf then
    match item.selection.asOf with
    | none => .error (.refused "detail_source_mismatch")
    | some instant => do
      requireColumn columns "source_updated_at"
      pure [.notAfter "source_updated_at" instant]
  else .ok []

/-- The latest observation comes first in a read as of an instant. -/
def orderColumns (item : CanonicalDetailSelection) (columns : List String) :
    List (String × Direction) :=
  let present := fun column : String × Direction => columns.contains column.1
  (item.source.ownerColumn, .asc) ::
    if item.selection.revisionMode = .asOf then
      [("source_updated_at", .desc), ("revision", .desc), ("revision_hash", .asc)].filter present
    else
      [("revision_hash", .asc), ("source_updated_at", .asc)].filter present

def familyStatement (scope : ReadScope) (item : CanonicalDetailSelection)
    (columns : List String) : Except ReadFailure FamilyStatement := do
  let source := item.source
  requireColumns columns [source.ownerColumn, source.typedValueColumn, source.displayValueColumn]
  requireColumn columns "family_key"
  let entity ← entityFilters scope columns source.scopeColumns.entity
  let department ← departmentFilters scope columns source.scopeColumns.department
  let asOf ← asOfFilters item columns
  pure
    { item
      columns
      parentIds := scope.parentIds
      filters := .isText "family_key" item.selection.family ::
        entity ++ department ++ revisionFilters item columns ++ asOf
      order := orderColumns item columns }

section Facts

variable (sql : Sql)

def FamilyStatement.selects (statement : FamilyStatement) (row : Row) : Bool :=
  (statement.parentIds.any fun id =>
    sql.equals (row statement.item.source.ownerColumn) id) &&
    statement.filters.all fun filter => filter.accepts sql row

def Sql.precedes : List (String × Direction) → Row → Row → Bool
  | [], _, _ => true
  | (column, direction) :: rest, first, second =>
    if sql.atMost (first column) (second column) &&
        sql.atMost (second column) (first column) then
      Sql.precedes rest first second
    else if direction = .asc then sql.atMost (first column) (second column)
    else sql.atMost (second column) (first column)

def FamilyStatement.fetch (contents : Contents) (statement : FamilyStatement) : List Row :=
  ((contents.rows statement.item.source.projectionView).filter
    (statement.selects sql)).mergeSort (Sql.precedes sql statement.order)

def keepFirst {Key : Type} [DecidableEq Key] (key : Row → Key) : List Row → List Key → List Row
  | [], _ => []
  | row :: rest, seen =>
    if key row ∈ seen then keepFirst key rest seen
    else row :: keepFirst key rest (key row :: seen)

def observationKey (statement : FamilyStatement) (row : Row) : CellValue × CellValue :=
  (row statement.item.source.ownerColumn,
    if statement.item.definition.cardinality = .oneToMany ∧
        statement.columns.contains "attribute_key" then
      row "attribute_key"
    else .null)

def observations (statement : FamilyStatement) (rows : List Row) : List Row :=
  if statement.item.selection.revisionMode = .asOf then
    keepFirst (observationKey statement) rows []
  else rows

/-- A value as the driver gave it, or as its JSON text reads. -/
inductive TypedValue where
  | given (value : CellValue)
  | parsed (value : Json)

def parseTypedValue (kind : DetailValueKind) : CellValue → TypedValue
  | .text value =>
    match kind, sql.jsonLoads value with
    | .text, _ => .given (.text value)
    | .string, _ => .given (.text value)
    | _, none => .given (.text value)
    | .enum, some (.text parsed) => .given (.text parsed)
    | .date, some (.text parsed) => .given (.text parsed)
    | .datetime, some (.text parsed) => .given (.text parsed)
    | .enum, some _ => .given (.text value)
    | .date, some _ => .given (.text value)
    | .datetime, some _ => .given (.text value)
    | _, some parsed => .parsed parsed
  | value => .given value

structure RecordDetail extends EvidenceSealing.RecordDetail where
  typedValue : TypedValue
  displayValue : Option String
  revisionHash : Option String
  definitionRevision : String
  observationVersion : Option Int
  validation : Option String
  coverageStatus : String := "complete"
  coverage : String := "verified_complete"
  provenance : List (String × CellValue)
  ownerId : CellValue
  profileRevisionHash : Option String

/-- A row's value of a column the table may lack. -/
def FamilyStatement.optional (statement : FamilyStatement) (row : Row)
    (column : String) : CellValue :=
  if statement.columns.contains column then row column else .null

def textOf : CellValue → Option String
  | .text value => some value
  | _ => none

def isTextOrNull : CellValue → Bool
  | .text _ => true
  | .null => true
  | _ => false

/-- The row makes a detail record: its owner is an id, and the fields that hold
text hold nothing else. -/
def FamilyStatement.readable (statement : FamilyStatement) (row : Row) : Bool :=
  (match row statement.item.source.ownerColumn with
    | .integer _ => true
    | .text _ => true
    | _ => false) &&
  isTextOrNull (row statement.item.source.displayValueColumn) &&
  ["revision_hash", "validation_state", "profile_revision_hash"].all
    fun column => isTextOrNull (statement.optional row column)

/-- A text of digits, or a number that is not negative. -/
def observationVersion : CellValue → Option Int
  | .integer value => if 0 ≤ value then some value else none
  | .text value => sql.decimal value
  | .decimal printed => sql.decimal printed
  | _ => none

def buildRecordDetail (statement : FamilyStatement) (row : Row) : Except ReadFailure RecordDetail :=
  let source := statement.item.source
  let optional := statement.optional row
  let revision := textOf (optional "revision_hash")
  let definition :=
    (statement.item.definitions.find? fun definition =>
      some definition.revisionHash = revision).getD statement.item.definition
  if statement.readable row then
    .ok
      { family := statement.item.selection.family
        ownerResource := some source.ownerResource
        typedValue := parseTypedValue sql definition.valueKind (row source.typedValueColumn)
        displayValue := textOf (row source.displayValueColumn)
        revisionHash := revision
        definitionRevision := definition.revisionHash
        observationVersion := observationVersion sql (optional "revision")
        validation := textOf (optional "validation_state")
        provenance := ("projection_view", .text source.projectionView) ::
          ((["source", "provenance", "source_fingerprint", "source_updated_at",
            "profile_revision_hash", "unit"].filter
              statement.columns.contains).map fun column => (column, row column))
        ownerId := sql.readId (row source.ownerColumn)
        profileRevisionHash := textOf (optional "profile_revision_hash") }
  else .error .validationError

def runStatement (contents : Contents) (statement : FamilyStatement) :
    Except ReadFailure (Option (List RecordDetail)) :=
  if contents.answers statement.item.selection.family then do
    let details ← (observations statement (statement.fetch sql contents)).mapM
      (buildRecordDetail sql statement)
    pure (some details)
  else .ok none

structure DetailReadResult where
  details : List RecordDetail
  failedFamilies : List String

def DetailReadResult.after (later : DetailReadResult) (family : String) :
    Option (List RecordDetail) → DetailReadResult
  | some details => { later with details := details ++ later.details }
  | none => { later with failedFamilies := family :: later.failedFamilies }

def readFamilies (contents : Contents) (scope : ReadScope) :
    Schema → List CanonicalDetailSelection → Except ReadFailure DetailReadResult
  | _, [] => .ok { details := [], failedFamilies := [] }
  | schema, item :: rest => do
    let (columns, schema) ← reflectSourceTable schema item.source
    let statement ← familyStatement scope item columns
    let found ← runStatement sql contents statement
    let later ← readFamilies contents scope schema rest
    pure (later.after item.selection.family found)

/-- The first fifty distinct owners. -/
def boundedIds (ids : List CellValue) : List CellValue :=
  ((ids.filter (· ≠ .null)).eraseDups).take maxParentIds

/-- Reads authorized facts with owner and principal scope predicates. -/
def read (contents : Contents) (schema : Schema) (scope : ReadScope)
    (selections : List CanonicalDetailSelection) :
    Except ReadFailure DetailReadResult :=
  let parentIds := boundedIds scope.parentIds
  if parentIds.isEmpty ∨ selections.isEmpty then
    .ok { details := [], failedFamilies := [] }
  else do
    let result ← readFamilies sql contents { scope with parentIds } schema
      (firstOfFamilies selections)
    pure { result with failedFamilies := sortedSet result.failedFamilies }

/-- Resolves and reads details, keeping the failures of single families. -/
def readRecordDetailsResult (contents : Contents) (schema : Schema)
    (bundle : DetailBundle) (scope : ReadScope)
    (selections : List DetailSelection) : Except ReadFailure DetailReadResult := do
  let canonical ← resolve schema scope.principal bundle selections
  read sql contents schema scope canonical

end Facts

end McpAssistant.BusinessQuery.DetailEngine
