import McpAssistant.BusinessQuery.EvidenceSealing
import McpAssistant.Foundations.JsonText
import McpAssistant.Foundations.PrintedValues

/-!
# Execution events at rest

An execution event is stored as its metadata in canonical JSON, digests, and
its rows encrypted.  Resolving a stored record decrypts the rows, types them by
the members the metadata names, builds the event again and checks it against
the digests and the record's columns.
-/

namespace McpAssistant.BusinessQuery.ExecutionEvents

open Foundations Foundations.JsonReading Foundations.JsonText Foundations.PrintedValues
open EvidenceSealing (EventValueKind ResultMember fits)

inductive Raised where
  | resolution (message : String)
  | conflict (message : String)
  | invalidTag
  | valueError (message : String)
  | typeError
  | keyError (key : String)
  | attributeError
  | recursionError
  | invalidOperation
deriving DecidableEq

/-- The exceptions that the decoder turns into a resolution error. -/
def Raised.caught : Raised → Bool
  | .conflict _ => true
  | .invalidTag => true
  | .valueError _ => true
  | _ => false

/-- A cell of a result row; decimals, dates and instants by the texts they print
as, and values of no kind as they were parsed. -/
inductive Cell where
  | null
  | boolean (value : Bool)
  | integer (value : Int)
  | decimal (printed : String)
  | text (value : String)
  | date (printed : String)
  | datetime (printed : String)
  | other (json : Json)

def Cell.json : Cell → Json
  | .null => .null
  | .boolean value => .boolean value
  | .integer value => .integer value
  | .decimal printed => .text printed
  | .text value => .text value
  | .date printed => .text printed
  | .datetime printed => .text printed
  | .other json => json

/-- A row, its cells in the order of their names. -/
structure ResultRow where
  cells : List (String × Cell)
  ordered : cells.Pairwise fun first second => first.1 < second.1

def ResultRow.json (row : ResultRow) : Json :=
  .dict (row.cells.map fun (name, cell) => (name, cell.json))

def rowsJson (rows : List ResultRow) : Json :=
  .list (rows.map ResultRow.json)

def isDecimalKind : EventValueKind → Bool
  | .decimal | .percent | .currency => true
  | _ => false

def Cell.isOfKind : Cell → EventValueKind → Bool
  | .boolean _, .boolean => true
  | .integer _, .integer => true
  | .decimal _, kind => isDecimalKind kind
  | .text _, .string => true
  | .date _, .date => true
  | .datetime _, .datetime => true
  | _, _ => false

def validateCell (member : ResultMember) : Cell → Except Raised Unit
  | .null =>
    if member.nullable then .ok ()
    else .error (.conflict "event row violates member nullability")
  | cell =>
    if cell.isOfKind member.valueKind then .ok ()
    else .error (.conflict "event row violates member value kind")

def ResultRow.hasNames (row : ResultRow) (names : List String) : Bool :=
  names.all (row.cells.map Prod.fst).contains && (row.cells.map Prod.fst).all names.contains

def memberNamed (members : List ResultMember) (name : String) : Option ResultMember :=
  members.find? fun member => member.name = name

def validateResultRows (members : List ResultMember) (rows : List ResultRow) : Except Raised Unit :=
  let names := members.map ResultMember.name
  if ¬names.Nodup then
    .error (.conflict "event member schema contains duplicates")
  else if rows.any fun row => !row.hasNames names then
    .error (.conflict "event row does not match member schema")
  else
    rows.forM fun row => row.cells.forM fun (name, cell) =>
      match memberNamed members name with
      | none => .ok ()
      | some member => validateCell member cell

/-- The text of a parsed value that is no list and no dictionary. -/
def plainText : Json → Option String
  | .text value => some value
  | .integer value => some (toString value)
  | .boolean value => some (if value then "True" else "False")
  | .float _ printed => some printed
  | _ => none

def parsedCell : Json → Cell
  | .null => .null
  | .boolean value => .boolean value
  | .integer value => .integer value
  | .text value => .text value
  | json => .other json

/-- A parsed value as a member's kind has it. -/
def restoreCell (kind : Option EventValueKind) (json : Json) : Except Raised Cell :=
  if json.isNull then .ok .null
  else
    match kind with
    | some .decimal | some .percent | some .currency =>
      match (plainText json).bind decimalText with
      | some printed => .ok (.decimal printed)
      | none => .error .invalidOperation
    | some .date =>
      match (plainText json).bind dateText with
      | some printed => .ok (.date printed)
      | none => .error (.valueError "Invalid isoformat string")
    | some .datetime =>
      match (plainText json).bind datetimeText with
      | some printed => .ok (.datetime printed)
      | none => .error (.valueError "Invalid isoformat string")
    | _ => .ok (parsedCell json)

def kindNamed (members : List ResultMember) (name : String) : Option EventValueKind :=
  (memberNamed members.reverse name).map ResultMember.valueKind

def insertCell (name : String) (cell : Cell) : List (String × Cell) → List (String × Cell)
  | [] => [(name, cell)]
  | (other, held) :: cells =>
    if name < other then (name, cell) :: (other, held) :: cells
    else if other < name then (other, held) :: insertCell name cell cells
    else (name, cell) :: cells

variable {cells : List (String × Cell)}

theorem forall_insertCell {name : String} {cell : Cell} {holds : String → Prop} (new : holds name)
    (held : ∀ entry ∈ cells, holds entry.1) :
    ∀ entry ∈ insertCell name cell cells, holds entry.1 := by
  induction cells with
  | nil =>
    intro entry member
    rw [List.mem_singleton.mp member]
    exact new
  | cons first cells ih =>
    have rest := ih fun entry member => held entry (List.mem_cons_of_mem _ member)
    intro entry member
    simp only [insertCell] at member
    split at member
    · rcases List.mem_cons.mp member with rfl | member
      · exact new
      · exact held entry member
    · split at member
      · rcases List.mem_cons.mp member with rfl | member
        · exact held _ List.mem_cons_self
        · exact rest entry member
      · rcases List.mem_cons.mp member with rfl | member
        · exact new
        · exact held entry (List.mem_cons_of_mem _ member)

theorem ordered_insertCell {name : String} {cell : Cell}
    (ordered : cells.Pairwise fun first second => first.1 < second.1) :
    (insertCell name cell cells).Pairwise fun first second => first.1 < second.1 := by
  induction cells with
  | nil => exact List.pairwise_singleton _ _
  | cons first cells ih =>
    have ⟨before, rest⟩ := List.pairwise_cons.mp ordered
    simp only [insertCell]
    split
    · rename_i smaller
      apply List.pairwise_cons.mpr
      refine ⟨fun entry member => ?_, ordered⟩
      rcases List.mem_cons.mp member with rfl | member
      · exact smaller
      · exact lt_trans smaller (before entry member)
    · split
      · rename_i larger
        exact List.pairwise_cons.mpr ⟨forall_insertCell larger before, ih rest⟩
      · rename_i notSmaller notLarger
        have same := le_antisymm (not_lt.mp notLarger) (not_lt.mp notSmaller)
        apply List.pairwise_cons.mpr
        refine ⟨fun entry member => ?_, rest⟩
        rw [same]
        exact before entry member

def ResultRow.ofCells : List (String × Cell) → ResultRow
  | [] => ⟨[], List.Pairwise.nil⟩
  | (name, cell) :: cells =>
    let row := ofCells cells
    ⟨insertCell name cell row.cells, ordered_insertCell row.ordered⟩

def restoreRow (members : List ResultMember) (entries : Entries) : Except Raised ResultRow := do
  let cells ← entries.mapM fun (name, json) => do
    return (name, ← restoreCell (kindNamed members name) json)
  return ResultRow.ofCells cells

def restoreItem (members : List ResultMember) (row : Json) : Except Raised ResultRow :=
  match row with
  | .dict entries => restoreRow members entries
  | _ => .error .attributeError

def restoreTypedRows (members : List ResultMember) (rows : Json) : Except Raised (List ResultRow) :=
  match rows with
  | .list rows => rows.mapM (restoreItem members)
  | .dict [] | .text "" => .ok []
  | .dict _ | .text _ => .error .attributeError
  | _ => .error .typeError

/-! ## Event fields -/

inductive EventPayloadMode where
  | encrypted
  | digestOnly
deriving DecidableEq

inductive PayloadClassification where
  | evaluation
  | answerRelease
deriving DecidableEq

inductive ResultCompleteness where
  | complete
  | incomplete
deriving DecidableEq

inductive CoverageStatus where
  | verifiedComplete
  | incomplete
  | unknown
deriving DecidableEq

def EventPayloadMode.name : EventPayloadMode → String
  | .encrypted => "encrypted"
  | .digestOnly => "digest_only"

def PayloadClassification.name : PayloadClassification → String
  | .evaluation => "evaluation"
  | .answerRelease => "answer_release"

def ResultCompleteness.name : ResultCompleteness → String
  | .complete => "complete"
  | .incomplete => "partial"

def CoverageStatus.name : CoverageStatus → String
  | .verifiedComplete => "verified_complete"
  | .incomplete => "incomplete"
  | .unknown => "unknown"

def kindName : EventValueKind → String
  | .null => "null"
  | .boolean => "boolean"
  | .integer => "integer"
  | .decimal => "decimal"
  | .percent => "percent"
  | .currency => "currency"
  | .string => "string"
  | .date => "date"
  | .datetime => "datetime"

/-- An instant in microseconds, or the time on a clock without a zone. -/
inductive Stamp where
  | aware (instant : Int)
  | naive (clock : Int)
deriving DecidableEq

/-- Whether the first comes before the second; an instant and a clock time do
not compare. -/
def Stamp.precedes : Stamp → Stamp → Except Raised Bool
  | .aware first, .aware second => .ok (first < second)
  | .naive first, .naive second => .ok (first < second)
  | _, _ => .error .typeError

/-- A measured duration, with the text it prints as. -/
structure Milliseconds where
  value : Rat
  printed : String

/-- The evidence of one detail fact, redacted to digests. -/
structure DetailEvidence where
  family : String
  ownerResource : Option String := none
  ownerRefDigest : Option String := none
  revisionDigest : Option String := none
  definitionDigest : Option String := none
  profileDigest : Option String := none
  coverageStatus : Option String := none
  coverageDigest : Option String := none
  provenanceDigest : Option String := none

structure EventFields where
  answerQueryId : String
  rootAnswerQueryId : Option String := none
  projectId : String
  adapter : String
  backend : String
  planFingerprint : String
  compiledQueryDigest : String
  parameterScopeDigest : String
  bundleHash : String
  manifestHash : String
  resultMembers : List ResultMember
  resultDigest : String
  detailEvidence : List DetailEvidence := []
  detailEvidenceDigest : String
  returnedRowCount : Nat
  totalRowCount : Nat
  truncated : Bool
  databaseIdentity : String
  startedAt : Stamp
  finishedAt : Stamp
  retentionAt : Stamp
  payloadMode : EventPayloadMode
  payloadClassification : PayloadClassification := .evaluation
  route : Option String := none
  provider : Option String := none
  deployment : Option String := none
  outputMode : Option String := none
  effort : Option String := none
  inputTokens : Option Nat := none
  outputTokens : Option Nat := none
  correlationId : Option String := none
  caseId : Option String := none
  repeatIndex : Option Nat := none
  plannerAttemptId : Option String := none
  resolverQueryId : Option String := none
  classifierMs : Option Milliseconds := none
  plannerMs : Option Milliseconds := none
  sqlMs : Option Milliseconds := none
  detailReadMs : Option Milliseconds := none
  richRenderMs : Option Milliseconds := none
  finalizationMs : Option Milliseconds := none
  firstProgressMs : Option Milliseconds := none
  totalMs : Option Milliseconds := none
  resultCompleteness : ResultCompleteness := .complete
  coverageStatus : CoverageStatus := .verifiedComplete
  failedDetailFamilies : List String := []
  policyHash : Option String := none
  recordReferentDigest : Option String := none
  terminalReason : Option String := none

def fitsOptional (text : Option String) (least most : Nat) : Bool :=
  text.all fun text => fits text least most

def DetailEvidence.bounded (detail : DetailEvidence) : Bool :=
  fits detail.family 1 128 && fitsOptional detail.ownerResource 0 64 &&
    fitsOptional detail.ownerRefDigest 64 64 &&
    fitsOptional detail.revisionDigest 64 64 &&
    fitsOptional detail.definitionDigest 64 64 &&
    fitsOptional detail.profileDigest 64 64 &&
    fitsOptional detail.coverageStatus 0 64 &&
    fitsOptional detail.coverageDigest 64 64 &&
    fitsOptional detail.provenanceDigest 64 64

def EventFields.bounded (fields : EventFields) : Bool :=
  fits fields.answerQueryId 1 128 && fitsOptional fields.rootAnswerQueryId 0 128 &&
    fits fields.projectId 1 64 && fits fields.adapter 1 64 &&
    fits fields.backend 1 64 && fits fields.planFingerprint 64 64 &&
    fits fields.compiledQueryDigest 64 64 &&
    fits fields.parameterScopeDigest 64 64 && fits fields.bundleHash 64 64 &&
    fits fields.manifestHash 64 64 && fits fields.databaseIdentity 1 256 &&
    fields.detailEvidence.length ≤ 256 &&
    fields.detailEvidence.all DetailEvidence.bounded

def optionalText : Option String → Json
  | none => .null
  | some text => .text text

def optionalCount : Option Nat → Json
  | none => .null
  | some count => .integer count

def optionalMs : Option Milliseconds → Json
  | none => .null
  | some duration => .float duration.value duration.printed

def dumpMember (member : ResultMember) : Entries := [
  ("name", .text member.name),
  ("value_kind", .text (kindName member.valueKind)),
  ("nullable", .boolean member.nullable)
]

def DetailEvidence.dump (detail : DetailEvidence) : Entries := [
  ("family", .text detail.family),
  ("owner_resource", optionalText detail.ownerResource),
  ("owner_ref_digest", optionalText detail.ownerRefDigest),
  ("revision_digest", optionalText detail.revisionDigest),
  ("definition_digest", optionalText detail.definitionDigest),
  ("profile_digest", optionalText detail.profileDigest),
  ("coverage_status", optionalText detail.coverageStatus),
  ("coverage_digest", optionalText detail.coverageDigest),
  ("provenance_digest", optionalText detail.provenanceDigest)
]

def detailsJson (details : List DetailEvidence) : Json :=
  .list (details.map fun detail => .dict detail.dump)

/-- The fields as they print in JSON, given how a datetime does. -/
def EventFields.dump (stampText : Stamp → String) (fields : EventFields) :
    Entries := [
  ("schema_version", .integer 1),
  ("answer_query_id", .text fields.answerQueryId),
  ("root_answer_query_id", optionalText fields.rootAnswerQueryId),
  ("project_id", .text fields.projectId),
  ("adapter", .text fields.adapter),
  ("backend", .text fields.backend),
  ("plan_fingerprint", .text fields.planFingerprint),
  ("compiled_query_digest", .text fields.compiledQueryDigest),
  ("parameter_scope_digest", .text fields.parameterScopeDigest),
  ("bundle_hash", .text fields.bundleHash),
  ("manifest_hash", .text fields.manifestHash),
  ("result_members", .list (fields.resultMembers.map fun member => .dict (dumpMember member))),
  ("result_digest", .text fields.resultDigest),
  ("detail_evidence", detailsJson fields.detailEvidence),
  ("detail_evidence_digest", .text fields.detailEvidenceDigest),
  ("returned_row_count", .integer fields.returnedRowCount),
  ("total_row_count", .integer fields.totalRowCount),
  ("truncated", .boolean fields.truncated),
  ("database_identity", .text fields.databaseIdentity),
  ("started_at", .text (stampText fields.startedAt)),
  ("finished_at", .text (stampText fields.finishedAt)),
  ("retention_at", .text (stampText fields.retentionAt)),
  ("payload_mode", .text fields.payloadMode.name),
  ("payload_classification", .text fields.payloadClassification.name),
  ("route", optionalText fields.route),
  ("provider", optionalText fields.provider),
  ("deployment", optionalText fields.deployment),
  ("output_mode", optionalText fields.outputMode),
  ("effort", optionalText fields.effort),
  ("input_tokens", optionalCount fields.inputTokens),
  ("output_tokens", optionalCount fields.outputTokens),
  ("correlation_id", optionalText fields.correlationId),
  ("case_id", optionalText fields.caseId),
  ("repeat_index", optionalCount fields.repeatIndex),
  ("planner_attempt_id", optionalText fields.plannerAttemptId),
  ("resolver_query_id", optionalText fields.resolverQueryId),
  ("classifier_ms", optionalMs fields.classifierMs),
  ("planner_ms", optionalMs fields.plannerMs),
  ("sql_ms", optionalMs fields.sqlMs),
  ("detail_read_ms", optionalMs fields.detailReadMs),
  ("rich_render_ms", optionalMs fields.richRenderMs),
  ("finalization_ms", optionalMs fields.finalizationMs),
  ("first_progress_ms", optionalMs fields.firstProgressMs),
  ("total_ms", optionalMs fields.totalMs),
  ("result_completeness", .text fields.resultCompleteness.name),
  ("coverage_status", .text fields.coverageStatus.name),
  ("failed_detail_families", .list (fields.failedDetailFamilies.map .text)),
  ("policy_hash", optionalText fields.policyHash),
  ("record_referent_digest", optionalText fields.recordReferentDigest),
  ("terminal_reason", optionalText fields.terminalReason)
]

def EventFields.metadata (stampText : Stamp → String) (fields : EventFields) : Entries :=
  if fields.detailEvidence.isEmpty then
    (fields.dump stampText).filter fun entry =>
      entry.1 ≠ "detail_evidence" ∧ entry.1 ≠ "detail_evidence_digest"
  else fields.dump stampText

structure ExecutionEvent where
  fields : EventFields
  resultRows : List ResultRow
  integrityDigest : String

/-- A column of a stored record, of whatever type; of an object of no type that
matters, the text it prints as or the exception that printing raises, and
whether it can be a key. -/
inductive Column (Bytes : Type) where
  | none
  | text (value : String)
  | bytes (value : Bytes)
  | stamp (value : Stamp)
  | json (value : Json)
  | object (printed : Except Raised String) (hashable : Bool)

structure StoredExecutionEvent (Bytes : Type) where
  answerQueryId : Column Bytes
  projectId : Column Bytes
  payloadClassification : Column Bytes
  metadataJson : Column Bytes
  integrityDigest : Column Bytes
  resultDigest : Column Bytes
  payloadCiphertext : Column Bytes := .none
  payloadNonce : Column Bytes := .none
  payloadKeyVersion : Column Bytes := .none
  retentionAt : Column Bytes
  tombstonedAt : Column Bytes := .none

inductive EventPurpose where
  | evaluation
  | answerRelease
  | retention
  | artifactExport
deriving DecidableEq

structure EventAccessContext where
  projectId : String
  purpose : EventPurpose

structure EventEncryptionKeyring (Key : Type) where
  currentVersion : String
  keys : List (String × Key)

/-- The libraries that events rest on: the encoding of texts, SHA-256, AES-GCM,
how Python reads a float and prints a datetime and bytes, how deep it follows a
JSON text, and how the models print a datetime, read a member and read the
fields of an event. -/
structure Libraries (Key Bytes : Type) where
  utf8 : String → Bytes
  decode : Bytes → Option String
  sha256 : Bytes → String
  encrypt : Key → Bytes → Bytes → Bytes → Bytes
  decrypt : Key → Bytes → Bytes → Bytes → Except Raised Bytes
  floatOf : String → Json
  recursionLimit : Nat
  stampString : Stamp → String
  bytesString : Bytes → String
  stampText : Stamp → String
  readMember : Entries → Except String ResultMember
  readFields : Entries → Except String EventFields

/-- Names compare as text columns do. -/
def Column.isText {Bytes : Type} (column : Column Bytes) (value : String) : Bool :=
  match column with
  | .text found => found = value
  | _ => false

def Column.isNone {Bytes : Type} (column : Column Bytes) : Bool :=
  match column with
  | .none => true
  | _ => false

def Column.hashable {Bytes : Type} (column : Column Bytes) : Bool :=
  match column with
  | .json value => value.hashable
  | .object _ hashable => hashable
  | _ => true

section Codec

variable {Key Bytes : Type} (lib : Libraries Key Bytes)

def canonicalJsonStr (payload : Json) : Except Raised String :=
  if lib.recursionLimit < depth payload then .error .recursionError
  else if shortIntegers payload then
    .ok (String.ofList (dumps (sortKeys payload)))
  else
    .error (.valueError "Exceeds the limit (4300 digits) for integer string conversion")

def canonicalJson (payload : Json) : Except Raised Bytes :=
  (canonicalJsonStr lib payload).map lib.utf8

def canonicalDigest (payload : Json) : Except Raised String :=
  (canonicalJson lib payload).map lib.sha256

def Column.payload (column : Column Bytes) : Except Raised Json :=
  match column with
  | .none => .ok .null
  | .text value => .ok (.text value)
  | .bytes value => .ok (.text (lib.bytesString value))
  | .stamp value => .ok (.text (lib.stampString value))
  | .json value => (canonicalJsonStr lib value).map fun _ => value
  | .object printed _ => printed.map .text

def aadEntries (answerQueryId projectId integrityDigest resultDigest : Json) :
    Entries := [
  ("answer_query_id", answerQueryId),
  ("project_id", projectId),
  ("integrity_digest", integrityDigest),
  ("result_digest", resultDigest)
]

/-- The columns are printed in the order of their names. -/
def aad (record : StoredExecutionEvent Bytes) : Except Raised Bytes := do
  let answerQueryId ← record.answerQueryId.payload lib
  let integrityDigest ← record.integrityDigest.payload lib
  let projectId ← record.projectId.payload lib
  let resultDigest ← record.resultDigest.payload lib
  canonicalJson lib (.dict (aadEntries answerQueryId projectId integrityDigest resultDigest))

def detailEvidenceDigest (details : List DetailEvidence) : Except Raised String :=
  canonicalDigest lib (detailsJson details)

def recomputedIntegrityDigest (fields : EventFields) : Except Raised String :=
  canonicalDigest lib (.dict (fields.metadata lib.stampText))

/-- The event of given fields, whose digests are taken of its content. -/
def createEvent (draft : EventFields) (rows : List ResultRow) : Except Raised ExecutionEvent := do
  let detailEvidenceDigest ← detailEvidenceDigest lib draft.detailEvidence
  validateResultRows draft.resultMembers rows
  let resultDigest ← canonicalDigest lib (rowsJson rows)
  let fields := { draft with detailEvidenceDigest, resultDigest }
  if !fields.bounded then
    .error (.valueError "validation error for BusinessQueryExecutionEvent")
  else
    return {
      fields, resultRows := rows
      integrityDigest := ← recomputedIntegrityDigest lib fields }

def raiseWhen (wrong : Bool) (message : String) : Except Raised Unit :=
  if wrong then .error (.conflict message) else .ok ()

def validateDigests (event : ExecutionEvent) : Except Raised Unit := do
  let fields := event.fields
  validateResultRows fields.resultMembers event.resultRows
  raiseWhen ((← canonicalDigest lib (rowsJson event.resultRows)) ≠
    fields.resultDigest) "event result digest mismatch"
  raiseWhen ((← detailEvidenceDigest lib fields.detailEvidence) ≠
    fields.detailEvidenceDigest) "event detail evidence digest mismatch"
  raiseWhen ((← recomputedIntegrityDigest lib fields) ≠ event.integrityDigest)
    "event integrity digest mismatch"

def validateCounts (fields : EventFields) (rowCount : Nat) : Except Raised Unit := do
  raiseWhen (fields.returnedRowCount ≠ rowCount) "event returned-row digest mismatch"
  raiseWhen (fields.totalRowCount < fields.returnedRowCount) "event total-row digest mismatch"
  raiseWhen (← fields.finishedAt.precedes fields.startedAt) "event timing digest mismatch"
  raiseWhen (!(← fields.finishedAt.precedes fields.retentionAt))
    "event retention deadline is not in the future"

def validateIntegrity (event : ExecutionEvent) : Except Raised Unit := do
  validateDigests lib event
  validateCounts event.fields event.resultRows.length

def keyFor (keyring : EventEncryptionKeyring Key) (version : Column Bytes) : Except Raised Key :=
  let unavailable := Raised.valueError "event encryption key version unavailable"
  match version with
  | .text version =>
    match keyring.keys.lookup version with
    | some key => .ok key
    | none => .error unavailable
  | version => .error (if version.hashable then unavailable else .typeError)

/-- The record of an event, encrypted with a fresh nonce where its rows are
kept. -/
def encodeEvent (keyring : Option (EventEncryptionKeyring Key)) (nonce : Bytes)
    (event : ExecutionEvent) : Except Raised (StoredExecutionEvent Bytes) := do
  validateIntegrity lib event
  let metadataJson ← canonicalJson lib (.dict (event.fields.metadata lib.stampText))
  let record : StoredExecutionEvent Bytes := {
    answerQueryId := .text event.fields.answerQueryId
    projectId := .text event.fields.projectId
    payloadClassification := .text event.fields.payloadClassification.name
    metadataJson := .bytes metadataJson
    integrityDigest := .text event.integrityDigest
    resultDigest := .text event.fields.resultDigest
    retentionAt := .stamp event.fields.retentionAt }
  match event.fields.payloadMode, keyring with
  | .digestOnly, _ => return record
  | .encrypted, none =>
    .error (.conflict "event encryption key unavailable")
  | .encrypted, some keyring => do
      let rows ← canonicalJson lib (rowsJson event.resultRows)
      let associated ← aad lib record
      let key ← keyFor keyring (.text keyring.currentVersion : Column Bytes)
      return { record with
        payloadNonce := .bytes nonce
        payloadKeyVersion := .text keyring.currentVersion
        payloadCiphertext := .bytes (lib.encrypt key nonce rows associated) }

def purposeAllowed (classification : Column Bytes) (purpose : EventPurpose) : Bool :=
  if classification.isText "answer_release" then
    purpose = .answerRelease || purpose = .evaluation
  else purpose = .evaluation

def decryptPayload (keyring : EventEncryptionKeyring Key)
    (record : StoredExecutionEvent Bytes) : Except Raised Bytes := do
  let associated ← aad lib record
  let key ← keyFor keyring record.payloadKeyVersion
  match record.payloadNonce, record.payloadCiphertext with
  | .bytes nonce, .bytes ciphertext => lib.decrypt key nonce ciphertext associated
  | _, _ => .error .typeError

def loadText (text : String) : Except Raised Json :=
  match loads lib.floatOf lib.recursionLimit text with
  | .ok json => .ok json
  | .error .malformed => .error (.valueError "invalid JSON")
  | .error .tooDeep => .error .recursionError

def loadBytes (bytes : Bytes) : Except Raised Json :=
  match lib.decode bytes with
  | none => .error (.valueError "invalid encoding")
  | some text => loadText lib text

def loadColumn (column : Column Bytes) : Except Raised Json :=
  match column with
  | .text text => loadText lib text
  | .bytes bytes => loadBytes lib bytes
  | _ => .error .typeError

def readItem (item : Json) : Except Raised ResultMember :=
  match item with
  | .dict entries => (lib.readMember entries).mapError .valueError
  | _ => .error .typeError

/-- The items of the members entry; texts and dictionaries are gone through by
letter and by key. -/
def readMembers (listed : Json) : Except Raised (List ResultMember) :=
  match listed with
  | .list items => items.mapM (readItem lib)
  | .dict [] | .text "" => .ok []
  | _ => .error .typeError

def listedMembers (metadata : Json) : Except Raised (Entries × Json) :=
  match metadata with
  | .dict entries =>
    match entries.lookup "result_members" with
    | some listed => .ok (entries, listed)
    | none => .error (.keyError "result_members")
  | _ => .error .typeError

/-- The fields the metadata spell out; an argument given twice is refused before
any is validated. -/
def buildFields (entries : Entries) : Except Raised EventFields :=
  if hasKey entries "result_rows" || hasKey entries "integrity_digest" then
    .error .typeError
  else (lib.readFields entries).mapError .valueError

def textOf (column : Column Bytes) : Except Raised String :=
  match column with
  | .text value => .ok value
  | _ => .error (.valueError "Input should be a valid string")

def validateRecordBinding (record : StoredExecutionEvent Bytes)
    (event : ExecutionEvent) : Except Raised Unit :=
  let fields := event.fields
  let bound := record.answerQueryId.isText fields.answerQueryId &&
    record.projectId.isText fields.projectId &&
    record.payloadClassification.isText fields.payloadClassification.name &&
    record.resultDigest.isText fields.resultDigest &&
    record.integrityDigest.isText event.integrityDigest &&
    match record.retentionAt with
    | .stamp retentionAt => retentionAt = fields.retentionAt
    | _ => false
  if bound then .ok ()
  else .error (.resolution "execution event integrity check failed")

def eventOf (record : StoredExecutionEvent Bytes) (rawRows : Bytes) :
    Except Raised ExecutionEvent := do
  let rows ← loadBytes lib rawRows
  let metadata ← loadColumn lib record.metadataJson
  let (entries, listed) ← listedMembers metadata
  let members ← readMembers lib listed
  let resultRows ← restoreTypedRows members rows
  let fields ← buildFields lib entries
  let integrityDigest ← textOf record.integrityDigest
  let event : ExecutionEvent := { fields, resultRows, integrityDigest }
  validateIntegrity lib event
  validateRecordBinding record event
  return event

def openEvent (keyring : EventEncryptionKeyring Key)
    (record : StoredExecutionEvent Bytes) : Except Raised ExecutionEvent := do
  let rawRows ← decryptPayload lib keyring record
  eventOf lib record rawRows

/-- What the decoder raises for an exception it catches. -/
def resolutionOf (raised : Raised) : Raised :=
  match raised with
  | .valueError message =>
    .resolution
      (if (message.splitOn "key version").length > 1 then
        "execution event encryption key unavailable"
      else "execution event integrity check failed")
  | _ => .resolution "execution event integrity check failed"

/-- Whether now is the retention end or later. -/
def isExpired (retentionAt : Column Bytes) (now : Stamp) : Except Raised Bool :=
  match retentionAt with
  | .stamp retentionAt => (now.precedes retentionAt).map (!·)
  | _ => .error .typeError

def refuseWhen (refused : Bool) (message : String) : Except Raised Unit :=
  if refused then .error (.resolution message) else .ok ()

def decodeEvent (record : StoredExecutionEvent Bytes)
    (keyring : Option (EventEncryptionKeyring Key)) (access : EventAccessContext)
    (now : Stamp) : Except Raised ExecutionEvent := do
  refuseWhen (!record.projectId.isText access.projectId ||
      !purposeAllowed record.payloadClassification access.purpose)
    "execution event not accessible"
  refuseWhen (!record.tombstonedAt.isNone) "execution event tombstoned"
  refuseWhen (← isExpired record.retentionAt now) "execution event expired"
  refuseWhen (record.payloadCiphertext.isNone || record.payloadNonce.isNone ||
    record.payloadKeyVersion.isNone) "execution event payload unavailable"
  match keyring with
  | none => .error (.resolution "execution event encryption key unavailable")
  | some keyring =>
    match openEvent lib keyring record with
    | .ok event => .ok event
    | .error raised =>
      .error (if raised.caught then resolutionOf raised else raised)

end Codec

end McpAssistant.BusinessQuery.ExecutionEvents
