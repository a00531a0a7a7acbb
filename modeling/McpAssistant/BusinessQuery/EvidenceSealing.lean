import McpAssistant.Foundations.KeyedLog
import McpAssistant.BusinessQuery.CursorHandover
import McpAssistant.BusinessQuery.PlannedExecution

/-!
# Sealing an answer with its evidence

Every executed answer is sealed: an event with its id and its rows is appended
to the event store, and the answer shows that id.  First answers and later
pages have seals of their own.
-/

namespace McpAssistant.BusinessQuery.EvidenceSealing

open Scopes ValueResolution CursorHandover Foundations

inductive EventValueKind where
  | null
  | boolean
  | integer
  | decimal
  | percent
  | currency
  | string
  | date
  | datetime
deriving DecidableEq

inductive CellValue where
  | null
  | boolean (value : Bool)
  | integer (value : Int)
  | decimal (printed : String)
  | text (value : String)
  | date (day : Int)
  | datetime (instant : Int)
deriving DecidableEq

/-- Whether a text's length lies between two bounds. -/
def fits (text : String) (least most : Nat) : Bool :=
  decide (least ≤ text.length ∧ text.length ≤ most)

structure ResultMember where
  name : String
  valueKind : EventValueKind
  nullable : Bool := false
  named : fits name 1 128 = true
deriving DecidableEq

/-- A row, its cells in the order of their names. -/
structure ResultRow where
  cells : List (String × CellValue)
  ordered : cells.Pairwise fun first second => first.1 < second.1
deriving DecidableEq

def CellValue.isOfKind : CellValue → EventValueKind → Bool
  | .boolean _, .boolean => true
  | .integer _, .integer => true
  | .decimal _, .decimal => true
  | .decimal _, .percent => true
  | .decimal _, .currency => true
  | .text _, .string => true
  | .date _, .date => true
  | .datetime _, .datetime => true
  | _, _ => false

def validateCell (member : ResultMember) (value : CellValue) : Except String Unit :=
  if value = .null then
    if member.nullable then
      .ok ()
    else
      .error "event row violates member nullability"
  else if value.isOfKind member.valueKind then
    .ok ()
  else
    .error "event row violates member value kind"

/-- Whether a row has a cell for every name and for no other. -/
def ResultRow.hasNames (row : ResultRow) (names : List String) : Bool :=
  names.all (row.cells.map Prod.fst).contains && (row.cells.map Prod.fst).all names.contains

def validateResultRows (members : List ResultMember) (rows : List ResultRow) : Except String Unit :=
  let names := members.map ResultMember.name
  if ¬names.Nodup then
    .error "event member schema contains duplicates"
  else if rows.any fun row => !row.hasNames names then
    .error "event row does not match member schema"
  else
    rows.forM fun row => row.cells.forM fun (name, value) =>
      match members.find? fun member => member.name == name with
      | none => .ok ()
      | some member => validateCell member value

/-- What an adapter reports of the query it ran. -/
structure AdapterExecutionEvidence where
  adapter : String
  backend : String
  compiledQueryDigest : String
  parameterScopeDigest : String
  resultMembers : List ResultMember
  resultRows : List ResultRow
  totalRowCount : Nat
  truncated : Bool
  databaseIdentity : String
  startedAt : Int
  finishedAt : Int
  pageable : Bool := false
deriving DecidableEq

/-- The identity and retention a runner supplies for one execution. -/
structure EvidenceContext extends Evidence where
  projectId : String
  retentionAt : Int
  projectNonempty : projectId ≠ "" := by decide

/-- A record's detail fact, as the event names it: its family and its owner. -/
structure RecordDetail where
  family : String
  ownerResource : Option String := none
deriving DecidableEq

def buildDetailEvidence (details : List RecordDetail) : Except String (List RecordDetail) :=
  if 256 < details.length then
    .error "detail evidence exceeds bounded item limit"
  else if details.any fun detail => detail.family = "" then
    .error "detail evidence family is required"
  else if details.all fun detail => fits detail.family 1 128 &&
      (detail.ownerResource.getD "").length ≤ 64 then
    .ok details
  else
    .error "detail evidence field is too long"

/-- The fields of an event that its creation reads. -/
structure EventFields where
  answerQueryId : String
  rootAnswerQueryId : Option String
  projectId : String
  adapter : String
  backend : String
  compiledQueryDigest : String
  parameterScopeDigest : String
  bundleHash : String
  manifestHash : String
  resultMembers : List ResultMember
  resultRows : List ResultRow
  detailEvidence : List RecordDetail := []
  returnedRowCount : Nat
  totalRowCount : Nat
  truncated : Bool
  databaseIdentity : String
  startedAt : Int
  finishedAt : Int
  retentionAt : Int
deriving DecidableEq

def EventFields.bounded (fields : EventFields) : Bool :=
  fits fields.answerQueryId 1 128 &&
    fits (fields.rootAnswerQueryId.getD "") 0 128 &&
    fits fields.projectId 1 64 && fits fields.adapter 1 64 &&
    fits fields.backend 1 64 && fits fields.compiledQueryDigest 64 64 &&
    fits fields.parameterScopeDigest 64 64 && fits fields.bundleHash 64 64 &&
    fits fields.manifestHash 64 64 && fits fields.databaseIdentity 1 256

/-- An event, whose rows are of its members' kinds. -/
structure ExecutionEvent extends EventFields where
  validRows : validateResultRows resultMembers resultRows = .ok ()
  isBounded : toEventFields.bounded = true
deriving DecidableEq

def createEvent (fields : EventFields) : Except String ExecutionEvent :=
  match validRows : validateResultRows fields.resultMembers fields.resultRows with
  | .error message => .error message
  | .ok () =>
    if isBounded : fields.bounded = true then
      .ok ⟨fields, validRows, isBounded⟩
    else
      .error "execution event field is out of bounds"

/-- The digest without its algorithm's mark. -/
def bareDigest (value : String) : Except String String :=
  let mark := "sha256:".toList
  let digest :=
    if mark.isPrefixOf value.toList then
      String.ofList (value.toList.drop mark.length)
    else
      value
  if digest.length = 64 then
    .ok digest
  else
    .error "business query evidence digest is invalid"

/-- What both seals put into an event besides its id, its root, its project and
its details. -/
def eventFields (id : String) (root : Option String) (projectId : String)
    (details : List RecordDetail) (facts : AdapterExecutionEvidence)
    (scope : ScopedPlan) (manifestHash : Option String) (retentionAt : Int) :
    Except String EventFields := do
  let bundleHash ← bareDigest (scope.bundleHash.getD "")
  let manifestHash ← bareDigest (manifestHash.getD "")
  return {
    answerQueryId := id
    rootAnswerQueryId := root
    projectId := projectId
    adapter := facts.adapter
    backend := facts.backend
    compiledQueryDigest := facts.compiledQueryDigest
    parameterScopeDigest := facts.parameterScopeDigest
    bundleHash := bundleHash
    manifestHash := manifestHash
    resultMembers := facts.resultMembers
    resultRows := facts.resultRows
    detailEvidence := details
    returnedRowCount := facts.resultRows.length
    totalRowCount := facts.totalRowCount
    truncated := facts.truncated
    databaseIdentity := facts.databaseIdentity
    startedAt := facts.startedAt
    finishedAt := facts.finishedAt
    retentionAt := retentionAt }

/-- What becomes of an append that the store accepts: it is kept, it is lost
before it is kept, or it is kept and its confirmation never arrives. -/
inductive Delivery where
  | kept
  | lost
  | unconfirmed
deriving DecidableEq

/-- An event store as runs meet it: whether its encryption key is there, and
what becomes of each append. -/
structure EventStorePort where
  keyAvailable : Bool := true
  delivery : Nat → Delivery

/-- The events a store holds, and how many appends it was sent. -/
structure Journal where
  events : List ExecutionEvent := []
  appends : Nat := 0

def validateIntegrity (event : ExecutionEvent) : Except String Unit :=
  if event.returnedRowCount ≠ event.resultRows.length then
    .error "event returned-row digest mismatch"
  else if event.totalRowCount < event.returnedRowCount then
    .error "event total-row digest mismatch"
  else if event.finishedAt < event.startedAt then
    .error "event timing digest mismatch"
  else if event.retentionAt ≤ event.finishedAt then
    .error "event retention deadline is not in the future"
  else
    .ok ()

def encodeEvent (port : EventStorePort) (event : ExecutionEvent) : Except String Unit := do
  validateIntegrity event
  if port.keyAvailable then
    return ()
  else
    throw "event encryption key unavailable"

def eventId (event : ExecutionEvent) : String :=
  event.answerQueryId

def storedEvent (events : List ExecutionEvent) (id : String) : Option ExecutionEvent :=
  KeyedLog.lookup eventId events id

section Store

variable {Digest : Type} [DecidableEq Digest] (digest : ExecutionEvent → Digest)

def appendEvent (port : EventStorePort) (events : List ExecutionEvent)
    (event : ExecutionEvent) : Except String (List ExecutionEvent) := do
  encodeEvent port event
  match storedEvent events event.answerQueryId with
  | none => return KeyedLog.insert eventId events event
  | some held =>
    if digest held = digest event then
      return events
    else
      throw "event idempotency digest mismatch"

/-- Appends an event, and says whether the append was confirmed. -/
def commitEvent (port : EventStorePort) (event : Except String ExecutionEvent)
    (journal : Journal) : Journal × Bool :=
  match event with
  | .error _ => (journal, false)
  | .ok event =>
    let appends := journal.appends + 1
    match appendEvent digest port journal.events event, port.delivery journal.appends with
    | .ok events, .kept => (⟨events, appends⟩, true)
    | .ok events, .unconfirmed => (⟨events, appends⟩, false)
    | _, _ => (⟨journal.events, appends⟩, false)

end Store

end McpAssistant.BusinessQuery.EvidenceSealing
