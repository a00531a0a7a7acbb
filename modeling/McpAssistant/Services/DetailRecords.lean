import McpAssistant.Services.StreamProducer

/-!
# Detail facts and the records that own them

An envelope carries its detail facts flat, and again under the records that own
them.  The terminal frame carries neither: facts stream ahead in frames of
their own, and the panel folds them back by answer and by owner.
-/

namespace McpAssistant.Services.DetailRecords

open Foundations.JsonReading
open AskEvents

structure RecordRef where
  resource : String
  recordId : Int
  label : Option String := none
  href : Option String := none
  preview : Option Json := none
  rowIndex : Option Nat := none

structure RecordResult where
  ref : RecordRef
  fields : Row := []
  details : List RecordDetail := []

/-- What an answer says about its rows. -/
structure AnsweredRows where
  rows : List Row
  recordRefs : List RecordRef := []
  recordDetails : List RecordDetail := []

def idText : Json → String
  | .integer value => toString value
  | .text value => value
  | _ => ""

/-- A detail belongs to the record whose id is its owner's, of its owner's
resource where it names one, and to no record when it names no owner. -/
def ownsDetail (ref : RecordRef) (detail : RecordDetail) : Bool :=
  match detail.ownerId with
  | none => false
  | some ownerId =>
    idText ownerId = toString ref.recordId &&
      match detail.ownerResource with
      | none => true
      | some resource => resource = ref.resource

section Partition

variable (intOf : String → Option Int) (answered : AnsweredRows)

/-- A reference to one of the rows. -/
def bindsRow (ref : RecordRef) : Bool :=
  match ref.rowIndex with
  | none => false
  | some index => index < answered.rows.length

def unboundRefs : List RecordRef :=
  answered.recordRefs.filter fun ref => !bindsRow answered ref

/-- Some adapters minted one reference per row without its index. -/
def refPerRow : Bool :=
  !answered.recordRefs.any (bindsRow answered) &&
    (unboundRefs answered).length = answered.rows.length

def sameOwner : String × Json → String × Json → Bool
  | (left, .integer leftId), (right, .integer rightId) =>
    left = right && leftId = rightId
  | (left, .text leftId), (right, .text rightId) =>
    left = right && leftId = rightId
  | _, _ => false

def ownerOf (detail : RecordDetail) : Option (String × Json) :=
  match detail.ownerResource, detail.ownerId with
  | some resource, some ownerId => some (resource, ownerId)
  | _, _ => none

def numericOwnerId : Json → Option Int
  | .integer value => some value
  | .text value => intOf value
  | _ => none

/-- The owner that every owned fact names, as a reference to the only row. -/
def recoveredRef : Option RecordRef :=
  match answered.recordDetails.filterMap ownerOf with
  | [] => none
  | owner :: owners =>
    if owners.all (sameOwner owner) then
      (numericOwnerId intOf owner.2).map fun recordId =>
        { resource := owner.1, recordId, rowIndex := some 0 }
    else none

/-- The references a row is listed under. -/
def refsOfRow (index : Nat) : List RecordRef :=
  if answered.recordRefs.any (bindsRow answered) then
    answered.recordRefs.filter fun ref => ref.rowIndex = some index
  else if refPerRow answered then
    (unboundRefs answered)[index]?.toList
  else if answered.rows.length = 1 then
    (recoveredRef intOf answered).toList
  else []

/-- Details are attached to a row only under a reference that proves who owns
them; a reference to no row is listed alone. -/
def recordResults : List RecordResult :=
  answered.rows.zipIdx.flatMap (fun (row, index) =>
    (refsOfRow intOf answered index).map fun ref =>
      { ref, fields := row
        details := answered.recordDetails.filter (ownsDetail ref) }) ++
    if refPerRow answered then []
    else (unboundRefs answered).map fun ref => ({ ref := ref } : RecordResult)

def aggregateResults : List Row :=
  answered.rows.zipIdx.filterMap fun (row, index) =>
    if (refsOfRow intOf answered index).isEmpty then some row else none

end Partition

/-- The sealed envelope with the results derived from its rows. -/
structure ResultEnvelope extends StreamProducer.Envelope where
  records : List RecordResult := []
  aggregates : List Row := []
  recordRefs : List RecordRef := []

/-- One answered part of a plan. -/
structure Answered extends AnsweredRows where
  answerQueryId : String
  answerText : String
  columns : List AskTables.ResultColumn := []
  presentation : Option ResultPresentation := none
  totalRowCount : Nat

def buildUnifiedEnvelope (intOf : String → Option Int) (answered : Answered) : ResultEnvelope where
  answerQueryId := answered.answerQueryId
  answerText := answered.answerText
  rows := answered.rows
  columns := answered.columns
  presentation := answered.presentation
  totalRowCount := answered.totalRowCount
  recordDetails := answered.recordDetails
  records := recordResults intOf answered.toAnsweredRows
  aggregates := aggregateResults intOf answered.toAnsweredRows
  recordRefs := answered.recordRefs

/-- An answered outcome on the wire; its singular envelope is the first. -/
structure AnsweredOutcome where
  envelope : ResultEnvelope
  companions : List ResultEnvelope := []

def AnsweredOutcome.envelopes (wire : AnsweredOutcome) : List ResultEnvelope :=
  wire.envelope :: wire.companions

def serializeAnswered (intOf : String → Option Int) (answered : Answered)
    (companions : List Answered) : AnsweredOutcome where
  envelope := buildUnifiedEnvelope intOf answered
  companions := companions.map (buildUnifiedEnvelope intOf)

/-- A receipt keeps no row fact. -/
def terminalEnvelope (envelope : ResultEnvelope) : ResultEnvelope :=
  { envelope with rows := [], records := [], recordDetails := [], aggregates := [] }

def terminalForm (wire : AnsweredOutcome) : AnsweredOutcome where
  envelope := terminalEnvelope wire.envelope
  companions := wire.companions.map terminalEnvelope

/-- The details that streamed, by run and by answer. -/
abbrev StreamedDetails := List (String × List (String × List RecordDetail))

def detailsOf (byQuery : List (String × List RecordDetail)) (key : String) : List RecordDetail :=
  (byQuery.lookup key).getD []

def rememberDetails (streamed : StreamedDetails) (event : AskV2Event) : StreamedDetails :=
  match event.content with
  | .recordDetails answerQueryId details =>
    let byQuery := (streamed.lookup event.runId.text).getD []
    let key := answerQueryId.getD ""
    putKey event.runId.text (putKey key (detailsOf byQuery key ++ details) byQuery) streamed
  | _ => streamed

def foldDetails (byQuery : List (String × List RecordDetail))
    (envelope : ResultEnvelope) : ResultEnvelope :=
  let details := detailsOf byQuery envelope.answerQueryId
  if details.isEmpty then envelope
  else
    { envelope with
      records := envelope.records.map fun record =>
        { record with details := details.filter (ownsDetail record.ref) }
      recordDetails := details }

def withStreamedDetails (streamed : StreamedDetails) (runId : RunId)
    (outcome : AnsweredOutcome) : AnsweredOutcome × StreamedDetails :=
  let rest := eraseKey streamed runId.text
  match streamed.lookup runId.text with
  | none => (outcome, rest)
  | some byQuery =>
    ({ envelope := foldDetails byQuery outcome.envelope
       companions := outcome.companions.map (foldDetails byQuery) }, rest)

end McpAssistant.Services.DetailRecords
