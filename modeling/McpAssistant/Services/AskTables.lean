import McpAssistant.Services.AskStream

/-!
# Painting a table

A wide table is trimmed to its most readable columns.  Its row batches are cut
before the start frame, by the bytes of the frames they would ride in, and the
table is then sent as a start frame, its batches and an end frame.
-/

namespace McpAssistant.Services.AskTables

open Foundations.JsonReading
open Foundations.Procedures
open AskEvents AskQueue AskStream

def maxRowsPerPage : Nat := 50

def maxColumns : Nat := 20

def maxCellBytes : Nat := 4 * 1024

inductive ResultValueKind where
  | boolean
  | integer
  | decimal
  | percent
  | currency
  | string
  | date
  | datetime
deriving DecidableEq

/-- A column as the seal declares it. -/
structure ResultColumn where
  key : String
  valueKind : Option ResultValueKind
  currencyKey : Option String := none
  isIdentifier : Bool := false
  role : Option TableColumnRole := none
  label : Option String := none
  displayKey : Option String := none
  hrefTemplate : Option String := none

def wireValueType : ResultValueKind → String
  | .integer => "integer"
  | .decimal => "decimal"
  | .percent => "percent"
  | .currency => "currency"
  | .date => "date"
  | .datetime => "datetime"
  | .boolean => "boolean"
  | .string => "text"

section Columns

variable (columnLabel : String → Option String → String)

def wireTableColumn (raw : ResultColumn) : Except String TableColumn :=
  let column (valueType : String) : TableColumn :=
    { key := raw.key
      label := columnLabel raw.key raw.label
      valueType
      currencyKey := raw.currencyKey
      hrefTemplate := raw.hrefTemplate
      role := raw.role
      displayKey := raw.displayKey }
  if raw.isIdentifier then .ok (column "id")
  else
    match raw.valueKind with
    | some kind => .ok (column (wireValueType kind))
    | none =>
      .error s!"result column {raw.key} has no wire type for its kind"

def wireTableColumns (rawColumns : List ResultColumn) : Except String (List TableColumn) :=
  rawColumns.mapM (wireTableColumn columnLabel)

end Columns

def fallbackTableTitle : String := "Results"

def summaryMaxChars : Nat := 240

/-- An id column with no look to show. -/
def bareId (column : TableColumn) : Bool :=
  column.valueType = "id" && column.displayKey.isNone

/-- The part of a placeholder's name after its last dot. -/
def afterLastDot (name : List Char) : List Char :=
  (name.reverse.takeWhile fun char => char ≠ '.').reverse

/-- A template as its placeholders and the text between them: a placeholder
opens with a brace, holds something, and runs to the next closing brace. -/
def placeholdersFrom : Nat → List Char → List (Char ⊕ List Char)
  | 0, chars => chars.map Sum.inl
  | _ + 1, [] => []
  | fuel + 1, char :: rest =>
    let name := rest.takeWhile fun other => other ≠ '\x7d'
    match rest.dropWhile fun other => other ≠ '\x7d' with
    | _ :: after =>
      if char = '\x7b' ∧ name ≠ [] then
        .inr name :: placeholdersFrom fuel after
      else .inl char :: placeholdersFrom fuel rest
    | [] => .inl char :: placeholdersFrom fuel rest

def templateParts (template : String) : List (Char ⊕ List Char) :=
  placeholdersFrom template.toList.length template.toList

/-- The record route a link column opens, without the resource prefix of its
placeholders. -/
def route (column : TableColumn) : Option String :=
  column.hrefTemplate.map fun template =>
    String.ofList ((templateParts template).flatMap fun part =>
      match part with
      | .inl char => [char]
      | .inr name => '\x7b' :: afterLastDot name ++ ['\x7d'])

/-- A column that shows a record an earlier column already shows. -/
def repeatsEarlier (column : TableColumn) (kept : List TableColumn) : Bool :=
  kept.any fun earlier =>
    (column.displayKey.isSome && column.displayKey = earlier.displayKey) ||
      ((route column).isSome && route column = route earlier)

/-- Every row key a painted column reads: its own, its look, its currency and
its link ids. -/
def rowKeysRead (columns : List TableColumn) : List String :=
  columns.flatMap fun column =>
    ([some column.key, column.displayKey, column.currencyKey].filterMap fun key =>
      key.filter fun text => text ≠ "") ++
    match column.hrefTemplate with
    | some template =>
      (templateParts template).filterMap fun part =>
        part.getRight?.map String.ofList
    | none => []

def lookFor (columns : List TableColumn) (key : String) : Option TableColumn :=
  columns.reverse.find? fun column =>
    column.role = some .display && column.key = key

/-- Takes columns in order until the next one, with its look, no longer fits. -/
def chooseColumns (columns : List TableColumn) :
    List TableColumn → List TableColumn → List String → List TableColumn
  | [], chosen, _ => chosen
  | column :: rest, chosen, taken =>
    if column.role = some .display || bareId column || repeatsEarlier column chosen then
      chooseColumns columns rest chosen taken
    else
      let look := (lookFor columns (column.displayKey.getD "")).filter
        fun look => !taken.contains look.key
      if maxColumns < chosen.length + (if look.isNone then 1 else 2) then chosen
      else
        chooseColumns columns rest (chosen ++ column :: look.toList)
          (taken ++ column.key :: look.toList.map (·.key))

/-- The last place of a key among the columns. -/
def columnOrder (columns : List TableColumn) (key : String) : Nat :=
  columns.length - columns.reverse.findIdx fun column => column.key = key

def trimColumns (columns : List TableColumn) (rows : List Row)
    (presentation : Option ResultPresentation) :
    List TableColumn × List Row × Option ResultPresentation :=
  if columns.length ≤ maxColumns then (columns, rows, presentation)
  else
    let chosen := (chooseColumns columns columns [] []).mergeSort
      fun left right => columnOrder columns left.key ≤ columnOrder columns right.key
    let read := rowKeysRead chosen
    let notice :=
      s!"{columns.length - chosen.length} of {columns.length} columns not shown."
    let base := presentation.getD { title := fallbackTableTitle }
    let summary :=
      match base.summary.filter fun text => text ≠ "" with
      | some text => s!"{text} · {notice}"
      | none => notice
    (chosen, rows.map fun row => row.filter fun cell => read.contains cell.1,
      some { base with
        summary := some (String.ofList (summary.toList.take summaryMaxChars)) })

section Painting

variable (wire : Wire)

def cellWireBytes : Json → Nat
  | .null => 0
  | .text value => value.utf8ByteSize
  | value => (wire.cellText value).utf8ByteSize

def validateRowBatch (batch : List Row) : Except String Unit :=
  if maxRowsPerPage < batch.length then
    .error s!"Table row batch limit exceeded: {batch.length} rows, limit is {maxRowsPerPage}"
  else
    batch.forM fun row => row.forM fun cell =>
      let cellBytes := cellWireBytes wire cell.2
      if maxCellBytes < cellBytes then
        .error s!"Table cell byte limit exceeded: {cellBytes} bytes, limit is {maxCellBytes}"
      else .ok ()

def rowEventBytes (runId : RunId) (tableId : String) (batch : List Row) : Nat :=
  wire.frameWireBytes ⟨runId, 0, .tableRows tableId batch⟩

/-- Cuts the rows from one index on, with the batch under way and its bytes. -/
def planRowBatchesFrom (rowBytes : Row → Nat) (emptyBytes : Nat) :
    Nat → List Row → List Row → Nat → Except String (List (List Row))
  | _, [], batch, _ => .ok (if batch.isEmpty then [] else [batch])
  | index, row :: rows, batch, batchBytes =>
    if maxFrameBytes < rowBytes row then
      .error
        s!"Table row byte limit exceeded: row {index} is {rowBytes row} bytes, limit is {maxFrameBytes}"
    else if !batch.isEmpty && (maxRowsPerPage ≤ batch.length ||
        maxFrameBytes < batchBytes + rowBytes row) then
      (planRowBatchesFrom rowBytes emptyBytes (index + 1) rows [row]
        (emptyBytes + rowBytes row)).map (batch :: ·)
    else
      -- the comma between the previous row and this one
      planRowBatchesFrom rowBytes emptyBytes (index + 1) rows (batch ++ [row])
        (batchBytes + (if batch.isEmpty then 0 else 1) + rowBytes row)

def planRowBatches (runId : RunId) (tableId : String) (rows : List Row) :
    Except String (List (List Row)) :=
  planRowBatchesFrom (fun row => rowEventBytes wire runId tableId [row])
    (rowEventBytes wire runId tableId []) 0 rows []
    (rowEventBytes wire runId tableId [])

def streamPlannedBatches (runId : RunId) (tableId : String)
    (batches : List (List Row)) : Streaming Unit :=
  batches.forM fun batch => do
    liftResult .queueBufferExceeded (validateRowBatch wire batch)
    sendFrame wire runId (.tableRows tableId batch)

def paintCommittedTable (runId : RunId) (ordinal : Nat) (rows : List Row)
    (columns : List TableColumn) (presentation : Option ResultPresentation)
    (totalRowCount : Option Nat) : Streaming String := do
  let (columns, rowList, presentation) := trimColumns columns rows presentation
  let tableId := s!"table-{runId.text}-{ordinal}"
  let plannedBatches ← liftResult .queueBufferExceeded (planRowBatches wire runId tableId rowList)
  sendFrame wire runId (.tableStart tableId columns presentation)
  streamPlannedBatches wire runId tableId plannedBatches
  let digest := wire.tableDigest rowList
  sendFrame wire runId (.tableEnd tableId rowList.length digest totalRowCount)
  pure digest

end Painting

section Follows

variable {wire : Wire} {reports : Prop} {state : TurnStream}

theorem follows_streamPlannedBatches {runId : RunId} {tableId : String}
    {batches : List (List Row)} (seen : state.sink.authorizedSeen = true) :
    Follows (Move wire reports) Raises (streamPlannedBatches wire runId tableId batches) state := by
  apply Follows.forM
  intro batch _ after moved
  apply Follows.bind (follows_liftResult fun _ => nofun)
  intro _ later moved'
  exact follows_sendFrame rfl fun _ => gate_stays moved' (gate_stays moved seen)

/-- Once authorization was seen, painting sends frames in sequence and raises
nothing but refusals. -/
theorem follows_paintCommittedTable {runId : RunId} {ordinal : Nat}
    {rows : List Row} {columns : List TableColumn}
    {presentation : Option ResultPresentation} {totalRowCount : Option Nat}
    (seen : state.sink.authorizedSeen = true) :
    Follows (Move wire reports) Raises
      (paintCommittedTable wire runId ordinal rows columns presentation totalRowCount) state := by
  apply Follows.bind (follows_liftResult fun _ => nofun)
  intro batches planned moved
  have seen := gate_stays moved seen
  apply Follows.bind (follows_sendFrame rfl fun _ => seen)
  intro _ started moved
  have seen := gate_stays moved seen
  apply Follows.bind (follows_streamPlannedBatches seen)
  intro _ streamed moved
  have seen := gate_stays moved seen
  apply Follows.bind (follows_sendFrame rfl fun _ => seen)
  exact fun _ _ _ => follows_pure _

end Follows

end McpAssistant.Services.AskTables
