import McpAssistant.Foundations.JsonReading

/-!
# The turn store of the panel

The panel keeps one turn for each assistant message, and an index from a run to
the message it is bound to.  Binding, ending, hydrating, restoring and pruning
write the turns and the index.  An empty text stands for a missing id, as the
source tests ids for truth.
-/

namespace McpAssistant.Panel.TurnStore

open Foundations.JsonReading

inductive Status where
  | submitted
  | stopped
  | failed
  | done
  | clarification
  | declined
deriving DecidableEq

def Status.isTerminal : Status → Bool
  | .submitted => false
  | _ => true

/-- The tables of one result as the panel paints them. -/
structure ResultSlice where
  columns : List Json
  presentation : Option Json
  rows : List Json
  returned : Int
  total : Option Int

/-- What a restore may show beside the tables. -/
structure BoundedEvidence where
  sources : Option (List Json) := none
  citations : Option Json := none
  exchangeId : String := ""
  sourceExchangeIds : Option (List String) := none
  threadId : String := ""

structure Turn where
  msgId : String
  runId : Option String := none
  status : Option Status := none
  durationMs : Option Int := none
  restoreRef : String := ""
  result : List (String × ResultSlice) := []
  evidence : BoundedEvidence := {}

def Turn.isTerminal (turn : Turn) : Bool :=
  turn.status.any Status.isTerminal

def terminalStatus (outcomeType : String) : Status :=
  if outcomeType = "answered" then .done
  else if outcomeType = "clarification_required" then .clarification
  else if ["unsupported", "denied", "shadowed"].contains outcomeType then .declined
  else .failed

structure Store where
  turns : List (String × Turn) := []
  messageByRun : List (String × String) := []
  hydrated : Bool := false

def Store.put (store : Store) (turn : Turn) : Store :=
  { store with turns := putKey turn.msgId turn store.turns }

def Store.index (store : Store) (runId msgId : String) : Store :=
  { store with messageByRun := putKey runId msgId store.messageByRun }

/-- The turn of a message, a blank one when the store has none. -/
def Store.turnAt (store : Store) (msgId : String) : Turn :=
  (store.turns.lookup msgId).getD { msgId }

def Store.byRun (store : Store) (runId : String) : Option Turn :=
  (store.messageByRun.lookup runId).bind fun msgId => store.turns.lookup msgId

def openTurn (store : Store) (msgId : String) : Store :=
  if msgId = "" then store else store.put (store.turnAt msgId)

/-- A turn is bound to the first run that names it. -/
def bind (store : Store) (msgId runId : String) : Store :=
  let turn := store.turnAt msgId
  if msgId = "" then store
  else if runId ≠ "" ∧ turn.runId = none then
    (store.put { turn with runId := some runId, status := some .submitted }).index runId msgId
  else store.put turn

def resolve (store : Store) (runId fallbackMsgId : String) : Store :=
  if runId ≠ "" ∧ hasKey store.messageByRun runId then store
  else if fallbackMsgId = "" then store
  else
    let turn := store.turnAt fallbackMsgId
    if runId = "" ∨ (turn.runId ≠ none ∧ turn.runId ≠ some runId) then
      store.put turn
    else bind store fallbackMsgId runId

def endRun (store : Store) (runId : String) (status : Option Status)
    (durationMs : Option Int) : Store :=
  match store.byRun runId, status with
  | some turn, some status =>
    if status.isTerminal && !turn.isTerminal then
      store.put { turn with status := some status, durationMs }
    else store
  | _, _ => store

/-- A turn keeps the first reference it was accepted with. -/
def noteRestoreRef (store : Store) (runId restoreRef : String) : Store :=
  match store.byRun runId with
  | some turn =>
    if restoreRef ≠ "" ∧ turn.restoreRef = "" then
      store.put { turn with restoreRef }
    else store
  | none => store

/-- A turn as the session stores it. -/
structure StoredItem where
  runId : String
  restoreRef : String

/-- Cached rows and steps never hydrate: an item gives only the identities. -/
def hydrateItem (store : Store) (msgId : String) (item : StoredItem) : Store :=
  if msgId = "" then store
  else
    let turn := store.turnAt msgId
    let referred :=
      if item.restoreRef = "" then turn
      else { turn with restoreRef := item.restoreRef }
    if item.runId ≠ "" ∧ turn.runId = none then
      (store.put { referred with runId := some item.runId }).index item.runId msgId
    else store.put referred

def hydrateItems (store : Store) : List (String × StoredItem) → Store
  | [] => store
  | (msgId, item) :: items => hydrateItems (hydrateItem store msgId item) items

def hydrate (store : Store) (stored : List (String × StoredItem)) : Store :=
  { hydrateItems store stored with hydrated := true }

/-- A table of a payload, or a sealed envelope read as one. -/
structure PayloadTable where
  tableId : String
  columns : List Json
  presentation : Option Json
  rows : List Json
  returnedRowCount : Option Int
  totalRowCount : Option Int

structure RestorePayload where
  runId : String := ""
  runStatus : Option Status := none
  outcomeType : String := ""
  durationMs : Option Int := none
  tables : List PayloadTable := []
  envelopes : List PayloadTable := []
  presentation : Option Json := none
  sources : Option (List Json) := none
  citations : Option Json := none
  exchangeId : String := ""
  sourceExchangeIds : Option (List Json) := none
  threadId : String := ""

/-- A row of the restore response: its reference, and its payload when it is
authorized. -/
structure RestoreRow where
  restoreRef : String
  payload : Option RestorePayload

/-- The server's restore word for a refusal is failed; the outcome type tells a
refusal apart. -/
def restoredStatus (payload : RestorePayload) : Option Status :=
  if payload.runStatus = some .failed ∧
      terminalStatus payload.outcomeType = .declined then some .declined
  else payload.runStatus

def RestorePayload.isTerminal (payload : RestorePayload) : Bool :=
  payload.runStatus.any Status.isTerminal

def isText : Json → Bool
  | .text _ => true
  | _ => false

def projectRestoredSource : Json → Option Json
  | .dict entries =>
    some (.dict (entries.filter fun entry =>
      (entry.1 = "id" && !entry.2.isNull) ||
        (["type", "title", "url", "snippet", "section"].contains entry.1 && isText entry.2)))
  | .list _ => some (.dict [])
  | _ => none

def projectCitation (citation : Json) : Json :=
  match citation with
  | .dict entries =>
    .dict (entries.filter fun entry => ["marker", "id"].contains entry.1)
  | _ => .dict []

def projectRestoredCitations : Json → Option Json
  | .dict entries =>
    let parsed := match entries.lookup "parsed" with
      | some (.boolean true) => true
      | _ => false
    let cited := match entries.lookup "cited" with
      | some (.list citations) => citations.map projectCitation
      | _ => []
    some (.dict [("parsed", .boolean parsed), ("cited", .list cited)])
  | .list _ => some (.dict [("parsed", .boolean false), ("cited", .list [])])
  | _ => none

def textOf : Json → Option String
  | .text value => some value
  | _ => none

def boundedEvidence (payload : RestorePayload) : BoundedEvidence where
  sources := payload.sources.map fun sources =>
    sources.filterMap projectRestoredSource
  citations := payload.citations.bind projectRestoredCitations
  exchangeId := payload.exchangeId
  sourceExchangeIds := payload.sourceExchangeIds.map fun ids => ids.filterMap textOf
  threadId := payload.threadId

def projectResultSlice (payload : RestorePayload) (single : Bool)
    (table : PayloadTable) : ResultSlice where
  columns := table.columns
  presentation :=
    table.presentation <|> (if single then payload.presentation else none)
  rows := table.rows
  returned := table.returnedRowCount.getD table.rows.length
  total := table.totalRowCount

def restoredResult (payload : RestorePayload) : List (String × ResultSlice) :=
  let slices :=
    if payload.tables.isEmpty then
      let single := payload.envelopes.length = 1
      payload.envelopes.foldl (fun slices envelope =>
        if envelope.tableId ≠ "" then
          putKey envelope.tableId (projectResultSlice payload single envelope) slices
        else if single then
          putKey "__default__" (projectResultSlice payload single envelope) slices
        else slices) []
    else
      let single := payload.tables.length = 1
      payload.tables.foldl (fun slices table =>
        if table.tableId = "" then slices
        else putKey table.tableId (projectResultSlice payload single table) slices) []
  match slices, payload.presentation with
  | [], some presentation =>
    [("__default__",
      { columns := [], presentation := some presentation, rows := []
        returned := 0, total := none })]
  | slices, _ => slices

def clearAuthorizedProjection (turn : Turn) : Turn :=
  { turn with result := [], evidence := {} }

def applyAuthorizedPayload (store : Store) (msgId : String) (payload : RestorePayload) : Store :=
  let bound :=
    if payload.runId ≠ "" ∧ (store.turnAt msgId).runId = none then
      bind store msgId payload.runId
    else store
  bound.put { bound.turnAt msgId with
    result := restoredResult payload
    evidence := boundedEvidence payload }

/-- The payloads of a response by their reference, the last of each. -/
def payloadsByRef (rows : List RestoreRow) : List (String × RestorePayload) :=
  rows.foldl (fun byRef row =>
    match row.payload with
    | some payload => putKey row.restoreRef payload byRef
    | none => byRef) []

def unresolvedRefs (rows : List RestoreRow) : List String :=
  (rows.filter fun row => row.payload.isNone).map RestoreRow.restoreRef

def payloadOf (byRef : List (String × RestorePayload)) (turn : Turn) : Option RestorePayload :=
  if turn.restoreRef = "" then none else byRef.lookup turn.restoreRef

/-- The server's terminal truth ends a turn that no status has ended. -/
def restoreStatus (byRef : List (String × RestorePayload)) (turn : Turn) : Turn :=
  match payloadOf byRef turn with
  | some payload =>
    if payload.isTerminal && !turn.isTerminal then
      { turn with
        status := restoredStatus payload, durationMs := payload.durationMs }
    else turn
  | none => turn

def restoreTurn (byRef : List (String × RestorePayload)) (unresolved : List String)
    (store : Store) (msgId : String) : Store :=
  let turn := store.turnAt msgId
  match payloadOf byRef turn with
  | some payload => applyAuthorizedPayload store msgId payload
  | none =>
    if turn.restoreRef ≠ "" ∧ unresolved.contains turn.restoreRef then
      store.put (clearAuthorizedProjection turn)
    else store

def restoreTurns (byRef : List (String × RestorePayload))
    (unresolved : List String) (store : Store) : List String → Store
  | [] => store
  | msgId :: msgIds =>
    restoreTurns byRef unresolved (restoreTurn byRef unresolved store msgId) msgIds

/-- The store a restore starts from: the cached identities are loaded first. -/
def hydratedFirst (store : Store) (stored : List (String × StoredItem)) : Store :=
  if store.hydrated then store else hydrate store stored

def restoreStatuses (rows : List RestoreRow) (store : Store) : Store :=
  { store with turns := store.turns.map fun entry =>
      (entry.1, restoreStatus (payloadsByRef rows) entry.2) }

def applyAuthorizedRestore (store : Store) (stored : List (String × StoredItem))
    (rows : List RestoreRow) : Store :=
  let ended := restoreStatuses rows (hydratedFirst store stored)
  { restoreTurns (payloadsByRef rows) (unresolvedRefs rows) ended
      (ended.turns.map Prod.fst) with hydrated := true }

def prune (store : Store) (isPresent : String → Bool) : Store :=
  let removed := store.turns.filter fun entry => !isPresent entry.1
  { store with
    turns := store.turns.filter fun entry => isPresent entry.1
    messageByRun := store.messageByRun.filter fun entry =>
      removed.all fun gone => gone.2.runId ≠ some entry.1 }

def resetInMemory (_ : Store) : Store :=
  {}

inductive Call where
  | openTurn (msgId : String)
  | bind (msgId runId : String)
  | resolve (runId fallbackMsgId : String)
  | endRun (runId : String) (status : Option Status) (durationMs : Option Int)
  | noteRestoreRef (runId restoreRef : String)
  | hydrate (stored : List (String × StoredItem))
  | applyAuthorizedRestore (stored : List (String × StoredItem)) (rows : List RestoreRow)
  | prune (isPresent : String → Bool)
  | resetInMemory

def perform : Call → Store → Store
  | .openTurn msgId, store => openTurn store msgId
  | .bind msgId runId, store => bind store msgId runId
  | .resolve runId fallbackMsgId, store => resolve store runId fallbackMsgId
  | .endRun runId status durationMs, store => endRun store runId status durationMs
  | .noteRestoreRef runId restoreRef, store => noteRestoreRef store runId restoreRef
  | .hydrate stored, store => hydrate store stored
  | .applyAuthorizedRestore stored rows, store =>
    applyAuthorizedRestore store stored rows
  | .prune isPresent, store => prune store isPresent
  | .resetInMemory, store => resetInMemory store

end McpAssistant.Panel.TurnStore
