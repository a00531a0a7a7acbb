import McpAssistant.Foundations.Interleaving
import McpAssistant.Panel.WorkTimeline

/-!
# The projection queues of the panel

Frames of a run are published in the order they arrive.  An activity waits for
an animation frame, or for a task while the tab is hidden; anything else drains
as soon as it reaches the head.  The status of a run is set when its terminal
frame arrives, not when that frame is published.

The panel also remembers what arrived for its queues and what they published
since they were last reset.
-/

namespace McpAssistant.Panel.ProjectionQueues

open Foundations.JsonReading
open TurnStore (Store Turn Status terminalStatus)
open WorkTimeline

inductive PublicationType where
  | accepted
  | tableStart
  | tableRows
  | tableEnd
  | thoughtStart
  | thoughtDelta
  | thoughtDone
  | resultAuthorized
  | interaction
  | citationSet
  | turnOutcome
  | streamError
deriving DecidableEq

/-- An activity waits for a frame; what the rest carries is for its readers. -/
inductive Publication where
  | activity (activity : Activity)
  | other (type : PublicationType) (detail : Json)

def Publication.isTerminal : Publication → Bool
  | .activity _ => false
  | .other type _ => type = .turnOutcome || type = .streamError

/-- A frame of the v2 vocabulary.  An interaction is valid when it can be
shown, an outcome malformed when its tool result is. -/
inductive Frame where
  | turnAccepted (restoreRef : String) (detail : Json)
  | textDelta
  | activity (activity : Activity)
  | tableStart (detail : Json)
  | tableRows (detail : Json)
  | tableEnd (detail : Json)
  | recordDetails
  | thoughtStart (detail : Json)
  | thoughtDelta (detail : Json)
  | thoughtDone (detail : Json)
  | resultStreamAuthorized (detail : Json)
  | interaction (valid : Bool) (detail : Json)
  | citationSet (detail : Json)
  | turnOutcome (outcomeType : String) (malformed : Bool) (durationMs : Option Int) (detail : Json)
  | streamError (detail : Json)

def ignoredActivities : List String :=
  ["understand", "reading_page", "authorized"]

def activityAliases : List (String × String) :=
  [("plan_search", "planning")]

/-- Where the callback of a waiting queue was left. -/
inductive Wait where
  | frame
  | task
deriving DecidableEq

structure Queue where
  items : List Publication := []
  waiting : Option Wait := none

structure Projection where
  store : Store := {}
  timelines : List (String × Timeline) := []
  queues : List (String × Queue) := []
  invalidInteractions : List String := []
  hidden : Bool := false
  activeMessage : String := ""
  thoughtStream : Bool := true
  arrived : List (String × Publication) := []
  published : List (String × Publication) := []

def Projection.status (panel : Projection) (runId : String) : Option Status :=
  (panel.store.byRun runId).bind Turn.status

def Projection.isTerminal (panel : Projection) (runId : String) : Bool :=
  (panel.status runId).any Status.isTerminal

/-- What still waits in the queue of a run. -/
def Projection.pending (panel : Projection) (runId : String) : List Publication :=
  ((panel.queues.lookup runId).map Queue.items).getD []

def Projection.timelineOf (panel : Projection) (turn : Turn) : Timeline :=
  match panel.timelines.lookup turn.msgId with
  | some timeline => timeline
  | none =>
    match turn.status with
    | some status =>
      if status.isTerminal then endedTimeline status turn.durationMs else {}
    | none => {}

def Projection.setTimeline (panel : Projection) (msgId : String) (timeline : Timeline) :
    Projection :=
  { panel with timelines := putKey msgId timeline panel.timelines }

def Projection.resolve (panel : Projection) (runId : String) : Projection :=
  { panel with store := TurnStore.resolve panel.store runId panel.activeMessage }

def Projection.resolvedTurn (panel : Projection) (runId : String) : Option Turn :=
  if runId ≠ "" ∧ hasKey panel.store.messageByRun runId then
    panel.store.byRun runId
  else if panel.activeMessage = "" then none
  else
    let turn := panel.store.turnAt panel.activeMessage
    if turn.runId ≠ none ∧ runId ≠ "" ∧ turn.runId ≠ some runId then none
    else some ((panel.resolve runId).store.turnAt panel.activeMessage)

def Projection.onActivity (panel : Projection) (runId : String)
    (activity : Activity) : Projection :=
  let resolved := panel.resolve runId
  match panel.resolvedTurn runId with
  | some turn =>
    resolved.setTimeline turn.msgId ((resolved.timelineOf turn).observe activity)
  | none => resolved

/-- The work timeline ends with the run. -/
def Projection.endTurn (panel : Projection) (turn : Turn) (status : Status)
    (durationMs : Option Int) : Projection :=
  panel.setTimeline turn.msgId ((panel.timelineOf turn).finish (timelineState status) durationMs)

/-- Ends a run once, and tells the timeline of its turn. -/
def Projection.endRun (panel : Projection) (runId : String) (status : Status)
    (durationMs : Option Int) : Projection :=
  match panel.store.byRun runId with
  | some turn =>
    if status.isTerminal && !turn.isTerminal then
      Projection.endTurn
        { panel with
          store := TurnStore.endRun panel.store runId (some status) durationMs }
        { turn with status := some status, durationMs } status durationMs
    else panel
  | none => panel

def Projection.setQueue (panel : Projection) (runId : String) (queue : Queue) : Projection :=
  { panel with queues := putKey runId queue panel.queues }

def Projection.dropQueue (panel : Projection) (runId : String) : Projection :=
  { panel with queues := eraseKey panel.queues runId }

def Projection.publish (panel : Projection) (runId : String) (item : Publication) : Projection :=
  let logged := { panel with published := panel.published ++ [(runId, item)] }
  match item with
  | .activity activity => logged.onActivity runId activity
  | .other _ _ => logged

def Projection.nextFrame (panel : Projection) : Wait :=
  if panel.hidden then .task else .frame

def Projection.drainItems (panel : Projection) (runId : String) : List Publication → Projection
  | [] => panel.setQueue runId {}
  | .activity activity :: items =>
    panel.setQueue runId { items := .activity activity :: items, waiting := some panel.nextFrame }
  | .other type detail :: items =>
    let published := (panel.setQueue runId { items }).publish runId (.other type detail)
    if (Publication.other type detail).isTerminal then
      published.dropQueue runId
    else published.drainItems runId items

def Projection.drain (panel : Projection) (runId : String) : Projection :=
  match panel.queues.lookup runId with
  | some queue =>
    if queue.waiting.isSome then panel else panel.drainItems runId queue.items
  | none => panel

/-- A frame without a run is published at once; one of a run that has ended is
dropped. -/
def Projection.enqueue (panel : Projection) (runId : String) (item : Publication) : Projection :=
  if runId = "" then panel.publish runId item
  else if panel.isTerminal runId then panel
  else
    let queue := (panel.queues.lookup runId).getD {}
    Projection.drain
      { panel.setQueue runId { queue with items := queue.items ++ [item] } with
        arrived := panel.arrived ++ [(runId, item)] } runId

def Projection.fire (panel : Projection) (runId : String) : Projection :=
  match panel.queues.lookup runId with
  | some queue =>
    if queue.waiting.isNone then panel
    else
      match queue.items with
      | [] => (panel.setQueue runId {}).drain runId
      | item :: items =>
        ((panel.setQueue runId { items }).publish runId item).drain runId
  | none => panel

/-- A callback left to a frame of a hidden tab moves to the task queue. -/
def Queue.release (hidden : Bool) (queue : Queue) : Queue :=
  if hidden && queue.waiting.isSome then { queue with waiting := some .task }
  else queue

def Projection.visibilityChange (panel : Projection) (hidden : Bool) : Projection :=
  (panel.queues.map Prod.fst).foldl Projection.drain
    { panel with
      hidden
      queues := panel.queues.map fun entry => (entry.1, entry.2.release hidden) }

/-- Stops the run of a message whose timeline still runs. -/
def Projection.stopRunning (panel : Projection) (msgId : String) : Projection :=
  match (panel.store.turnAt msgId).runId, panel.timelines.lookup msgId with
  | some runId, some timeline =>
    if timeline.state = .running then panel.endRun runId .stopped none
    else panel
  | _, _ => panel

/-- Drops every pending publication. -/
def Projection.clearQueues (panel : Projection) : Projection :=
  { panel with
    queues := [], invalidInteractions := [], arrived := [], published := [] }

def Projection.resetProjectionQueues (panel : Projection) : Projection :=
  ((panel.store.turns.map Prod.fst).foldl Projection.stopRunning panel).clearQueues

def Projection.onTurnStarted (panel : Projection) (msgId runId : String) : Projection :=
  if msgId = "" then panel
  else
    Projection.setTimeline { panel with store := TurnStore.bind panel.store msgId runId } msgId {}

/-- What a frame queues: an activity under its panel name, a thought when the
panel shows thoughts, an interaction when it can be shown. -/
def Projection.publicationOf (panel : Projection) : Frame → Option Publication
  | .turnAccepted _ detail => some (.other .accepted detail)
  | .textDelta => none
  | .activity activity =>
    let kind := (activityAliases.lookup activity.kind).getD activity.kind
    if ignoredActivities.contains kind then none
    else some (.activity { activity with kind })
  | .tableStart detail => some (.other .tableStart detail)
  | .tableRows detail => some (.other .tableRows detail)
  | .tableEnd detail => some (.other .tableEnd detail)
  | .recordDetails => none
  | .thoughtStart detail =>
    if panel.thoughtStream then some (.other .thoughtStart detail) else none
  | .thoughtDelta detail =>
    if panel.thoughtStream then some (.other .thoughtDelta detail) else none
  | .thoughtDone detail =>
    if panel.thoughtStream then some (.other .thoughtDone detail) else none
  | .resultStreamAuthorized detail => some (.other .resultAuthorized detail)
  | .interaction valid detail =>
    if valid then some (.other .interaction detail) else none
  | .citationSet detail => some (.other .citationSet detail)
  | .turnOutcome _ _ _ detail => some (.other .turnOutcome detail)
  | .streamError detail => some (.other .streamError detail)

/-- What a frame notes before it is queued: the reference a turn is accepted
with, and an interaction that cannot be shown, which the outcome takes back. -/
def Projection.noted (panel : Projection) (runId : String) : Frame → Projection
  | .turnAccepted restoreRef _ =>
    { panel with
      store := TurnStore.noteRestoreRef panel.store runId restoreRef }
  | .interaction false _ =>
    { panel with invalidInteractions := runId :: panel.invalidInteractions }
  | .turnOutcome "clarification_required" _ _ _ =>
    { panel with
      invalidInteractions := panel.invalidInteractions.filter (· != runId) }
  | _ => panel

def Projection.endingOf (panel : Projection) (runId : String) : Frame → Option (Status × Option Int)
  | .turnOutcome outcomeType malformed durationMs _ =>
    let invalid := outcomeType = "clarification_required" &&
      panel.invalidInteractions.contains runId
    some (terminalStatus (if malformed || invalid then "incomplete" else outcomeType), durationMs)
  | .streamError _ => some (.failed, none)
  | _ => none

def Projection.receive (panel : Projection) (runId : String) (frame : Frame) : Projection :=
  let noted := panel.noted runId frame
  let queued :=
    match panel.publicationOf frame with
    | some item => noted.enqueue runId item
    | none => noted
  match panel.endingOf runId frame with
  | some (status, durationMs) => queued.endRun runId status durationMs
  | none => queued

/-- What happens to the panel.  Another module may resolve a run at any time,
and the thread may show another message as the active one. -/
inductive Event where
  | frame (runId : String) (frame : Frame)
  | callback (runId : String)
  | visibilityChange (hidden : Bool)
  | turnStopped (runId : String)
  | turnStarted (msgId runId : String)
  | resolve (runId : String)
  | activate (msgId : String)

def step : Event → Projection → Projection
  | .frame runId frame, panel => panel.receive runId frame
  | .callback runId, panel => panel.fire runId
  | .visibilityChange hidden, panel => panel.visibilityChange hidden
  | .turnStopped runId, panel => panel.endRun runId .stopped none
  | .turnStarted msgId runId, panel =>
    panel.resetProjectionQueues.onTurnStarted msgId runId
  | .resolve runId, panel => panel.resolve runId
  | .activate msgId, panel => { panel with activeMessage := msgId }

end McpAssistant.Panel.ProjectionQueues
