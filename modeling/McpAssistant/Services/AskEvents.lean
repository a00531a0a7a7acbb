import McpAssistant.Foundations.JsonReading

/-!
# The events of a streamed turn

Every frame on the wire names its run and its place in the sequence, and carries
the content of one event type.  Two event types end a stream.
-/

namespace McpAssistant.Services.AskEvents

open Foundations.JsonReading

/-- The exceptions a turn tells apart. -/
inductive Failure where
  | continuationClaimRejected
  | notFound
  | serviceUnavailable (className text : String)
  | deadlineExpired
  | timeout
  | queueBufferExceeded (message : String)
  | runtimeError (message : String)
  | valueError (message : String)
  | terminalEvidence
  | other
  | cancelled
deriving DecidableEq

/-- The id of a run; the request refuses an empty one. -/
structure RunId where
  text : String
  nonempty : text ≠ "" := by decide
deriving DecidableEq

/-- How many parts a plan has, where that is shown. -/
structure PartCount where
  count : Nat
  positive : 0 < count := by decide
deriving DecidableEq

/-- The stages the business query reports. -/
inductive ProgressStage where
  | understand
  | planning
  | authorize
  | authorized
  | findingRecord
  | querying
  | sealing
  | answering
deriving DecidableEq

/-- The stages of the legacy ask transport. -/
inductive AskStage where
  | connecting
  | thinking
  | searchingDocuments
  | searchingDatabase
  | searchingBoth
  | readingPage
  | readingNextPage
  | writingQuery
  | writingAnswer
deriving DecidableEq

/-- The kinds of step a person is shown. -/
inductive ActivityKind where
  | stage (reported : ProgressStage)
  | thinking
  | searchingDocuments
  | readingPage
deriving DecidableEq

def ProgressStage.text : ProgressStage → String
  | .understand => "understand"
  | .planning => "planning"
  | .authorize => "authorize"
  | .authorized => "authorized"
  | .findingRecord => "finding_record"
  | .querying => "querying"
  | .sealing => "sealing"
  | .answering => "answering"

def ActivityKind.text : ActivityKind → String
  | .stage reported => reported.text
  | .thinking => "thinking"
  | .searchingDocuments => "searching_documents"
  | .readingPage => "reading_page"

inductive ActivityState where
  | running
  | completed
  | failed
deriving DecidableEq

inductive TextContentKind where
  | narrative
  | tableFallback
deriving DecidableEq

inductive TableColumnRole where
  | current
  | previous
  | delta
  | deltaPct
  | display
deriving DecidableEq

structure TableColumn where
  key : String
  label : String
  valueType : String
  currencyKey : Option String := none
  hrefTemplate : Option String := none
  role : Option TableColumnRole := none
  displayKey : Option String := none
deriving DecidableEq

structure ResultPresentation where
  title : String
  summary : Option String := none
  appliedFilters : List String := []
  scope : Option String := none
deriving DecidableEq

/-- A result row: a dictionary from member keys to cells. -/
abbrev Row := List (String × Json)

/-- A detail fact as the stream carries it: the record that owns it, and its
other fields. -/
structure RecordDetail where
  family : String
  ownerResource : Option String := none
  ownerId : Option Json := none
  fields : Entries := []

structure InteractionOption where
  id : String
  label : String
  detail : Option String := none
  href : Option String := none
deriving DecidableEq

/-- What the terminal frame of an answered turn says. -/
structure TurnOutcome where
  outcomeType : String
  trusted : Bool
  threadId : Option String
  durationMs : Nat
  followUps : List Json := []
  explanation : Option Json := none
  answerQueryId : Option String := none
  evidenceDigest : Option String := none
  reasonCode : Option String := none
  message : Option String := none
  businessQuery : Option Json := none
  answerMode : Option String := none
  sourceExchangeIds : List String := []
  budget : Option Json := none
  unansweredPart : Option String := none
  uiLinks : List Json := []
  toolResult : Entries := []
  feedbackToken : String

/-- The content of a frame, by its event type. -/
inductive EventContent where
  | turnAccepted (threadId : Option String) (restoreRef : String)
  | activity (activityId : String) (activityKind : ActivityKind)
      (toolKind : String) (state : ActivityState) (elapsedMs : Nat)
      (ordinal : Option Nat) (parts : Option PartCount)
      (subject : Option String)
  | textDelta (delta : String) (contentKind : TextContentKind)
  | thoughtStart (activityId : String)
  | thoughtDelta (activityId delta : String)
  | thoughtDone (activityId : String) (durationMs : Nat)
  | resultStreamAuthorized
  | tableStart (tableId : String) (columns : List TableColumn)
      (presentation : Option ResultPresentation)
  | tableRows (tableId : String) (rows : List Row)
  | tableEnd (tableId : String) (rowCount : Nat) (tableDigest : String) (totalRowCount : Option Nat)
  | recordDetails (answerQueryId : Option String) (details : List RecordDetail)
  | interaction (interactionKind continuationRef prompt : String)
      (options : List InteractionOption) (freeTextAllowed : Bool)
  | citationSet (sources : List Json) (citations : Json)
  | turnOutcome (outcome : TurnOutcome)
  | streamError (code : String) (retryable : Bool) (message : Option String)

structure AskV2Event where
  runId : RunId
  sequence : Nat
  content : EventContent

/-- The event types that end a stream. -/
def EventContent.isTerminal : EventContent → Bool
  | .turnOutcome _ | .streamError .. => true
  | _ => false

def EventContent.isStreamError : EventContent → Bool
  | .streamError .. => true
  | _ => false

/-- A frame of a result table. -/
def EventContent.isTable : EventContent → Bool
  | .tableStart .. | .tableRows .. | .tableEnd .. => true
  | _ => false

/-- An activity that says which part of the plan it is about. -/
def EventContent.namesPart : EventContent → Bool
  | .activity _ _ _ _ _ ordinal _ _ => ordinal.isSome
  | _ => false

/-- A frame that shows part of the answer that was planned. -/
def EventContent.needsAuthorization (content : EventContent) : Bool :=
  content.isTable || content.namesPart

theorem shown_of_free {content : EventContent} {condition : Prop}
    (free : content.needsAuthorization = false)
    (needed : content.needsAuthorization = true) : condition := by
  rw [free] at needed
  cases needed

end McpAssistant.Services.AskEvents
