import McpAssistant.Services.SinkMoves
import McpAssistant.Services.ReasonCopy

/-!
# The producer of a turn's stream

The producer announces the turn, waits for the service, and streams the answer:
its tables, its detail facts, its citations and its text, then the outcome.  A
failure ends the stream with a stream error; a cancellation ends it with no
frame of its own.  Either way the queue is closed last.
-/

namespace McpAssistant.Services.StreamProducer

open Foundations.JsonReading
open Foundations.Procedures
open AskEvents AskQueue AskStream AskTables ProgressSinks SinkMoves ReasonCopy

/-- A sealed result of one part of a plan. -/
structure Envelope where
  answerQueryId : String
  answerText : String
  rows : List Row := []
  columns : List ResultColumn := []
  presentation : Option ResultPresentation := none
  totalRowCount : Nat
  recordDetails : List RecordDetail := []

/-- The business query outcome of an answer; `terminalForm` is the receipt its
terminal frame keeps. -/
structure WireOutcome where
  outcome : String
  envelope : Option Envelope := none
  envelopes : List Envelope := []
  continuation : Option String := none
  reasonCode : Option String := none
  message : Option String := none
  terminalForm : Json := .null

structure TurnResult where
  outcomeType : String
  trusted : Bool
  fields : Entries := []

structure Answer where
  answer : String
  sources : List Json := []
  citations : Json := .null
  model : String
  textKind : Option TextContentKind := none
  businessQuery : Option WireOutcome := none
  turnResult : Option TurnResult := none
  threadId : Option String := none
  reasonCode : Option String := none
  followUpOffer : List Json := []
  explanation : Option Json := none
  answerMode : Option String := none
  sourceExchangeIds : List String := []
  budget : Option Json := none
  unansweredPart : Option String := none
  uiLinks : List Json := []

/-- The card a turn ends on when the person has to choose. -/
structure ClarificationCard where
  continuationRef : Option String
  continuation : Option String := none
  prompt : String
  choices : List InteractionOption := []
  allowFreeText : Bool := true

inductive V2Result where
  | answer (answer : Answer)
  | card (card : ClarificationCard)

structure V2Reply where
  result : V2Result
  evidenceDigest : Option String := none

/-- Something the producer waits for: what happens meanwhile, and what it
brings. -/
structure Awaited (Value : Type) where
  steps : List Step := []
  outcome : Except Failure Value

/-- A turn to stream: its request, its settings, the answer of the service and
the evidence barrier for the least number of invocations it asks for. -/
structure Turn where
  runId : RunId
  threadId : Option String := none
  resultPage : Bool := false
  restoreRef : String
  feedbackToken : String := ""
  activityEvents : Bool := true
  deadline : Int
  ask : Awaited V2Reply
  evidence : Nat → Awaited String

/-! ## Projections of an answer -/

def isClarification : V2Result → Bool
  | .card _ => true
  | .answer answer =>
    answer.businessQuery.any fun wire => wire.outcome = "clarification_required"

def resultEnvelopes (answer : Answer) : List Envelope :=
  match answer.businessQuery with
  | none => []
  | some wire =>
    if wire.envelopes.isEmpty then wire.envelope.toList else wire.envelopes

def terminalDisposition (answer : Answer) : String :=
  match answer.turnResult, answer.businessQuery with
  | some turnResult, _ => turnResult.outcomeType
  | none, some wire => wire.outcome
  | none, none => if answer.answer ≠ "" then "answered" else "incomplete"

def coordinatorWrote (answer : Answer) : Bool :=
  answer.textKind.isSome && answer.answer ≠ ""

def refusalReason (answer : Answer) (outcomeType : String) : Option String × Option String :=
  if outcomeType = "answered" then (none, none)
  else
    match answer.reasonCode with
    | some code =>
      (some code, if coordinatorWrote answer then none
        else some (copyForReason (some code) (some answer.answer)))
    | none =>
      match answer.businessQuery with
      | none => (none, none)
      | some wire =>
        match wire.reasonCode with
        | none => (none, none)
        | some code =>
          (some code, if coordinatorWrote answer then none
            else some (copyForReason (some code) wire.message))

def followUpActions (answer : Answer) (outcomeType : String) : List Json :=
  if outcomeType = "answered" || coordinatorWrote answer then
    answer.followUpOffer
  else []

def contentKind (tableStreamed : Bool) (producerKind : Option TextContentKind) : TextContentKind :=
  producerKind.getD (if tableStreamed then .tableFallback else .narrative)

def firstText (texts : List (Option String)) : Option String :=
  (texts.filterMap fun text => text.filter fun found => found ≠ "").head?

def chunkAnswerTokens (text : String) (maxFrames : Nat) : List String :=
  if text = "" then []
  else
    let words := text.splitOn " "
    let per := max 1 ((words.length + maxFrames - 1) / maxFrames)
    let groups := words.toChunks per
    groups.zipIdx.map fun (group, index) =>
      " ".intercalate group ++ if index + 1 < groups.length then " " else ""

def detailBatchBytes : Nat := maxFrameBytes / 2

/-- Consecutive batches within the byte bound, up to a detail that cannot fit a
frame on its own. -/
def detailBatchesFrom (detailWireBytes : RecordDetail → Nat) :
    List RecordDetail → List RecordDetail → Nat → List (List RecordDetail) × Option String
  | [], batch, _ => (if batch.isEmpty then [] else [batch], none)
  | detail :: rest, batch, batchBytes =>
    let detailBytes := detailWireBytes detail
    if detailBatchBytes < detailBytes then
      ([], some
        s!"Record detail byte limit exceeded: {detailBytes} bytes, limit is {detailBatchBytes}")
    else if !batch.isEmpty && detailBatchBytes < batchBytes + detailBytes then
      let (batches, failed) :=
        detailBatchesFrom detailWireBytes rest [detail] detailBytes
      (batch :: batches, failed)
    else
      detailBatchesFrom detailWireBytes rest (batch ++ [detail]) (batchBytes + detailBytes)

section Producer

variable (wire : Wire)

def streamRecordDetails (runId : RunId) (envelope : Envelope) : Streaming Unit := do
  let (batches, failed) :=
    detailBatchesFrom wire.detailWireBytes envelope.recordDetails [] 0
  batches.forM fun batch =>
    sendFrame wire runId (.recordDetails (some envelope.answerQueryId) batch)
  liftResult .queueBufferExceeded (match failed with
    | some message => .error message
    | none => .ok ())

def publishEnvelope (runId : RunId) (deadline : Int) (ordinal : Nat)
    (envelope : Envelope) : Streaming Bool := do
  let stream ← get
  if stream.sink.paintedOrdinals.contains ordinal then pure true
  else do
    checkNotExpired wire deadline
    if !envelope.rows.isEmpty && envelope.columns.isEmpty then do
      modifySink fun sink => { sink with disclosureViolation := true }
      let _ ← settle wire runId .failed
      pure false
    else if !envelope.rows.isEmpty ||
        (envelope.presentation.isSome && envelope.totalRowCount = 0) then do
      paintTable wire runId
        { ordinal
          columns := envelope.columns
          rows := envelope.rows
          totalRowCount := envelope.totalRowCount
          presentation := envelope.presentation }
      pure true
    else pure true

def publishFrom (runId : RunId) (deadline : Int) : Nat → List Envelope → Streaming Unit
  | _, [] => pure ()
  | ordinal, envelope :: envelopes => do
      let goesOn ← publishEnvelope wire runId deadline ordinal envelope
      if goesOn then publishFrom runId deadline (ordinal + 1) envelopes
      else pure ()

def publishCommittedEnvelopes (runId : RunId) (deadline : Int)
    (envelopes : List Envelope) : Streaming Unit := do
  checkNotExpired wire deadline
  publishFrom wire runId deadline 0 envelopes

/-- Ends what is open as failed and puts a stream error.  Its number is taken
first: the queue refuses no stream error while it is open. -/
def emitStreamError (runId : RunId) (code : String) (message : Option String)
    (retryable : Bool) : Streaming Unit := do
  let _ ← settle wire runId .failed
  let stream ← get
  set { stream with sequence := stream.sequence.take.2 }
  putNowait wire ⟨runId, stream.sequence.take.1, .streamError code retryable message⟩

def plannerTimeoutContinuation : String := "planner-timeout"

def waitFor {Value : Type} (runId : RunId) (awaited : Awaited Value) : Streaming Value := do
  runSteps wire runId awaited.steps
  match awaited.outcome with
  | .ok value => pure value
  | .error failure => throw failure

/-- An answer whose own query asked back carries no ticket and cannot be a
card. -/
def emitClarificationCard (turn : Turn) (result : V2Result) : Streaming Unit :=
  match result with
  | .answer _ =>
    emitStreamError wire turn.runId "internal_error"
      (some "Something went wrong on our side. Please try that again.") true
  | .card card =>
    match card.continuationRef.filter fun ref => ref ≠ "" with
    | none =>
      emitStreamError wire turn.runId "internal_error"
        (some "Something went wrong on our side. Please try that again.") true
    | some continuationRef => do
        checkNotExpired wire turn.deadline
        let _ ← waitFor wire turn.runId (turn.evidence 0)
        let prompt :=
          if card.prompt ≠ "" then card.prompt else "Please select an option"
        sendFrame wire turn.runId
          (.interaction "clarification" continuationRef prompt card.choices card.allowFreeText)
        let durationMs ← settle wire turn.runId
          (if card.continuation = some plannerTimeoutContinuation then .failed
            else .completed)
        sendFrame wire turn.runId (.turnOutcome
            { outcomeType := "clarification_required"
              trusted := false
              threadId := turn.threadId
              durationMs
              feedbackToken := turn.feedbackToken })

def refuseDisclosure (turn : Turn) : Streaming Unit :=
  emitStreamError wire turn.runId "adapter_invalid"
    (some (copyForReason (some "adapter_invalid")
      (some "I could not authorize that answer set, so I am not showing it.")))
    false

/-- The citations of a turn result, whose payload always counts as present. -/
def streamCitations (turn : Turn) (answer : Answer) : Streaming Unit :=
  if answer.turnResult.isSome then
    sendFrame wire turn.runId (.citationSet answer.sources answer.citations)
  else pure ()

def streamText (turn : Turn) (text : String) (kind : TextContentKind) : Streaming Unit :=
  (chunkAnswerTokens text 30).forM fun chunk =>
    sendFrame wire turn.runId (.textDelta chunk kind)

def fixedResponseModel : String := "none"

def evidenceDigest (turn : Turn) (reply : V2Reply) (answer : Answer) : Streaming String :=
  match reply.evidenceDigest.filter fun digest => digest ≠ "" with
  | some digest => pure digest
  | none =>
    waitFor wire turn.runId (turn.evidence
      (if turn.resultPage || answer.model = fixedResponseModel then 0 else 1))

def streamAnswer (turn : Turn) (reply : V2Reply) (answer : Answer) : Streaming Unit := do
  let stream ← get
  let tableStreamed := !stream.sink.paintedOrdinals.isEmpty
  let envelopes := resultEnvelopes answer
  envelopes.forM (streamRecordDetails wire turn.runId)
  let outcomeType := terminalDisposition answer
  let (reasonCode, reasonMessage) := refusalReason answer outcomeType
  let answerText := firstText
    [reasonMessage, some answer.answer, envelopes.head?.map (·.answerText)]
  ProgressSinks.finishThought wire turn.runId
  streamCitations wire turn answer
  streamText wire turn (answerText.getD "") (contentKind tableStreamed answer.textKind)
  checkNotExpired wire turn.deadline
  let digest ← evidenceDigest wire turn reply answer
  let durationMs ← settle wire turn.runId
    (if reasonCode = some "timeout" then .failed else .completed)
  sendFrame wire turn.runId (.turnOutcome
      { outcomeType
        trusted := (answer.turnResult.map (·.trusted)).getD (outcomeType = "answered")
        threadId :=
          (answer.threadId.filter fun thread => thread ≠ "").or turn.threadId
        durationMs
        followUps := followUpActions answer outcomeType
        explanation := answer.explanation
        answerQueryId := firstText [envelopes.head?.map (·.answerQueryId)]
        evidenceDigest := some digest
        reasonCode
        message := reasonMessage
        businessQuery := answer.businessQuery.map (·.terminalForm)
        answerMode := answer.answerMode
        sourceExchangeIds := answer.sourceExchangeIds
        budget := answer.budget
        unansweredPart := answer.unansweredPart
        uiLinks := answer.uiLinks
        toolResult := (answer.turnResult.map (·.fields)).getD []
        feedbackToken := turn.feedbackToken })

/-- The turn is announced before there is a sink. -/
def acceptTurn (turn : Turn) : Streaming Unit := do
  sendFrame wire turn.runId (.turnAccepted turn.threadId turn.restoreRef)
  let turnStarted ← readClock wire
  let kind := if turn.activityEvents then SinkKind.askV2 else .null true
  modifySink fun sink => { sink with kind, turnStarted }

def streamReply (turn : Turn) (reply : V2Reply) : Streaming Unit := do
  let stream ← get
  if stream.sink.disclosureViolation then refuseDisclosure wire turn
  else
    match reply.result, isClarification reply.result with
    | .answer answer, false => do
        publishCommittedEnvelopes wire turn.runId turn.deadline (resultEnvelopes answer)
        let stream ← get
        if stream.sink.disclosureViolation then refuseDisclosure wire turn
        else streamAnswer wire turn reply answer
    | result, _ => emitClarificationCard wire turn result

/-- The wire code of a dependency that is not available. -/
def unavailableCodes : List (String × String) := [
  ("ResultPageDisabledError", "result_page_disabled"),
  ("CapabilityUnavailableError", "capability_unavailable"),
  ("DocumentUnavailableError", "document_unavailable"),
  ("ContinuationUnavailableError", "continuation_unavailable"),
  ("ModelRouteUnavailableError", "model_route_unavailable"),
  ("CircuitOpenError", "upstream_circuit_open"),
  ("ConversationStoreUnavailableError", "conversation_store_unavailable"),
  ("TranscriptStoreContentionError", "transcript_store_busy")
]

/-- Every failure but a cancellation ends the stream with a stream error. -/
def handleFailure (runId : RunId) (failure : Failure) : Streaming Unit :=
  match failure with
  | .continuationClaimRejected =>
    emitStreamError wire runId "continuation_rejected"
      (some (copyForReason (some "continuation_rejected") none)) false
  | .notFound =>
    emitStreamError wire runId "continuation_expired"
      (some (copyForReason (some "continuation_expired") none)) false
  | .serviceUnavailable className text =>
    let code := (unavailableCodes.lookup className).getD "capability_unavailable"
    emitStreamError wire runId code (some (copyForReason (some code) (some text))) false
  | .deadlineExpired | .timeout =>
    emitStreamError wire runId "deadline_exceeded" (some (copyForReason (some "timeout") none)) true
  | .queueBufferExceeded _ =>
    emitStreamError wire runId "buffer_exceeded"
      (some "That answer was larger than the panel can stream. Ask for fewer rows.")
      false
  | .terminalEvidence =>
    emitStreamError wire runId "evidence_missing"
      (some "I could not record that answer, so I am not showing it. Please ask again.")
      true
  | .cancelled => throw .cancelled
  | _ =>
    emitStreamError wire runId "internal_error"
      (some "Something went wrong on our side. Please try that again.") true

def closingQueue (program : Streaming Unit) : Streaming Unit := do
  let failed ← tryCatch (do
      program
      pure none)
    fun failure => pure (some failure)
  modify fun stream => { stream with queue := stream.queue.close }
  match failed with
  | none => pure ()
  | some failure => throw failure

def produceV2StreamEvents (turn : Turn) : Streaming Unit :=
  closingQueue (tryCatch (do
        acceptTurn wire turn
        checkNotExpired wire turn.deadline
        let reply ← waitFor wire turn.runId turn.ask
        streamReply wire turn reply)
      (handleFailure wire turn.runId))

/-- The frames of a streamed turn, and whether its producer was cancelled. -/
structure Streamed where
  frames : List AskV2Event
  cancelled : Bool

/-- Streams a turn on a fresh queue with given bounds.  Calls that outlive the
producer find the queue closed. -/
def streamTurn (maxBytes maxFrameBytes : Nat) (turn : Turn) (late : List Step) : Streamed :=
  let fresh : TurnStream := { queue := { maxBytes, maxFrameBytes } }
  match (produceV2StreamEvents wire turn).run fresh with
  | .ok _ stream =>
    ⟨(stateAfter (runSteps wire turn.runId late) stream).enqueued, false⟩
  | .error failure stream =>
    ⟨(stateAfter (runSteps wire turn.runId late) stream).enqueued, failure = .cancelled⟩

end Producer

end McpAssistant.Services.StreamProducer
