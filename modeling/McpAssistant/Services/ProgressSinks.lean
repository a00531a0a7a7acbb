import McpAssistant.Services.AskTables

/-!
# The progress sinks

A sink turns the stages an engine reports into frames.  One step is open at a
time, a thought belongs to the step that hosts it, and what shows part of an
answer waits for the authorized stage.  With activities switched off the other
sink paints tables alone.
-/

namespace McpAssistant.Services.ProgressSinks

open AskEvents AskStream AskTables
open Relation

/-- One sealed part of an answer, ready to paint. -/
structure CommittedTable where
  ordinal : Nat
  columns : List ResultColumn
  rows : List Row
  totalRowCount : Nat
  presentation : Option ResultPresentation

inductive SinkCall where
  | stage (reported : AskStage)
  | emit (reported : ProgressStage) (ordinal : Option Nat)
      (parts : Option PartCount) (subject : Option String)
  | table (part : CommittedTable)
  | emitThoughtDelta (chunk : String)
  | finishThought
  | fail
  | finish

def SinkCall.reportsAuthorized : SinkCall → Bool
  | .emit reported _ _ _ => reported = .authorized
  | _ => false

section Sinks

variable (wire : Wire) (runId : RunId)

namespace AskV2ProgressSink

/-- Hands one frame to the queue and says whether it was accepted. -/
def enqueue (content : EventContent) : Streaming Bool := do
  let stream ← get
  tryCatch (do
      putNumbered wire ⟨runId, stream.sequence.peek, content⟩
      pure true)
    fun failure =>
      match failure with
      | .queueBufferExceeded _ | .runtimeError _ => pure false
      | raised => throw raised

def nextActivityId (kind : ActivityKind) (ordinal : Option Nat) : Streaming String := do
  let stream ← get
  let base :=
    match ordinal with
    | some part => s!"act-{runId.text}-{kind.text}-{part}"
    | none => s!"act-{runId.text}-{kind.text}"
  let rounds := stream.sink.stepRounds (kind, ordinal) + 1
  modifySink fun sink => { sink with
    stepRounds := Function.update sink.stepRounds (kind, ordinal) rounds }
  pure (if rounds = 1 then base else s!"{base}-r{rounds}")

def putStep (step : ActiveStep) (state : ActivityState) (elapsedMs : Nat) : Streaming Unit := do
  let stream ← get
  if step.ordinal.isSome && !stream.sink.authorizedSeen then
    modifySink fun sink => { sink with disclosureViolation := true }
  else do
    let toolKind :=
      if step.kind = .thinking then "coordinator" else "business_query"
    let _ ← enqueue wire runId
      (.activity step.activityId step.kind toolKind state elapsedMs step.ordinal
        step.parts step.subject)
    pure ()

def finishThought : Streaming Unit := do
  let stream ← get
  match stream.sink.thought with
  | none => pure ()
  | some thought => do
    modifySink fun sink => { sink with thought := none }
    let durationMs ← msSince wire thought.started
    let _ ← enqueue wire runId (.thoughtDone thought.activityId durationMs)
    pure ()

def closeStep (state : ActivityState) : Streaming Unit := do
  let stream ← get
  match stream.sink.openStep with
  | none => pure ()
  | some step => do
    finishThought wire runId
    modifySink fun sink => { sink with openStep := none }
    let elapsedMs ← msSince wire step.started
    putStep wire runId step state elapsedMs

def noteAuthorized (kind : ActivityKind) : Streaming Unit :=
  if kind = .stage .authorized then
    modifySink fun sink => { sink with authorizedSeen := true }
  else pure ()

def openStep (kind : ActivityKind) (ordinal : Option Nat)
    (parts : Option PartCount) (subject : Option String) : Streaming Unit := do
  closeStep wire runId .completed
  noteAuthorized kind
  let activityId ← nextActivityId runId kind ordinal
  let started ← readClock wire
  let step : ActiveStep := { activityId, kind, started, ordinal, parts, subject }
  modifySink fun sink => { sink with openStep := some step }
  putStep wire runId step .running 0

/-- The step a legacy ask stage is shown as; the others are transport states. -/
def askStageKind : AskStage → Option ActivityKind
  | .thinking => some .thinking
  | .searchingDocuments => some .searchingDocuments
  | .readingPage => some .readingPage
  | .readingNextPage => some .readingPage
  | _ => none

def stage (reported : AskStage) : Streaming Unit :=
  match askStageKind reported with
  | some kind => openStep wire runId kind none none none
  | none => pure ()

def emit (reported : ProgressStage) (ordinal : Option Nat)
    (parts : Option PartCount) (subject : Option String) : Streaming Unit :=
  openStep wire runId (.stage reported) ordinal parts subject

/-- Announces the result stream once; a refused announcement is tried again at
the next table. -/
def announceResults : Streaming Bool := do
  let stream ← get
  if stream.sink.streamAuthorizedEmitted then pure true
  else do
    let accepted ← enqueue wire runId .resultStreamAuthorized
    modifySink fun sink => { sink with streamAuthorizedEmitted := accepted }
    pure accepted

def paint (part : CommittedTable) : Streaming Unit := do
  let columns ← liftResult .valueError (wireTableColumns wire.columnLabel part.columns)
  let _ ← paintCommittedTable wire runId part.ordinal part.rows columns
    part.presentation (some part.totalRowCount)
  modifySink fun sink => { sink with
    paintedOrdinals := part.ordinal :: sink.paintedOrdinals }

def table (part : CommittedTable) : Streaming Unit := do
  let stream ← get
  if stream.sink.authorizedSeen then
    if stream.sink.paintedOrdinals.contains part.ordinal then pure ()
    else do
      let announced ← announceResults wire runId
      if announced then paint wire runId part else pure ()
  else modifySink fun sink => { sink with disclosureViolation := true }

/-- The steps whose row holds the reasoning transcript. -/
def hostsThought (kind : ActivityKind) : Bool :=
  kind = .thinking || kind = .stage .planning

def emitThoughtDelta (chunk : String) : Streaming Unit := do
  let stream ← get
  if chunk = "" then pure ()
  else
    match stream.sink.thought, stream.sink.openStep with
    | some thought, _ => do
      let _ ← enqueue wire runId (.thoughtDelta thought.activityId chunk)
      pure ()
    | none, some host =>
      if hostsThought host.kind then do
        let accepted ← enqueue wire runId (.thoughtStart host.activityId)
        if accepted then do
          let started ← readClock wire
          modifySink fun sink => { sink with
            thought := some ⟨host.activityId, started⟩ }
          let _ ← enqueue wire runId (.thoughtDelta host.activityId chunk)
          pure ()
        else pure ()
      else pure ()
    | none, none => pure ()

/-- Closes what is open as failed or completed and reads the turn's time. -/
def settle (state : ActivityState) : Streaming Nat := do
  finishThought wire runId
  closeStep wire runId state
  let stream ← get
  msSince wire stream.sink.turnStarted

end AskV2ProgressSink

namespace NullProgressSink

def emit (reported : ProgressStage) : Streaming Unit :=
  AskV2ProgressSink.noteAuthorized (.stage reported)

/-- Here a refused announcement raises. -/
def announceResults : Streaming Unit := do
  let stream ← get
  if stream.sink.streamAuthorizedEmitted then pure ()
  else do
    sendFrame wire runId .resultStreamAuthorized
    modifySink fun sink => { sink with streamAuthorizedEmitted := true }

def table (part : CommittedTable) : Streaming Unit := do
  let stream ← get
  if stream.sink.authorizedSeen then
    if stream.sink.paintedOrdinals.contains part.ordinal then pure ()
    else do
      announceResults wire runId
      AskV2ProgressSink.paint wire runId part
  else modifySink fun sink => { sink with disclosureViolation := true }

def finish : Streaming Nat := do
  let stream ← get
  msSince wire stream.sink.turnStarted

end NullProgressSink

/-- Ends what is open, at the sink the turn has. -/
def settle (state : ActivityState) : Streaming Nat := do
  let stream ← get
  match stream.sink.kind with
  | .askV2 => AskV2ProgressSink.settle wire runId state
  | .null _ => NullProgressSink.finish wire

def paintTable (part : CommittedTable) : Streaming Unit := do
  let stream ← get
  match stream.sink.kind with
  | .askV2 => AskV2ProgressSink.table wire runId part
  | .null true => NullProgressSink.table wire runId part
  | .null false => pure ()

def finishThought : Streaming Unit := do
  let stream ← get
  match stream.sink.kind with
  | .askV2 => AskV2ProgressSink.finishThought wire runId
  | .null _ => pure ()

def perform (call : SinkCall) : Streaming Unit := do
  let stream ← get
  match stream.sink.kind, call with
  | .askV2, .stage reported => AskV2ProgressSink.stage wire runId reported
  | .askV2, .emit reported ordinal parts subject =>
    AskV2ProgressSink.emit wire runId reported ordinal parts subject
  | .askV2, .emitThoughtDelta chunk =>
    AskV2ProgressSink.emitThoughtDelta wire runId chunk
  | .null _, .stage _ => pure ()
  | .null _, .emit reported _ _ _ => NullProgressSink.emit reported
  | .null _, .emitThoughtDelta _ => pure ()
  | _, .table part => paintTable wire runId part
  | _, .finishThought => finishThought wire runId
  | _, .fail => do
      let _ ← settle wire runId .failed
      pure ()
  | _, .finish => do
      let _ ← settle wire runId .completed
      pure ()

/-- What happens while a turn waits: someone calls its sink, and whatever the
call raises is theirs, or the reader takes a frame. -/
inductive Step where
  | call (made : SinkCall)
  | receive

def takeStep : Step → Streaming Unit
  | .call made => tryCatch (perform wire runId made) fun _ => pure ()
  | .receive => receive

def runSteps (steps : List Step) : Streaming Unit :=
  steps.forM (takeStep wire runId)

end Sinks

end McpAssistant.Services.ProgressSinks
