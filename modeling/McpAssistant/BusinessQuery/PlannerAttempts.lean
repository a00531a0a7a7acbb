import McpAssistant.BusinessQuery.AppendOnlyJournal
import Mathlib.Logic.Function.Basic

/-!
# Planner attempts

An attempt starts, commits a response and ends with a terminal.  The process-local
sink keeps a journal entry and a response for each, and makes every change while
it holds its lock, so a call's change is one step.
-/

namespace McpAssistant.BusinessQuery.PlannerAttempts

open AppendOnlyJournal

inductive PlannerTerminalClass where
  | completed
  | plannerProtocol
  | plannerSemantic
  | providerError
  | timeout
  | cancelled
  | completionUnknown
deriving DecidableEq

inductive PlannerTerminalCode where
  | planValid
  | clarificationRequired
  | unsupported
  | plannerEmptyContent
  | plannerInvalidJson
  | plannerSchemaInvalid
  | plannerShapeMismatch
  | plannerCapabilityMismatch
  | plannerProviderUnavailable
  | plannerTimeout
  | plannerCancelled
  | completionUnknown
deriving DecidableEq

def PlannerTerminalCode.expectedClass : PlannerTerminalCode → PlannerTerminalClass
  | planValid => .completed
  | clarificationRequired => .completed
  | unsupported => .completed
  | plannerEmptyContent => .plannerProtocol
  | plannerInvalidJson => .plannerProtocol
  | plannerSchemaInvalid => .plannerProtocol
  | plannerShapeMismatch => .plannerSemantic
  | plannerCapabilityMismatch => .plannerProtocol
  | plannerProviderUnavailable => .providerError
  | plannerTimeout => .timeout
  | plannerCancelled => .cancelled
  | completionUnknown => .completionUnknown

inductive PlannerRawShapeClass where
  | empty
  | jsonObject
  | jsonString
  | jsonArray
  | jsonScalar
  | other
deriving DecidableEq

inductive PlannerValidationResult where
  | validPlan
  | validClarification
  | validUnsupported
  | emptyContent
  | invalidJson
  | schemaInvalid
deriving DecidableEq

/-- The start of an attempt.  Its idempotency key spells its identity, and its
lease goes past its start.  Times are counted in microseconds. -/
structure PlannerAttemptStart where
  attemptId : String
  idempotencyKey : String
  projectId : String
  runEpoch : String
  caseId : String
  repeatIndex : Nat
  plannerCallIndex : Nat
  leaseOwner : String
  leaseEpoch : Int
  leaseExpiresAt : Int
  startedAt : Int
  provider : String
  deployment : String
  outputMode : String
  effort : Option String := none
  promptAdjunctHash : Option String := none
  schemaHash : Option String := none
  historyDigest : Option String := none
  firstEpoch : 1 ≤ leaseEpoch
  stableIdentity : idempotencyKey =
    s!"{runEpoch}:{caseId}:{repeatIndex}:{plannerCallIndex}"
  liveLease : startedAt < leaseExpiresAt
deriving DecidableEq

structure PlannerAttemptResponse where
  responseDigest : String
  rawShapeClass : PlannerRawShapeClass
  validationResult : PlannerValidationResult
  planFingerprint : Option String := none
  repairHintCode : Option String := none
  committedAt : Int
deriving DecidableEq

structure PlannerAttemptTerminal where
  terminalClass : PlannerTerminalClass
  terminalCode : PlannerTerminalCode
  durationMs : Nat
  answerQueryId : Option String := none
  finishedAt : Int
  codeMatchesClass : terminalClass = terminalCode.expectedClass
deriving DecidableEq

/-- The digests of what is journalled: a hash of its canonical JSON. -/
structure Digests where
  start : PlannerAttemptStart → String
  response : PlannerAttemptResponse → String
  terminal : PlannerAttemptTerminal → String

/-- What a sink tells of an attempt. -/
structure PlannerAttemptJournal where
  start : PlannerAttemptStart
  startDigest : String
  response : Option PlannerAttemptResponse := none
  responseDigest : Option String := none
  terminal : Option PlannerAttemptTerminal := none
  terminalDigest : Option String := none
deriving DecidableEq

inductive AttemptCall where
  | start (start : PlannerAttemptStart)
  | commitResponse (attemptId : String) (expectedLeaseEpoch : Int)
      (response : PlannerAttemptResponse)
  | finish (attemptId : String) (expectedLeaseEpoch : Int) (terminal : PlannerAttemptTerminal)
  | claimRecovery (attemptId owner : String) (now leaseExpiresAt : Int)
deriving DecidableEq

/-- What a call returns, where it is not refused. -/
inductive Returned where
  | attemptId (attemptId : String)
  | done
  | leaseEpoch (leaseEpoch : Int)
deriving DecidableEq

abbrev AttemptState := JournalState PlannerAttemptStart PlannerAttemptTerminal

structure InMemoryPlannerAttemptSink where
  attempts : String → Option AttemptState := fun _ => none
  responses : String → Option (PlannerAttemptResponse × String) := fun _ => none
  idempotency : String → Option String := fun _ => none

namespace InMemoryPlannerAttemptSink

variable (digests : Digests) (sink : InMemoryPlannerAttemptSink)

def setAttempt (attemptId : String) (state : AttemptState) : InMemoryPlannerAttemptSink :=
  { sink with attempts := Function.update sink.attempts attemptId (some state) }

def setResponse (attemptId : String)
    (response : PlannerAttemptResponse × String) : InMemoryPlannerAttemptSink :=
  { sink with
    responses := Function.update sink.responses attemptId (some response) }

def setIdempotency (idempotencyKey attemptId : String) : InMemoryPlannerAttemptSink :=
  { sink with
    idempotency := Function.update sink.idempotency idempotencyKey (some attemptId) }

def required (attemptId : String) : Except Conflict AttemptState :=
  requireEntry (sink.attempts attemptId) "attempt not found"

def candidate (start : PlannerAttemptStart) : AttemptState where
  start := start
  startDigest := digests.start start
  leaseEpoch := start.leaseEpoch
  leaseOwner := start.leaseOwner
  leaseExpiresAt := start.leaseExpiresAt

/-- The entry under a start's idempotency key.  An empty id counts as none. -/
def existingByIdempotencyKey (start : PlannerAttemptStart) : Option AttemptState :=
  match sink.idempotency start.idempotencyKey with
  | some priorId => if priorId = "" then none else sink.attempts priorId
  | none => none

/-- The entry ended without anybody knowing how. -/
def Uncertain (state : AttemptState) : Prop :=
  ∃ terminal, state.terminal = some terminal ∧ terminal.terminalClass = .completionUnknown

instance (state : AttemptState) : Decidable (Uncertain state) :=
  match isTerminal : state.terminal with
  | none => .isFalse fun ⟨_, found, _⟩ => by
      rw [isTerminal] at found
      cases found
  | some terminal =>
    if unknown : terminal.terminalClass = .completionUnknown then
      .isTrue ⟨terminal, isTerminal, unknown⟩
    else
      .isFalse fun ⟨_, found, isUnknown⟩ => by
        rw [isTerminal] at found
        cases found
        exact unknown isUnknown

def start (start : PlannerAttemptStart) : InMemoryPlannerAttemptSink × Except Conflict Returned :=
  if ∃ existing ∈ sink.existingByIdempotencyKey start, Uncertain existing then
    (sink, .error "uncertain completion; do not retry blindly")
  else
    match startEntry (candidate digests start)
      (sink.existingByIdempotencyKey start) (sink.attempts start.attemptId) with
    | .error conflict => (sink, .error conflict)
    | .ok _ =>
      match sink.idempotency start.idempotencyKey with
      | some priorId => (sink, .ok (.attemptId priorId))
      | none =>
        ((sink.setAttempt start.attemptId (candidate digests start)).setIdempotency
          start.idempotencyKey start.attemptId,
          .ok (.attemptId start.attemptId))

def commitResponse (attemptId : String) (expectedLeaseEpoch : Int)
    (response : PlannerAttemptResponse) :
    InMemoryPlannerAttemptSink × Except Conflict Returned :=
  match sink.required attemptId with
  | .error conflict => (sink, .error conflict)
  | .ok state =>
    match checkLeaseEpoch state expectedLeaseEpoch with
    | .error conflict => (sink, .error conflict)
    | .ok _ =>
      if state.terminal ≠ none then
        (sink, .error "attempt terminal already committed")
      else
        match sink.responses attemptId with
        | some existing =>
          if existing.2 ≠ digests.response response then
            (sink, .error "attempt response digest mismatch")
          else (sink, .ok .done)
        | none =>
          (sink.setResponse attemptId (response, digests.response response), .ok .done)

/-- Why an open attempt may not end so. -/
def finishConflict (state : AttemptState) (response : Option (PlannerAttemptResponse × String))
    (terminal : PlannerAttemptTerminal) : Option Conflict :=
  if state.terminal ≠ none then none
  else if terminal.terminalClass = .completed ∧ response = none then
    some "attempt response commit required"
  else if terminal.terminalClass = .completionUnknown ∧ response ≠ none then
    some "attempt response already committed"
  else none

def finish (attemptId : String) (expectedLeaseEpoch : Int) (terminal : PlannerAttemptTerminal) :
    InMemoryPlannerAttemptSink × Except Conflict Returned :=
  match sink.required attemptId with
  | .error conflict => (sink, .error conflict)
  | .ok state =>
    match checkLeaseEpoch state expectedLeaseEpoch with
    | .error conflict => (sink, .error conflict)
    | .ok _ =>
      match finishConflict state (sink.responses attemptId) terminal with
      | some conflict => (sink, .error conflict)
      | none =>
        match commitTerminal state expectedLeaseEpoch terminal (digests.terminal terminal) with
        | .error conflict => (sink, .error conflict)
        | .ok next => (sink.setAttempt attemptId next, .ok .done)

def claimRecovery (attemptId owner : String) (now leaseExpiresAt : Int) :
    InMemoryPlannerAttemptSink × Except Conflict Returned :=
  match sink.required attemptId with
  | .error conflict => (sink, .error conflict)
  | .ok state =>
    match reclaimLease state now owner leaseExpiresAt with
    | .error conflict => (sink, .error conflict)
    | .ok next =>
      (sink.setAttempt attemptId next, .ok (.leaseEpoch next.leaseEpoch))

def get (attemptId : String) : Except Conflict PlannerAttemptJournal :=
  match sink.required attemptId with
  | .error conflict => .error conflict
  | .ok state =>
    .ok
      { start := state.start
        startDigest := state.startDigest
        response := (sink.responses attemptId).map (·.1)
        responseDigest := (sink.responses attemptId).map (·.2)
        terminal := state.terminal
        terminalDigest := state.terminalDigest }

/-- A call, made while its writer holds the lock. -/
def call (call : AttemptCall) (sink : InMemoryPlannerAttemptSink) :
    InMemoryPlannerAttemptSink × Except Conflict Returned :=
  match call with
  | .start start => sink.start digests start
  | .commitResponse attemptId expectedLeaseEpoch response =>
    sink.commitResponse digests attemptId expectedLeaseEpoch response
  | .finish attemptId expectedLeaseEpoch terminal =>
    sink.finish digests attemptId expectedLeaseEpoch terminal
  | .claimRecovery attemptId owner now leaseExpiresAt =>
    sink.claimRecovery attemptId owner now leaseExpiresAt

end InMemoryPlannerAttemptSink

end McpAssistant.BusinessQuery.PlannerAttempts
