import McpAssistant.BusinessQuery.PlannerAttempts
import Mathlib.Algebra.Ring.Int.Defs

/-!
# Planner attempts in Postgres

The Postgres sink appends events to a table with two unique keys, an attempt's
kind of event and an idempotency key's, and keeps the leases in a second table.
-/

namespace McpAssistant.BusinessQuery.PostgresAttempts

open AppendOnlyJournal PlannerAttempts

/-- A row of the events table.  Its payload is what its JSON reads back to. -/
structure EventRow (Payload : Type) where
  idempotencyKey : String
  eventDigest : String
  payload : Payload
deriving DecidableEq

/-- The events of one kind, by their two unique keys: the attempt, and the
idempotency key, which leads to the attempt. -/
structure EventTable (Payload : Type) where
  rows : String → Option (EventRow Payload) := fun _ => none
  keys : String → Option String := fun _ => none

/-- What an insert comes to. -/
inductive Inserted (Payload : Type) where
  | inserted (table : EventTable Payload)
  | conflict
  | uniqueViolation

namespace EventTable

variable {Payload : Type} (table : EventTable Payload)

def add (attemptId : String) (row : EventRow Payload) : EventTable Payload where
  rows := Function.update table.rows attemptId (some row)
  keys := Function.update table.keys row.idempotencyKey (some attemptId)

def insertOnKey (attemptId : String) (row : EventRow Payload) : Inserted Payload :=
  match table.keys row.idempotencyKey with
  | some _ => .conflict
  | none =>
    match table.rows attemptId with
    | some _ => .uniqueViolation
    | none => .inserted (table.add attemptId row)

def insertOnAttempt (attemptId : String) (row : EventRow Payload) : Inserted Payload :=
  match table.rows attemptId with
  | some _ => .conflict
  | none =>
    match table.keys row.idempotencyKey with
    | some _ => .uniqueViolation
    | none => .inserted (table.add attemptId row)

end EventTable

structure Lease where
  leaseOwner : String
  leaseEpoch : Int
  leaseExpiresAt : Int
deriving DecidableEq

structure PostgresPlannerAttemptSink where
  started : EventTable PlannerAttemptStart := {}
  responses : EventTable PlannerAttemptResponse := {}
  terminals : EventTable PlannerAttemptTerminal := {}
  leases : String → Option Lease := fun _ => none

def TextFits (length : Nat) (text : String) : Prop :=
  text.length ≤ length ∧ Char.ofNat 0 ∉ text.toList

/-- A number fits a column of eight bytes. -/
def NumberFits (number : Int) : Prop := number < 2 ^ 63

structure StartFits (start : PlannerAttemptStart) : Prop where
  attemptId : TextFits 128 start.attemptId
  idempotencyKey : TextFits 256 start.idempotencyKey
  projectId : TextFits 64 start.projectId
  runEpoch : TextFits 128 start.runEpoch
  caseId : TextFits 128 start.caseId
  repeatIndex : NumberFits start.repeatIndex
  plannerCallIndex : NumberFits start.plannerCallIndex
  leaseOwner : TextFits 128 start.leaseOwner
  leaseEpoch : NumberFits start.leaseEpoch

instance (length : Nat) (text : String) : Decidable (TextFits length text) :=
  inferInstanceAs (Decidable (_ ∧ _))

instance (number : Int) : Decidable (NumberFits number) :=
  inferInstanceAs (Decidable (_ < _))

theorem startFits_iff (start : PlannerAttemptStart) : StartFits start ↔
    TextFits 128 start.attemptId ∧ TextFits 256 start.idempotencyKey ∧
      TextFits 64 start.projectId ∧ TextFits 128 start.runEpoch ∧
        TextFits 128 start.caseId ∧ NumberFits start.repeatIndex ∧
          NumberFits start.plannerCallIndex ∧ TextFits 128 start.leaseOwner ∧
            NumberFits start.leaseEpoch := by
  constructor
  · intro fits
    exact ⟨fits.attemptId, fits.idempotencyKey, fits.projectId, fits.runEpoch,
      fits.caseId, fits.repeatIndex, fits.plannerCallIndex, fits.leaseOwner,
      fits.leaseEpoch⟩
  · rintro ⟨attemptId, idempotencyKey, projectId, runEpoch, caseId, repeatIndex,
      plannerCallIndex, leaseOwner, leaseEpoch⟩
    exact ⟨attemptId, idempotencyKey, projectId, runEpoch, caseId, repeatIndex,
      plannerCallIndex, leaseOwner, leaseEpoch⟩

instance (start : PlannerAttemptStart) : Decidable (StartFits start) :=
  decidable_of_iff _ (startFits_iff start).symm

def LeaseFits (owner : String) (leaseEpoch : Int) : Prop :=
  TextFits 128 owner ∧ NumberFits leaseEpoch

instance (owner : String) (leaseEpoch : Int) : Decidable (LeaseFits owner leaseEpoch) :=
  inferInstanceAs (Decidable (_ ∧ _))

/-- Why a call is refused: by the sink, or by the database. -/
inductive Refusal where
  | conflict (conflict : Conflict)
  | database
deriving DecidableEq

/-- What an attempt's writer appends. -/
inductive Appended where
  | responseCommitted (response : PlannerAttemptResponse)
  | terminal (terminal : PlannerAttemptTerminal)
deriving DecidableEq

namespace PostgresPlannerAttemptSink

variable (digests : Digests) (sink : PostgresPlannerAttemptSink)

def setLease (attemptId : String) (lease : Lease) : PostgresPlannerAttemptSink :=
  { sink with leases := Function.update sink.leases attemptId (some lease) }

def insertLease (attemptId : String) (lease : Lease) : PostgresPlannerAttemptSink :=
  match sink.leases attemptId with
  | some _ => sink
  | none => sink.setLease attemptId lease

def startRow (start : PlannerAttemptStart) : EventRow PlannerAttemptStart :=
  ⟨start.idempotencyKey, digests.start start, start⟩

def startLease (start : PlannerAttemptStart) : Lease :=
  ⟨start.leaseOwner, start.leaseEpoch, start.leaseExpiresAt⟩

/-- The row under the start's key is read back and its lease inserted. -/
def startCommitted (start : PlannerAttemptStart) :
    PostgresPlannerAttemptSink × Except Refusal Returned :=
  match sink.started.keys start.idempotencyKey with
  | none => (sink, .error (.conflict "attempt idempotency digest mismatch"))
  | some committedId =>
    match sink.started.rows committedId with
    | none => (sink, .error (.conflict "attempt idempotency digest mismatch"))
    | some committed =>
      if committed.eventDigest ≠ digests.start start then
        (sink, .error (.conflict "attempt idempotency digest mismatch"))
      else
        (sink.insertLease committedId (startLease start), .ok (.attemptId committedId))

def start (start : PlannerAttemptStart) : PostgresPlannerAttemptSink × Except Refusal Returned :=
  if ¬StartFits start then (sink, .error .database)
  else
    match sink.started.insertOnKey start.attemptId (startRow digests start) with
    | .uniqueViolation => (sink, .error .database)
    | .conflict => sink.startCommitted digests start
    | .inserted table =>
      -- Whatever fails after the insert rolls it back.
      match { sink with started := table }.startCommitted digests start with
      | (next, .ok returned) => (next, .ok returned)
      | (_, .error refusal) => (sink, .error refusal)

def get (attemptId : String) : Except Refusal PlannerAttemptJournal :=
  match sink.started.rows attemptId with
  | none => .error (.conflict "attempt not found")
  | some started =>
    .ok
      { start := started.payload
        startDigest := started.eventDigest
        response := (sink.responses.rows attemptId).map (·.payload)
        responseDigest := (sink.responses.rows attemptId).map (·.eventDigest)
        terminal := (sink.terminals.rows attemptId).map (·.payload)
        terminalDigest := (sink.terminals.rows attemptId).map (·.eventDigest) }

/-- Why an attempt whose terminal is not committed may not end so. -/
def terminalConflict (journal : PlannerAttemptJournal)
    (terminal : PlannerAttemptTerminal) : Option Conflict :=
  if terminal.terminalClass = .completed ∧ journal.response = none then
    some "attempt response commit required"
  else if terminal.terminalClass = .completionUnknown ∧ journal.response ≠ none then
    some "attempt response already committed"
  else none

def insertResponse (attemptId idempotencyKey : String) (response : PlannerAttemptResponse) :
    PostgresPlannerAttemptSink × Except Refusal Returned :=
  match sink.responses.insertOnAttempt attemptId
    ⟨idempotencyKey, digests.response response, response⟩ with
  | .uniqueViolation => (sink, .error .database)
  | .inserted table => ({ sink with responses := table }, .ok .done)
  | .conflict =>
    if (sink.responses.rows attemptId).map (·.eventDigest) ≠ some (digests.response response) then
      (sink, .error (.conflict "attempt response digest mismatch"))
    else (sink, .ok .done)

def insertTerminal (attemptId idempotencyKey : String) (terminal : PlannerAttemptTerminal) :
    PostgresPlannerAttemptSink × Except Refusal Returned :=
  match sink.terminals.insertOnAttempt attemptId
    ⟨idempotencyKey, digests.terminal terminal, terminal⟩ with
  | .uniqueViolation => (sink, .error .database)
  | .inserted table => ({ sink with terminals := table }, .ok .done)
  | .conflict =>
    if (sink.terminals.rows attemptId).map (·.eventDigest) ≠ some (digests.terminal terminal) then
      (sink, .error (.conflict "attempt terminal already committed"))
    else (sink, .ok .done)

/-- What a writer whose lease is current appends to an attempt. -/
def appendTo (attemptId : String) (journal : PlannerAttemptJournal) (appended : Appended) :
    PostgresPlannerAttemptSink × Except Refusal Returned :=
  match appended with
  | .responseCommitted response =>
    if journal.terminal ≠ none then
      (sink, .error (.conflict "attempt terminal already committed"))
    else if journal.response ≠ none then
      if journal.responseDigest = some (digests.response response) then
        (sink, .ok .done)
      else (sink, .error (.conflict "attempt response digest mismatch"))
    else
      sink.insertResponse digests attemptId journal.start.idempotencyKey response
  | .terminal terminal =>
    if journal.terminal ≠ none then
      if journal.terminalDigest = some (digests.terminal terminal) then
        (sink, .ok .done)
      else (sink, .error (.conflict "attempt terminal already committed"))
    else
      match terminalConflict journal terminal with
      | some conflict => (sink, .error (.conflict conflict))
      | none =>
        sink.insertTerminal digests attemptId journal.start.idempotencyKey terminal

def append (attemptId : String) (expectedLeaseEpoch : Int) (appended : Appended) :
    PostgresPlannerAttemptSink × Except Refusal Returned :=
  match sink.leases attemptId with
  | none => (sink, .error (.conflict "attempt stale lease epoch"))
  | some lease =>
    if lease.leaseEpoch ≠ expectedLeaseEpoch then
      (sink, .error (.conflict "attempt stale lease epoch"))
    else
      match sink.get attemptId with
      | .error refusal => (sink, .error refusal)
      | .ok journal => sink.appendTo digests attemptId journal appended

def claimRecovery (attemptId owner : String) (now leaseExpiresAt : Int) :
    PostgresPlannerAttemptSink × Except Refusal Returned :=
  match sink.leases attemptId with
  | none => (sink, .error (.conflict "attempt not found"))
  | some lease =>
    match sink.get attemptId with
    | .error refusal => (sink, .error refusal)
    | .ok journal =>
      if journal.terminal ≠ none then
        (sink, .error (.conflict "attempt terminal already committed"))
      else if now < lease.leaseExpiresAt then
        (sink, .error (.conflict "attempt lease is active"))
      else if ¬LeaseFits owner (lease.leaseEpoch + 1) then
        (sink, .error .database)
      else
        (sink.setLease attemptId ⟨owner, lease.leaseEpoch + 1, leaseExpiresAt⟩,
          .ok (.leaseEpoch (lease.leaseEpoch + 1)))

def call (call : AttemptCall) (sink : PostgresPlannerAttemptSink) :
    PostgresPlannerAttemptSink × Except Refusal Returned :=
  match call with
  | .start start => sink.start digests start
  | .commitResponse attemptId expectedLeaseEpoch response =>
    sink.append digests attemptId expectedLeaseEpoch (.responseCommitted response)
  | .finish attemptId expectedLeaseEpoch terminal =>
    sink.append digests attemptId expectedLeaseEpoch (.terminal terminal)
  | .claimRecovery attemptId owner now leaseExpiresAt =>
    sink.claimRecovery attemptId owner now leaseExpiresAt

end PostgresPlannerAttemptSink

end McpAssistant.BusinessQuery.PostgresAttempts
