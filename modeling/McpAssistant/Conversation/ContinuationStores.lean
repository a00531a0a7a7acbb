import McpAssistant.Conversation.ContinuationLifecycle

/-!
# Two stores of continuations

The process-local store changes a record without an await.  The Redis store
watches the key, reads it and writes it in a transaction that fails when the key
was changed.  Every call is a position between two of its commands, and the calls
of all turns interleave.
-/

namespace McpAssistant.Conversation.ContinuationStores

open PendingContinuation ContinuationLifecycle

variable {Json : Type}

inductive Call (Json : Type) where
  | creates (creation : Creation Json)
  | claims (turn : Turn)
  | claimReads (turn : Turn) (version : Nat)
  | claimCommits (turn : Turn) (version : Nat) (claim : ContinuationClaim Json)
      (next : Continuation Json)
  | joins (turn : Turn)
  | waits (turn : Turn) (executionId : String)
  | joinReads (turn : Turn) (executionId : String)
  | settles (jti executionId : String) (settlement : Settlement Json)
  | settleReads (jti executionId : String) (settlement : Settlement Json) (version : Nat)
  | settleCommits (jti : String) (version : Nat) (next : Continuation Json)
deriving DecidableEq

/-- The stored records, the running calls, and what was noted.  `writes` counts
the changes of a key: a watched key was changed when its count was. -/
structure Continuations (Json : Type) where
  records : String → Option (Continuation Json) := fun _ => none
  writes : String → Nat := fun _ => 0
  calls : Nat → Option (Call Json) := fun _ => none
  log : List (Event Json) := []

namespace Continuations

variable (continuations : Continuations Json)

def note (event : Event Json) : Continuations Json :=
  { continuations with log := event :: continuations.log }

def store (jti : String) (event : Event Json) (record : Continuation Json) : Continuations Json :=
  { continuations with
    records := Function.update continuations.records jti (some record)
    writes := Function.update continuations.writes jti (continuations.writes jti + 1)
    log := event :: continuations.log }

/-- A key goes.  Who watches it may not notice. -/
def drop (jti : String) (noticed : Bool) : Continuations Json :=
  { continuations with
    records := Function.update continuations.records jti none
    writes := Function.update continuations.writes jti (continuations.writes jti + noticed.toNat) }

end Continuations

/-- What the clock reads, time after time, and what is left of a turn's
deadline. -/
structure Readings where
  first : Rat
  second : Rat
  third : Rat
  remainingSeconds : Rat
deriving DecidableEq

def claimEvent (jti : String) (claim : ContinuationClaim Json)
    (next : Continuation Json) : Event Json :=
  match claim with
  | .claimed => .claimed jti next
  | _ => .ended jti next

def answeredEvent (turn : Turn) (outcome : Json) : Event Json :=
  .answered turn.jti turn.principalBindingHash turn.idempotencyKeyHash outcome

/-- A turn is told what its claim came to, where nothing was stored.  It joins
the execution that is under way. -/
def claimAnswered (turn : Turn) (claim : ContinuationClaim Json)
    (continuations : Continuations Json) :
    Continuations Json × Option (Call Json) :=
  match claim with
  | .reclaimed =>
    (continuations.note (.reclaimed turn.jti turn.executionId), none)
  | .inProgress => (continuations, some (.joins turn))
  | .completed (some outcome) =>
    (continuations.note (answeredEvent turn outcome), none)
  | _ => (continuations, none)

def joinAnswered (turn : Turn) (result : ContinuationJoinResult Json)
    (continuations : Continuations Json) :
    Continuations Json × Option (Call Json) :=
  match result.status, result.answer with
  | .completed, some outcome =>
    (continuations.note (answeredEvent turn outcome), none)
  | _, _ => (continuations, none)

def joinsRecord (turn : Turn) (now remainingSeconds : Rat)
    (record : Continuation Json) (continuations : Continuations Json) :
    Continuations Json × Option (Call Json) :=
  match joinRecord record turn.idempotencyKeyHash now remainingSeconds with
  | .answers result => joinAnswered turn result continuations
  | .failsLease executionId =>
    (continuations, some (.settles turn.jti executionId (.failed (some "lease_expired"))))
  | .waits executionId => (continuations, some (.waits turn executionId))

/-- What a call of the Redis store does up to its next command, and where it is
then.  A transaction that fails makes the store unavailable to the call. -/
def performRedis (readings : Readings) : Call Json → Continuations Json →
    Continuations Json × Option (Call Json)
  | .creates creation, continuations =>
    (continuations.store creation.jti (.created creation.jti (creation.continuation readings.first))
      (creation.continuation readings.first), none)
  | .claims turn, continuations =>
    (continuations, some (.claimReads turn (continuations.writes turn.jti)))
  | .claimReads turn version, continuations =>
    match continuations.records turn.jti with
    | none => (continuations, none)
    | some record =>
      if record.expiresAt < readings.first then (continuations, none)
      else
        match claimRecord record turn readings.second with
        | (claim, some next) =>
          (continuations, some (.claimCommits turn version claim next))
        | (claim, none) => claimAnswered turn claim continuations
  | .claimCommits turn version claim next, continuations =>
    if continuations.writes turn.jti = version then
      (continuations.store turn.jti (claimEvent turn.jti claim next) next, none)
    else (continuations, none)
  | .joins turn, continuations =>
    match continuations.records turn.jti with
    | none => (continuations, none)
    | some record =>
      if record.expiresAt < readings.first then (continuations, none)
      else
        joinsRecord turn readings.second readings.remainingSeconds record continuations
  | .waits turn executionId, continuations =>
    (continuations, some (.joinReads turn executionId))
  | .joinReads turn executionId, continuations =>
    joinAnswered turn (joinWaited executionId (continuations.records turn.jti)) continuations
  | .settles jti executionId settlement, continuations =>
    (continuations, some (.settleReads jti executionId settlement (continuations.writes jti)))
  | .settleReads jti executionId settlement version, continuations =>
    match continuations.records jti with
    | none => (continuations, none)
    | some record =>
      match settleRecord record executionId settlement with
      | none => (continuations, none)
      | some next => (continuations, some (.settleCommits jti version next))
  | .settleCommits jti version next, continuations =>
    if continuations.writes jti = version then
      (continuations.store jti (.ended jti next) next, none)
    else (continuations, none)

/-- The same in the process-local store, which drops a record that it finds
expired. -/
def performMemory (readings : Readings) : Call Json → Continuations Json →
    Continuations Json × Option (Call Json)
  | .creates creation, continuations =>
    (continuations.store creation.jti (.created creation.jti (creation.continuation readings.first))
      (creation.continuation readings.first), none)
  | .claims turn, continuations =>
    match continuations.records turn.jti with
    | none => (continuations, none)
    | some record =>
      if record.expiresAt < readings.first then
        (continuations.drop turn.jti true, none)
      else
        match claimRecord record turn readings.second with
        | (claim, some next) =>
          (continuations.store turn.jti (claimEvent turn.jti claim next) next, none)
        | (claim, none) => claimAnswered turn claim continuations
  | .joins turn, continuations =>
    match continuations.records turn.jti with
    | none => (continuations, none)
    | some record =>
      if record.expiresAt < readings.first then
        (continuations.drop turn.jti true, none)
      else if record.expiresAt < readings.second then (continuations, none)
      else
        joinsRecord turn readings.third readings.remainingSeconds record continuations
  | .waits turn executionId, continuations =>
    (continuations, some (.joinReads turn executionId))
  | .joinReads turn executionId, continuations =>
    joinAnswered turn (joinWaited executionId (continuations.records turn.jti)) continuations
  | .settles jti executionId settlement, continuations =>
    match continuations.records jti with
    | none => (continuations, none)
    | some record =>
      match settleRecord record executionId settlement with
      | none => (continuations, none)
      | some next => (continuations.store jti (.ended jti next) next, none)
  -- The process-local store has no position between two commands.
  | .claimReads _ _, continuations => (continuations, none)
  | .claimCommits _ _ _ _, continuations => (continuations, none)
  | .settleReads _ _ _ _, continuations => (continuations, none)
  | .settleCommits _ _ _, continuations => (continuations, none)

inductive Backend where
  | memory
  | redis
deriving DecidableEq

def perform (backend : Backend) (readings : Readings) :
    Call Json → Continuations Json → Continuations Json × Option (Call Json) :=
  match backend with
  | .memory => performMemory readings
  | .redis => performRedis readings

/-- A call as a turn makes it: a turn that brings a reply claims its record and
joins who holds it already; whoever knows its execution may end it. -/
inductive Request (Json : Type) where
  | createPending (creation : Creation Json)
  | reply (turn : Turn)
  | completePending (jti executionId : String) (terminalOutcome : Json)
      (aqid digest : Option String)
  | failPending (jti executionId : String) (errorDetail : Option String)
deriving DecidableEq

def Request.call : Request Json → Call Json
  | createPending creation => .creates creation
  | reply turn => .claims turn
  | completePending jti executionId terminalOutcome aqid digest =>
    .settles jti executionId (.completed terminalOutcome aqid digest)
  | failPending jti executionId errorDetail =>
    .settles jti executionId (.failed errorDetail)

/-- What can happen next: a call starts, takes its next step or is abandoned; a
key of Redis expires. -/
inductive Choice (Json : Type) where
  | begins (call : Nat) (request : Request Json)
  | performs (call : Nat) (readings : Readings)
  | abandons (call : Nat)
  | expires (jti : String) (noticed : Bool)
deriving DecidableEq

def step (backend : Backend) : Choice Json → Continuations Json → Continuations Json
  | .begins call request, continuations =>
    match continuations.calls call with
    | some _ => continuations
    | none =>
      { continuations with
        calls := Function.update continuations.calls call (some request.call) }
  | .performs call readings, continuations =>
    match continuations.calls call with
    | none => continuations
    | some position =>
      { (perform backend readings position continuations).1 with
        calls := Function.update continuations.calls call
          (perform backend readings position continuations).2 }
  | .abandons call, continuations =>
    { continuations with
      calls := Function.update continuations.calls call none }
  | .expires jti noticed, continuations =>
    match backend with
    | .memory => continuations
    | .redis => continuations.drop jti noticed

end McpAssistant.Conversation.ContinuationStores
