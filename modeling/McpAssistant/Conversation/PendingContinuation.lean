import Mathlib.Algebra.Order.Ring.Unbundled.Rat

/-!
# Pending continuations

A question back to the user leaves a record under a ticket's id.  A turn that
brings the reply claims the record for a time, and the turn that holds it
completes or fails it.  Both conversation stores keep the record so; what is
below is what they do with one they have read.
-/

namespace McpAssistant.Conversation.PendingContinuation

inductive Status where
  | pending
  | claimed
  | completed
  | terminalFailed
deriving DecidableEq

namespace Status

/-- Nothing is done with the record any more. -/
def Terminal (status : Status) : Prop :=
  status = completed ∨ status = terminalFailed

end Status

variable {Json : Type}

/-- A record under a ticket's id.  A key that is absent reads as one that is
null. -/
structure Continuation (Json : Type) where
  status : Status
  executionId : String
  threadId : Option String
  principalBindingHash : String
  intentHash : String
  pendingBlob : Json
  question : String
  expiresAt : Int
  createdAt : Rat
  leaseUntil : Option Rat := none
  idempotencyKeyHash : Option String := none
  claimedBy : Option String := none
  terminalOutcome : Option Json := none
  terminalAqid : Option String := none
  terminalDigest : Option String := none
  errorDetail : Option String := none
deriving DecidableEq

/-- What a question back to the user leaves. -/
structure Creation (Json : Type) where
  jti : String
  executionId : String
  threadId : Option String
  principalBindingHash : String
  intentHash : String
  pendingBlob : Json
  expiresAt : Int
  question : String := ""
deriving DecidableEq

def Creation.continuation (creation : Creation Json) (now : Rat) : Continuation Json where
  status := .pending
  executionId := creation.executionId
  threadId := creation.threadId
  principalBindingHash := creation.principalBindingHash
  intentHash := creation.intentHash
  pendingBlob := creation.pendingBlob
  question := creation.question
  expiresAt := creation.expiresAt
  createdAt := now

/-- A turn that brings a reply. -/
structure Turn where
  jti : String
  executionId : String
  idempotencyKeyHash : String
  principalBindingHash : String
  threadId : Option String
  leaseSeconds : Int := 60
deriving DecidableEq

inductive ContinuationClaim (Json : Type) where
  | claimed
  | reclaimed
  | inProgress
  | completed (answer : Option Json)
  | rejected
deriving DecidableEq

/-- What a turn's claim of a record that has not expired is answered, and the
record to store. -/
def claimRecord (record : Continuation Json) (turn : Turn) (now : Rat) :
    ContinuationClaim Json × Option (Continuation Json) :=
  if record.principalBindingHash ≠ turn.principalBindingHash then
    (.rejected, none)
  else if record.threadId ≠ none ∧ record.threadId ≠ turn.threadId then
    (.rejected, none)
  else
    match record.status with
    | .pending =>
      (.claimed, some
        { record with
          status := .claimed
          idempotencyKeyHash := some turn.idempotencyKeyHash
          claimedBy := some turn.executionId
          leaseUntil := some (now + turn.leaseSeconds) })
    | .claimed =>
      if record.leaseUntil.getD 0 < now then
        (.rejected, some
          { record with
            status := .terminalFailed
            errorDetail := some "lease_expired" })
      else if record.idempotencyKeyHash ≠ some turn.idempotencyKeyHash then
        (.rejected, none)
      else if record.claimedBy = some turn.executionId then (.reclaimed, none)
      else (.inProgress, none)
    | .completed =>
      if record.idempotencyKeyHash = some turn.idempotencyKeyHash then
        (.completed record.terminalOutcome, none)
      else (.rejected, none)
    | .terminalFailed => (.rejected, none)

/-- How a claimed record ends. -/
inductive Settlement (Json : Type) where
  | completed (terminalOutcome : Json) (aqid digest : Option String)
  | failed (errorDetail : Option String)
deriving DecidableEq

def Settlement.apply (settlement : Settlement Json)
    (record : Continuation Json) : Continuation Json :=
  match settlement with
  | completed terminalOutcome aqid digest =>
    { record with
      status := .completed
      terminalOutcome := some terminalOutcome
      terminalAqid := aqid
      terminalDigest := digest }
  | failed errorDetail =>
    { record with
      status := .terminalFailed
      errorDetail := errorDetail }

/-- The record to store when an execution completes or fails it, where it is
claimed. -/
def settleRecord (record : Continuation Json) (executionId : String)
    (settlement : Settlement Json) : Option (Continuation Json) :=
  if record.executionId ≠ executionId then none
  else if record.status ≠ .claimed then none
  else some (settlement.apply record)

inductive JoinStatus where
  | completed
  | mismatch
  | expired
  | continuationUnavailable
  | failed
deriving DecidableEq

structure ContinuationJoinResult (Json : Type) where
  status : JoinStatus
  executionId : Option String := none
  answer : Option Json := none
  aqid : Option String := none
  terminalDigest : Option String := none
deriving DecidableEq

/-- What a joining turn does with the record it has read. -/
inductive Joining (Json : Type) where
  | answers (result : ContinuationJoinResult Json)
  | failsLease (executionId : String)
  | waits (executionId : String)
deriving DecidableEq

def completedResult (record : Continuation Json) : ContinuationJoinResult Json where
  status := .completed
  executionId := some record.executionId
  answer := record.terminalOutcome
  aqid := record.terminalAqid
  terminalDigest := record.terminalDigest

def joinRecord (record : Continuation Json) (idempotencyKeyHash : String)
    (now remainingSeconds : Rat) : Joining Json :=
  if record.idempotencyKeyHash ≠ some idempotencyKeyHash then
    .answers { status := .mismatch, executionId := record.executionId }
  else
    match record.status with
    | .completed => .answers (completedResult record)
    | .terminalFailed =>
      .answers { status := .failed, executionId := record.executionId }
    | .claimed =>
      if record.leaseUntil.getD 0 < now then .failsLease record.executionId
      else if min remainingSeconds 10 ≤ 0 then
        .answers
          { status := .continuationUnavailable
            executionId := record.executionId }
      else .waits record.executionId
    | .pending =>
      .answers
        { status := .continuationUnavailable
          executionId := record.executionId }

/-- What a turn is answered when its waiting is over. -/
def joinWaited (executionId : String) (record : Option (Continuation Json)) :
    ContinuationJoinResult Json :=
  match record with
  | some record =>
    if record.status = .completed then completedResult record
    else { status := .continuationUnavailable, executionId := executionId }
  | none => { status := .continuationUnavailable, executionId := executionId }

structure Continues (record next : Continuation Json) : Prop where
  principal : next.principalBindingHash = record.principalBindingHash
  key : record.status = .pending ∨
    next.idempotencyKeyHash = record.idempotencyKeyHash
  holder : record.status = .pending ∨ next.claimedBy = record.claimedBy

structure Ends (record next : Continuation Json) : Prop where
  claimed : record.status = .claimed
  terminal : next.status.Terminal
  continues : Continues record next

structure Claims (turn : Turn) (record next : Continuation Json) : Prop where
  pending : record.status = .pending
  claimed : next.status = .claimed
  continues : Continues record next
  key : next.idempotencyKeyHash = some turn.idempotencyKeyHash
  holder : next.claimedBy = some turn.executionId

theorem Settlement.ends (settlement : Settlement Json)
    {record : Continuation Json} (claimed : record.status = .claimed) :
    Ends record (settlement.apply record) := by
  cases settlement with
  | completed terminalOutcome aqid digest =>
    exact ⟨claimed, .inl rfl, rfl, .inr rfl, .inr rfl⟩
  | failed errorDetail =>
    exact ⟨claimed, .inr rfl, rfl, .inr rfl, .inr rfl⟩

theorem ends_of_settleRecord {record next : Continuation Json}
    {executionId : String} {settlement : Settlement Json}
    (settled : settleRecord record executionId settlement = some next) :
    Ends record next := by
  unfold settleRecord at settled
  split at settled
  · cases settled
  · split at settled
    · cases settled
    · rename_i claimed
      cases settled
      exact settlement.ends (not_not.mp claimed)

structure SameRequest (turn : Turn) (record : Continuation Json) : Prop where
  principal : record.principalBindingHash = turn.principalBindingHash
  key : record.idempotencyKeyHash = some turn.idempotencyKeyHash

/-- What a claim may come to. -/
inductive Claiming (turn : Turn) (record : Continuation Json) :
    ContinuationClaim Json → Option (Continuation Json) → Prop where
  | rejects : Claiming turn record .rejected none
  | claims (next : Continuation Json) (claims : Claims turn record next) :
      Claiming turn record .claimed (some next)
  | lapses (next : Continuation Json) (ends : Ends record next) :
      Claiming turn record .rejected (some next)
  | reclaims (claimed : record.status = .claimed) (same : SameRequest turn record)
      (holds : record.claimedBy = some turn.executionId) :
      Claiming turn record .reclaimed none
  | waits (claimed : record.status = .claimed) (same : SameRequest turn record) :
      Claiming turn record .inProgress none
  | completes (completed : record.status = .completed) (same : SameRequest turn record) :
      Claiming turn record (.completed record.terminalOutcome) none

theorem claiming_claimRecord (record : Continuation Json) (turn : Turn) (now : Rat) :
    Claiming turn record (claimRecord record turn now).1 (claimRecord record turn now).2 := by
  unfold claimRecord
  split
  · exact .rejects
  · rename_i own
    have principal := not_not.mp own
    split
    · exact .rejects
    · split
      · rename_i pending
        apply Claiming.claims
        exact ⟨pending, rfl, ⟨rfl, .inl pending, .inl pending⟩, rfl, rfl⟩
      · rename_i claimed
        split
        · apply Claiming.lapses
          exact ⟨claimed, .inr rfl, rfl, .inr rfl, .inr rfl⟩
        · split
          · exact .rejects
          · rename_i otherKey
            have same : SameRequest turn record := ⟨principal, not_not.mp otherKey⟩
            split
            · rename_i holds
              exact .reclaims claimed same holds
            · exact .waits claimed same
      · rename_i completed
        split
        · rename_i key
          exact .completes completed ⟨principal, key⟩
        · exact .rejects
      · exact .rejects

end McpAssistant.Conversation.PendingContinuation
