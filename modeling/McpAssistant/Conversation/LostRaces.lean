import McpAssistant.Conversation.TranscriptStores
import McpAssistant.Foundations.OptimisticTransactions

/-!
# Lost races of the Redis store

An operation of the Redis conversation store watches its key, reads it, and commits what
it decided on.  Redis refuses the commit where the key was written since, and the client
raises an error that is one of Redis's errors too.
-/

namespace McpAssistant.Conversation.LostRaces

open Foundations.Interleaving
open Foundations.OptimisticTransactions
open PendingContinuation
open TranscriptStores

variable {Detail Json : Type}

inductive Key where
  | thread (threadId : String)
  | continuation (jti : String)
  | sqlContinuation (jti : String)
deriving DecidableEq

inductive ClaimStatus where
  | claimed
  | completed
deriving DecidableEq

/-- What is kept under a ticket's id that no plan is pending for. -/
structure ClaimState (Json : Type) where
  requestId : String
  status : ClaimStatus
  expiresAt : Int
  answer : Option Json := none
deriving DecidableEq

/-- What is stored under a key.  Its lifetime is not: a key that expires is changed. -/
def Stored (Detail Json : Type) : Key → Type
  | .thread _ => StoredThread Detail
  | .continuation _ => ClaimState Json
  | .sqlContinuation _ => Continuation Json

/-- What the clock reads in an attempt, time after time. -/
structure Readings where
  first : Rat
  second : Rat
deriving DecidableEq

def appendDecides (settings : Settings) (threadId : String) (caller : Caller)
    (turns : List (TranscriptTurn Detail)) (startedAt : Option Rat)
    (readings : Readings) (raw : Option (StoredThread Detail)) :
    Result Detail Json × Option (StoredThread Detail) :=
  let stored (record : ThreadRecord Detail) : StoredThread Detail :=
    RedisStore.encode { record with turns := trimForStorage settings (record.turns ++ turns) }
  match raw with
  | none => (.done, some (stored (newRecord caller startedAt readings.second)))
  | some raw =>
    match recordFromRaw threadId caller raw with
    | .error failure => (.failed failure, none)
    | .ok record =>
      if Expired settings record.createdAt readings.first then
        (.done, some (stored (newRecord caller startedAt readings.second)))
      else (.done, some (stored record))

def replaceDecides (settings : Settings) (threadId : String) (caller : Caller)
    (target : Target) (turns : List (TranscriptTurn Detail))
    (raw : Option (StoredThread Detail)) :
    Result Detail Json × Option (StoredThread Detail) :=
  match raw with
  | none => (.failed (.regenerateConflict "thread missing"), none)
  | some raw =>
    match recordFromRaw threadId caller raw with
    | .error failure => (.failed failure, none)
    | .ok record =>
      match verifyRegenerateTail target record.turns with
      | some message => (.failed (.regenerateConflict message), none)
      | none =>
        (.done, some (RedisStore.encode
          { record with
            turns := trimForStorage settings (withoutLatest record.turns ++ turns) }))

def claimDecides (requestId : String) (expiresAt : Int) (raw : Option (ClaimState Json)) :
    Result Detail Json × Option (ClaimState Json) :=
  match raw with
  | none =>
    (.claim .claimed, some { requestId := requestId, status := .claimed, expiresAt := expiresAt })
  | some state =>
    if state.requestId ≠ requestId then (.claim .rejected, none)
    else if state.status = .completed then (.claim (.completed state.answer), none)
    else (.claim .inProgress, none)

def completeDecides (requestId : String) (answer : Json) (raw : Option (ClaimState Json)) :
    Result Detail Json × Option (ClaimState Json) :=
  match raw with
  | none => (.done, none)
  | some state =>
    if state.requestId ≠ requestId then (.done, none)
    else (.done, some { state with status := .completed, answer := some answer })

def claimPendingDecides (turn : Turn) (readings : Readings) (raw : Option (Continuation Json)) :
    Result Detail Json × Option (Continuation Json) :=
  match raw with
  | none => (.claim .rejected, none)
  | some record =>
    if record.expiresAt < readings.first then (.claim .rejected, none)
    else
      ((.claim (claimRecord record turn readings.second).1),
        (claimRecord record turn readings.second).2)

def settleDecides (executionId : String) (settlement : Settlement Json)
    (raw : Option (Continuation Json)) :
    Result Detail Json × Option (Continuation Json) :=
  match raw with
  | none => (.done, none)
  | some record => (.done, settleRecord record executionId settlement)

def loadDecides (settings : Settings) (threadId : String) (caller : Caller)
    (readings : Readings) (raw : Option (StoredThread Detail)) :
    Result Detail Json × Option (StoredThread Detail) :=
  match raw with
  | none => (.turns [], none)
  | some raw =>
    match recordFromRaw threadId caller raw with
    | .error failure => (.failed failure, none)
    | .ok record =>
      if Expired settings record.createdAt readings.first then (.turns [], none)
      else (.turns record.turns, none)

inductive ExceptionClass where
  | redisError
  | watchError
deriving DecidableEq

inductive Unserved where
  /-- `TranscriptStoreContentionError` -/
  | contention (detail : String)
  /-- `ConversationStoreUnavailableError` -/
  | unavailable (detail : String)
  /-- The loop has no attempt at all, and the operation returns nothing. -/
  | nothing
  | uncaught (raised : ExceptionClass)
deriving DecidableEq

/-- The hierarchy that the client library declares. -/
def ExceptionClass.isSubclass : ExceptionClass → ExceptionClass → Bool
  | watchError, redisError => true
  | first, second => first = second

/-- An `except` clause of a loop.  Where it raises nothing, the loop goes on. -/
structure ExceptClause where
  catches : ExceptionClass
  raises : Nat → Option Unserved

def caught (clauses : List ExceptClause) (raised : ExceptionClass) (attempt : Nat) :
    Option Unserved :=
  match clauses.find? fun clause => raised.isSubclass clause.catches with
  | some clause => clause.raises attempt
  | none => some (.uncaught raised)

def exceptWatchError (maxAppendRetries : Nat) (contention : String) : ExceptClause where
  catches := .watchError
  raises attempt :=
    if maxAppendRetries ≤ attempt + 1 then
      some (.contention
        (contention ++ " contention exhausted after " ++ toString maxAppendRetries ++ " retries"))
    else none

/-- `exc` is what the client library says of the error. -/
def exceptRedisError (operation exc : String) : ExceptClause where
  catches := .redisError
  raises _ := some (.unavailable ("continuation " ++ operation ++ " failed: " ++ exc))

inductive Call (Detail Json : Type) where
  | load (threadId : String) (caller : Caller)
  | append (threadId : String) (caller : Caller)
      (turns : List (TranscriptTurn Detail)) (startedAt : Option Rat)
  | replaceLatestExchange (threadId : String) (caller : Caller) (target : Target)
      (turns : List (TranscriptTurn Detail))
  | claimContinuation (jti requestId : String) (expiresAt : Int)
  | completeContinuation (jti requestId : String) (answer : Json)
  | createPendingContinuation (creation : Creation Json)
  | claimPendingContinuation (turn : Turn)
  | completePendingContinuation (jti executionId : String) (terminalOutcome : Json)
      (aqid digest : Option String)
  | failPendingContinuation (jti executionId : String) (errorDetail : Option String)
  | getContinuationRecord (jti : String)
deriving DecidableEq

/-- How a store is set up. -/
structure Setup where
  settings : Settings := {}
  maxAppendRetries : Nat := 10
  /-- The text of the client library's error. -/
  exc : String

section Operations

variable (setup : Setup)

abbrev StoreOperation (Detail Json : Type) : Type :=
  Operation Key (Stored Detail Json) Readings (Result Detail Json) Unserved

/-- A loop around a transaction on a key. -/
def transactional (key : Key) (decide : Readings → Option (Stored Detail Json key) →
      Result Detail Json × Option (Stored Detail Json key))
    (clauses : List ExceptClause) : StoreOperation Detail Json where
  key := key
  decide := decide
  watched := true
  attempts := setup.maxAppendRetries
  lost := caught clauses .watchError
  spent := .nothing

def single (key : Key) (decide : Readings → Option (Stored Detail Json key) →
      Result Detail Json × Option (Stored Detail Json key)) :
    StoreOperation Detail Json where
  key := key
  decide := decide
  watched := false
  attempts := 1
  lost _ := none
  spent := .nothing

def retrying (contention : String) : List ExceptClause :=
  [exceptWatchError setup.maxAppendRetries contention]

def pendingClauses (operation contention : String) : List ExceptClause :=
  [exceptRedisError operation setup.exc, exceptWatchError setup.maxAppendRetries contention]

def Call.operation : Call Detail Json → StoreOperation Detail Json
  | load threadId caller =>
    single (.thread threadId) (loadDecides setup.settings threadId caller)
  | append threadId caller turns startedAt =>
    transactional setup (.thread threadId)
      (appendDecides setup.settings threadId caller turns startedAt)
      (retrying setup "transcript append")
  | replaceLatestExchange threadId caller target turns =>
    transactional setup (.thread threadId)
      (fun _ => replaceDecides setup.settings threadId caller target turns)
      (retrying setup "transcript replace")
  | claimContinuation jti requestId expiresAt =>
    transactional setup (.continuation jti) (fun _ => claimDecides requestId expiresAt)
      (retrying setup "continuation claim")
  | completeContinuation jti requestId answer =>
    transactional setup (.continuation jti) (fun _ => completeDecides requestId answer)
      (retrying setup "continuation completion")
  | createPendingContinuation creation =>
    single (.sqlContinuation creation.jti)
      (fun readings _ => (.done, some (creation.continuation readings.first)))
  | claimPendingContinuation turn =>
    transactional setup (.sqlContinuation turn.jti) (claimPendingDecides turn)
      (pendingClauses setup "claim" "continuation claim")
  | completePendingContinuation jti executionId terminalOutcome aqid digest =>
    transactional setup (.sqlContinuation jti)
      (fun _ => settleDecides executionId (.completed terminalOutcome aqid digest))
      (pendingClauses setup "complete" "continuation completion")
  | failPendingContinuation jti executionId errorDetail =>
    transactional setup (.sqlContinuation jti)
      (fun _ => settleDecides executionId (.failed errorDetail))
      (pendingClauses setup "fail" "continuation failure")
  | getContinuationRecord jti =>
    single (.sqlContinuation jti) (fun _ record => (.record record, none))

end Operations

/-- The operation is a transaction, and not a single command. -/
def Call.Transactional : Call Detail Json → Prop
  | load _ _ | createPendingContinuation _ | getContinuationRecord _ => False
  | _ => True

/-- The operation is a transaction on a pending continuation. -/
def Call.OnPending : Call Detail Json → Prop
  | claimPendingContinuation _ | completePendingContinuation _ _ _ _ _
  | failPendingContinuation _ _ _ => True
  | _ => False

section Races

variable {Client : Type} [DecidableEq Client]

abbrev Clients (setup : Setup) (calls : Client → Call Detail Json) : Type :=
  System fun client => (calls client).operation setup

variable {setup : Setup} {calls : Client → Call Detail Json}

/-- The client finds its key written since it watched it, and its operation is on a
pending continuation or this was its last attempt.  Or there is no attempt at all. -/
def LosesForGoodAt (setup : Setup) (call : Call Detail Json) (version : Nat)
    {Value : Type} : Position Value (Result Detail Json) Unserved → Prop
  | .starts losses => call.Transactional ∧ setup.maxAppendRetries ≤ losses
  | .commits losses watched _ _ =>
    version ≠ watched ∧ (call.OnPending ∨ call.Transactional ∧ setup.maxAppendRetries ≤ losses + 1)
  | _ => False

def LosesForGood (clients : Clients setup calls) :
    Choice (Stored Detail Json) Readings Client → Prop
  | .takes client _ =>
    LosesForGoodAt setup (calls client) (clients.versions ((calls client).operation setup).key)
      (clients.positions client)
  | .changes _ _ => False

/-- Everybody is answered as in some serial order, and nobody that the store is
unavailable. -/
def Served (start : (key : Key) → Option (Stored Detail Json key))
    (clients : Clients setup calls) : Prop :=
  Serializable start clients ∧ ∀ client detail,
      clients.positions client ≠ .ended (.error (.unavailable detail))

theorem caught_retrying_isSome (contention : String) (attempt : Nat) :
    (caught (retrying setup contention) .watchError attempt).isSome = true ↔
      setup.maxAppendRetries ≤ attempt + 1 := by
  show (if setup.maxAppendRetries ≤ attempt + 1 then some _ else none).isSome = true ↔ _
  split_ifs with last
  · exact iff_of_true rfl last
  · exact iff_of_false Bool.false_ne_true last

theorem lost_isSome (call : Call Detail Json) (attempt : Nat) :
    ((call.operation setup).lost attempt).isSome = true ↔ call.OnPending ∨
        call.Transactional ∧ setup.maxAppendRetries ≤ attempt + 1 := by
  cases call with
  | load | createPendingContinuation | getContinuationRecord =>
    apply iff_of_false
    · exact Bool.false_ne_true
    · rintro (onPending | ⟨transactional, _⟩)
      · exact onPending
      · exact transactional
  | append | replaceLatestExchange | claimContinuation | completeContinuation =>
    apply (caught_retrying_isSome _ attempt).trans
    constructor
    · intro last
      exact .inr ⟨trivial, last⟩
    · rintro (onPending | ⟨_, last⟩)
      · exact onPending.elim
      · exact last
  | claimPendingContinuation | completePendingContinuation
  | failPendingContinuation => exact iff_of_true rfl (.inl trivial)

theorem watched_iff (call : Call Detail Json) :
    (call.operation setup).watched = true ↔ call.Transactional := by
  cases call with
  | load | createPendingContinuation | getContinuationRecord =>
    exact iff_of_false Bool.false_ne_true id
  | append | replaceLatestExchange | claimContinuation | completeContinuation
  | claimPendingContinuation | completePendingContinuation
  | failPendingContinuation => exact iff_of_true rfl trivial

theorem attempts_of_transactional {call : Call Detail Json} (transactional : call.Transactional) :
    (call.operation setup).attempts = setup.maxAppendRetries := by
  cases call with
  | load | createPendingContinuation | getContinuationRecord =>
    exact transactional.elim
  | append | replaceLatestExchange | claimContinuation | completeContinuation
  | claimPendingContinuation | completePendingContinuation
  | failPendingContinuation => rfl

theorem fails_iff (call : Call Detail Json) (version : Nat)
    (position : Position (Stored Detail Json (call.operation setup).key)
      (Result Detail Json) Unserved) :
    Fails (call.operation setup) version position ↔ LosesForGoodAt setup call version position := by
  cases position with
  | starts losses =>
    show _ ∧ _ ↔ _ ∧ _
    rw [watched_iff]
    apply and_congr_right
    intro transactional
    rw [attempts_of_transactional transactional]
  | commits losses watched next answer =>
    apply and_congr_right
    intro _
    exact lost_isSome call losses
  | reads losses watched => exact Iff.rfl
  | ended outcome => exact Iff.rfl

omit [DecidableEq Client] in
theorem givesUp_iff (clients : Clients setup calls)
    (choice : Choice (Stored Detail Json) Readings Client) :
    GivesUp clients choice ↔ LosesForGood clients choice := by
  cases choice with
  | changes key value => exact Iff.rfl
  | takes client reading => exact fails_iff (calls client) _ _

theorem served_iff (start : (key : Key) → Option (Stored Detail Json key))
    (clients : Clients setup calls) :
    Served start clients ↔ Serializable start clients := by
  constructor
  · exact And.left
  · intro serializable
    refine ⟨serializable, ?_⟩
    intro client detail failed
    exact not_serializable_of_failed failed serializable

/-- In a run of the store's clients everybody is served throughout, and starts over on a
lost race, exactly where nobody loses a race for good. -/
theorem served_iff_not_losesForGood (start : (key : Key) → Option (Stored Detail Json key))
    (choices : List (Choice (Stored Detail Json) Readings Client)) :
    (Throughout step (Served start) (newSystem start : Clients setup calls) choices ∧
        OrderlyRun step Retries (newSystem start : Clients setup calls) choices) ↔
      OrderlyRun step (fun clients choice => ¬LosesForGood clients choice)
        (newSystem start : Clients setup calls) choices := by
  have served : Throughout step (Served start) (newSystem start : Clients setup calls) choices ↔
      Throughout step (Serializable start) (newSystem start : Clients setup calls)
        choices := by
    constructor
    · exact Throughout.imp fun clients => (served_iff start clients).mp
    · exact Throughout.imp fun clients => (served_iff start clients).mpr
  rw [served, serializable_iff]
  constructor
  · exact OrderlyRun.imp fun clients choice => mt (givesUp_iff clients choice).mpr
  · exact OrderlyRun.imp fun clients choice => mt (givesUp_iff clients choice).mp

end Races

def askedRecord : Continuation Unit where
  status := .pending
  executionId := "execution"
  threadId := none
  principalBindingHash := "principal"
  intentHash := "intent"
  pendingBlob := ()
  question := "Which depot?"
  expiresAt := 600
  createdAt := 0

def replyTurn (executionId : String) : Turn where
  jti := "ticket"
  executionId := executionId
  idempotencyKeyHash := "key"
  principalBindingHash := "principal"
  threadId := none

def replies (second : Bool) : Call Unit Unit :=
  .claimPendingContinuation (replyTurn (if second then "retry" else "execution"))

def asked : (key : Key) → Option (Stored Unit Unit key)
  | .sqlContinuation _ => some askedRecord
  | _ => none

/-- Both watch and read the record before either commits. -/
def bothReply : List (Choice (Stored Unit Unit) Readings Bool) :=
  [.takes false ⟨1, 1⟩, .takes true ⟨1, 1⟩, .takes false ⟨1, 1⟩, .takes true ⟨1, 1⟩,
    .takes false ⟨1, 1⟩, .takes true ⟨1, 1⟩]

/-- The claim that loses the race is told that the store is unavailable. -/
theorem not_served_of_bothReply : ¬Throughout step (Served asked) (newSystem asked :
        Clients { exc := "Watched variable changed." } replies) bothReply := by
  rintro ⟨_, _, _, _, _, _, _, available⟩
  apply available true "continuation claim failed: Watched variable changed."
  rfl

end McpAssistant.Conversation.LostRaces
