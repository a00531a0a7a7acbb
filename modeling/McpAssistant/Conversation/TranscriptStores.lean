import McpAssistant.Conversation.PendingContinuation

/-!
# Two transcript stores

A thread of turns belongs to the user and the entity that started it and lives
for a fixed time from then on.  The process-local store keeps its threads as they
are.  The Redis store keeps each as JSON under a key with a time to live that
every write starts anew, and reads it back.  Both keep the pending continuations
too.
-/

namespace McpAssistant.Conversation.TranscriptStores

open PendingContinuation

inductive Role where
  | user
  | assistant
deriving DecidableEq

inductive ContextMode where
  | jobs
  | none
deriving DecidableEq

inductive Completeness where
  | full
  | partially
  | none
deriving DecidableEq

variable {Detail Json : Type}

/-- A message of a conversation.  `details` stands for the fields that JSON
gives back as they are. -/
structure TranscriptTurn (Detail : Type) where
  role : Role
  content : String
  exchangeId : Option String := none
  contextMode : Option ContextMode := none
  toolResultVersion : Option Nat := none
  completeness : Option Completeness := none
  omissions : List Detail := []
  components : List Detail := []
  restoreRef : Option String := none
  details : Detail
deriving DecidableEq

/-- What is stored of a turn's tool results. -/
structure StoredToolResults (Detail : Type) where
  toolResultVersion : Nat
  completeness : Option Completeness
  omissions : List Detail
  components : List Detail
  restoreRef : Option String
deriving DecidableEq

/-- A turn's JSON object. -/
structure StoredTurn (Detail : Type) where
  role : Role
  content : String
  exchangeId : Option String
  contextMode : Option ContextMode
  toolResults : Option (StoredToolResults Detail)
  details : Detail
deriving DecidableEq

def TranscriptTurn.modelDump (turn : TranscriptTurn Detail) : StoredTurn Detail where
  role := turn.role
  content := turn.content
  exchangeId := turn.exchangeId
  contextMode := turn.contextMode
  toolResults := turn.toolResultVersion.map fun version =>
    { toolResultVersion := version
      completeness := turn.completeness
      omissions := turn.omissions
      components := turn.components
      restoreRef := turn.restoreRef }
  details := turn.details

def StoredTurn.turn (stored : StoredTurn Detail) : TranscriptTurn Detail where
  role := stored.role
  content := stored.content
  exchangeId := stored.exchangeId
  contextMode := stored.contextMode
  toolResultVersion := stored.toolResults.map (·.toolResultVersion)
  completeness := stored.toolResults.bind (·.completeness)
  omissions := (stored.toolResults.map (·.omissions)).getD []
  components := (stored.toolResults.map (·.components)).getD []
  restoreRef := stored.toolResults.bind (·.restoreRef)
  details := stored.details

def TranscriptTurn.Versioned (turn : TranscriptTurn Detail) : Prop :=
  turn.toolResultVersion = none →
    turn.completeness = none ∧ turn.omissions = [] ∧ turn.components = [] ∧ turn.restoreRef = none

/-- A turn is read back as it was exactly where its tool results have their
version. -/
theorem turn_modelDump (turn : TranscriptTurn Detail) :
    turn.modelDump.turn = turn ↔ turn.Versioned := by
  cases turn with
  | mk role content exchangeId contextMode toolResultVersion completeness
      omissions components restoreRef details =>
      cases toolResultVersion with
      | some version =>
        constructor
        · intro _ missing
          cases missing
        · intro _
          rfl
      | none =>
        constructor
        · intro same _
          injection same with _ _ _ _ _ isCompleteness isOmissions isComponents isRestoreRef
          exact ⟨isCompleteness.symm, isOmissions.symm, isComponents.symm, isRestoreRef.symm⟩
        · intro versioned
          rcases versioned rfl with ⟨rfl, rfl, rfl, rfl⟩
          rfl

/-- What the stores are configured with. -/
structure Settings where
  ttlSeconds : Nat := 1800
  absoluteTtlSeconds : Int := 14400
  maxStoredTurns : Int := 40
deriving DecidableEq

structure ThreadRecord (Detail : Type) where
  owner : String
  turns : List (TranscriptTurn Detail) := []
  createdAt : Rat
  entityId : Option Int := none
deriving DecidableEq

structure StoredThread (Detail : Type) where
  owner : String
  entityId : Option Int
  turns : List (StoredTurn Detail)
  createdAt : Rat
deriving DecidableEq

/-- Who asks, as the stores compare it. -/
structure Caller where
  userId : String
  entityId : Option Int := none
deriving DecidableEq

def newRecord (caller : Caller) (startedAt : Option Rat) (now : Rat) : ThreadRecord Detail where
  owner := caller.userId
  createdAt := startedAt.getD now
  entityId := caller.entityId

def Expired (settings : Settings) (createdAt now : Rat) : Prop :=
  createdAt ≤ 0 ∨ (settings.absoluteTtlSeconds : Rat) < now - createdAt

instance (settings : Settings) (createdAt now : Rat) : Decidable (Expired settings createdAt now) :=
  inferInstanceAs (Decidable (_ ∨ _))

def trimForStorage (settings : Settings) (turns : List (TranscriptTurn Detail)) :
    List (TranscriptTurn Detail) :=
  if 0 < settings.maxStoredTurns then
    turns.drop (turns.length - settings.maxStoredTurns.toNat)
  else turns

inductive Failure where
  | threadOwnership (threadId : String)
  | regenerateConflict (message : String)
deriving DecidableEq

/-- The exchange that a regeneration replaces. -/
structure Target where
  exchangeId : String
  expectedQuestion : String
  expectedContextMode : Option ContextMode
deriving DecidableEq

def verifyRegenerateTail (target : Target) (turns : List (TranscriptTurn Detail)) : Option String :=
  match turns.reverse with
  | assistantTurn :: userTurn :: _ =>
    if userTurn.role ≠ .user ∨ assistantTurn.role ≠ .assistant then
      some "tail is not a user+assistant pair"
    else if userTurn.exchangeId ≠ some target.exchangeId ∨
        assistantTurn.exchangeId ≠ some target.exchangeId then
      some "target exchange is not the latest pair"
    else if userTurn.content ≠ target.expectedQuestion then
      some "expected question mismatch"
    else if userTurn.contextMode ≠ target.expectedContextMode then
      some "context mode mismatch"
    else none
  | _ => some "tail too short"

def withoutLatest (turns : List (TranscriptTurn Detail)) : List (TranscriptTurn Detail) :=
  turns.take (turns.length - 2)

inductive Operation (Detail Json : Type) where
  | load (threadId : String) (caller : Caller)
  | append (threadId : String) (caller : Caller)
      (turns : List (TranscriptTurn Detail)) (startedAt : Option Rat)
  | replaceLatestExchange (threadId : String) (caller : Caller) (target : Target)
      (turns : List (TranscriptTurn Detail))
  | createPendingContinuation (creation : Creation Json)
  | claimPendingContinuation (turn : Turn)
  | settlePendingContinuation (jti executionId : String) (settlement : Settlement Json)
  | getContinuationRecord (jti : String)
  | waitContinuationCompletion (jti : String)
deriving DecidableEq

inductive Result (Detail Json : Type) where
  | turns (turns : List (TranscriptTurn Detail))
  | done
  | failed (failure : Failure)
  | claim (claim : ContinuationClaim Json)
  | record (record : Option (Continuation Json))
deriving DecidableEq

/-- An operation at a time. -/
structure Timed (Detail Json : Type) where
  now : Rat
  operation : Operation Detail Json
deriving DecidableEq

structure MemoryStore (Detail Json : Type) where
  records : String → Option (ThreadRecord Detail) := fun _ => none
  continuations : String → Option (Continuation Json) := fun _ => none

namespace MemoryStore

variable (store : MemoryStore Detail Json)

def setRecord (threadId : String) (record : Option (ThreadRecord Detail)) :
    MemoryStore Detail Json :=
  { store with records := Function.update store.records threadId record }

def setContinuation (jti : String) (record : Option (Continuation Json)) :
    MemoryStore Detail Json :=
  { store with
    continuations := Function.update store.continuations jti record }

def liveRecord (settings : Settings) (threadId : String) (now : Rat) :
    Option (ThreadRecord Detail) :=
  (store.records threadId).filter fun record =>
    ¬Expired settings record.createdAt now

def popExpired (settings : Settings) (threadId : String) (now : Rat) : MemoryStore Detail Json :=
  store.setRecord threadId (store.liveRecord settings threadId now)

/-- The record under a ticket's id, where it has not expired. -/
def liveContinuation (jti : String) (now : Rat) : Option (Continuation Json) :=
  (store.continuations jti).filter fun record => ¬(record.expiresAt : Rat) < now

def popContinuation (jti : String) (now : Rat) : MemoryStore Detail Json :=
  store.setContinuation jti (store.liveContinuation jti now)

end MemoryStore

/-- The thread is not the caller's. -/
def NotOwner (caller : Caller) (owner : String) (entityId : Option Int) : Prop :=
  owner ≠ caller.userId ∨ entityId ≠ caller.entityId

instance (caller : Caller) (owner : String) (entityId : Option Int) :
    Decidable (NotOwner caller owner entityId) :=
  inferInstanceAs (Decidable (_ ∨ _))

def memoryStep (settings : Settings) (step : Timed Detail Json) (store : MemoryStore Detail Json) :
    MemoryStore Detail Json × Result Detail Json :=
  match step.operation with
  | .load threadId caller =>
    match store.liveRecord settings threadId step.now with
    | none => (store.popExpired settings threadId step.now, .turns [])
    | some record =>
      if NotOwner caller record.owner record.entityId then
        (store, .failed (.threadOwnership threadId))
      else (store, .turns record.turns)
  | .append threadId caller turns startedAt =>
    match store.liveRecord settings threadId step.now with
    | none =>
      let record : ThreadRecord Detail := newRecord caller startedAt step.now
      ((store.popExpired settings threadId step.now).setRecord threadId
        (some { record with
          turns := trimForStorage settings (record.turns ++ turns) }), .done)
    | some record =>
      if NotOwner caller record.owner record.entityId then
        (store, .failed (.threadOwnership threadId))
      else
        (store.setRecord threadId
          (some { record with
            turns := trimForStorage settings (record.turns ++ turns) }), .done)
  | .replaceLatestExchange threadId caller target turns =>
    match store.liveRecord settings threadId step.now with
    | none =>
      (store.popExpired settings threadId step.now, .failed (.regenerateConflict "thread missing"))
    | some record =>
      if NotOwner caller record.owner record.entityId then
        (store, .failed (.threadOwnership threadId))
      else
        match verifyRegenerateTail target record.turns with
        | some message => (store, .failed (.regenerateConflict message))
        | none =>
          (store.setRecord threadId
            (some { record with
              turns := trimForStorage settings (withoutLatest record.turns ++ turns) }), .done)
  | .createPendingContinuation creation =>
    (store.setContinuation creation.jti (some (creation.continuation step.now)), .done)
  | .claimPendingContinuation turn =>
    match store.liveContinuation turn.jti step.now with
    | none => (store.popContinuation turn.jti step.now, .claim .rejected)
    | some record =>
      match claimRecord record turn step.now with
      | (claim, some next) =>
        (store.setContinuation turn.jti (some next), .claim claim)
      | (claim, none) => (store, .claim claim)
  | .settlePendingContinuation jti executionId settlement =>
    match store.continuations jti with
    | none => (store, .done)
    | some record =>
      match settleRecord record executionId settlement with
      | none => (store, .done)
      | some next => (store.setContinuation jti (some next), .done)
  | .getContinuationRecord jti =>
    (store.popContinuation jti step.now, .record (store.liveContinuation jti step.now))
  | .waitContinuationCompletion jti => (store, .record (store.continuations jti))

/-- A value and the time it lives until. -/
structure Key (Value : Type) where
  value : Value
  lives : Rat
deriving DecidableEq

/-- The keys of Redis, and its clock when it was asked last. -/
structure RedisStore (Detail Json : Type) where
  threads : String → Option (Key (StoredThread Detail)) := fun _ => none
  continuations : String → Option (Key (Continuation Json)) := fun _ => none
  clock : Rat := 0

namespace RedisStore

variable (store : RedisStore Detail Json)

/-- A thread's JSON, where its key has not expired. -/
def getThread (threadId : String) (now : Rat) : Option (StoredThread Detail) :=
  ((store.threads threadId).filter fun key => ¬key.lives < now).map (·.value)

def getContinuation (jti : String) (now : Rat) : Option (Continuation Json) :=
  ((store.continuations jti).filter fun key => ¬key.lives < now).map (·.value)

def encode (record : ThreadRecord Detail) : StoredThread Detail where
  owner := record.owner
  entityId := record.entityId
  turns := record.turns.map TranscriptTurn.modelDump
  createdAt := record.createdAt

def setThread (settings : Settings) (threadId : String)
    (record : ThreadRecord Detail) (now : Rat) : RedisStore Detail Json :=
  { store with
    threads := Function.update store.threads threadId
      (some ⟨encode record, now + settings.ttlSeconds⟩) }

/-- A record under a ticket's id lives until it expires, a second at least. -/
def setContinuation (jti : String) (record : Continuation Json) (now : Rat) :
    RedisStore Detail Json :=
  { store with
    continuations := Function.update store.continuations jti
      (some ⟨record, now + ((max 1 (record.expiresAt - now.floor) : Int) : Rat)⟩) }

end RedisStore

/-- The record that a thread's JSON gives back to its owner. -/
def recordFromRaw (threadId : String) (caller : Caller)
    (stored : StoredThread Detail) : Except Failure (ThreadRecord Detail) :=
  if stored.owner ≠ caller.userId then .error (.threadOwnership threadId)
  else if stored.entityId ≠ caller.entityId then
    .error (.threadOwnership threadId)
  else
    .ok
      { owner := stored.owner
        turns := stored.turns.map StoredTurn.turn
        createdAt := stored.createdAt
        entityId := stored.entityId }

def redisOperation (settings : Settings) (step : Timed Detail Json)
    (store : RedisStore Detail Json) :
    RedisStore Detail Json × Result Detail Json :=
  match step.operation with
  | .load threadId caller =>
    match store.getThread threadId step.now with
    | none => (store, .turns [])
    | some raw =>
      match recordFromRaw threadId caller raw with
      | .error failure => (store, .failed failure)
      | .ok record =>
        if Expired settings record.createdAt step.now then (store, .turns [])
        else (store, .turns record.turns)
  | .append threadId caller turns startedAt =>
    match store.getThread threadId step.now with
    | none =>
      let record : ThreadRecord Detail := newRecord caller startedAt step.now
      (store.setThread settings threadId
        { record with turns := trimForStorage settings (record.turns ++ turns) }
        step.now, .done)
    | some raw =>
      match recordFromRaw threadId caller raw with
      | .error failure => (store, .failed failure)
      | .ok record =>
        let current := if Expired settings record.createdAt step.now then
          newRecord caller startedAt step.now else record
        (store.setThread settings threadId
          { current with
            turns := trimForStorage settings (current.turns ++ turns) }
          step.now, .done)
  | .replaceLatestExchange threadId caller target turns =>
    match store.getThread threadId step.now with
    | none => (store, .failed (.regenerateConflict "thread missing"))
    | some raw =>
      match recordFromRaw threadId caller raw with
      | .error failure => (store, .failed failure)
      | .ok record =>
        match verifyRegenerateTail target record.turns with
        | some message => (store, .failed (.regenerateConflict message))
        | none =>
          (store.setThread settings threadId
            { record with
              turns := trimForStorage settings (withoutLatest record.turns ++ turns) }
            step.now, .done)
  | .createPendingContinuation creation =>
    (store.setContinuation creation.jti (creation.continuation step.now) step.now, .done)
  | .claimPendingContinuation turn =>
    match store.getContinuation turn.jti step.now with
    | none => (store, .claim .rejected)
    | some record =>
      if (record.expiresAt : Rat) < step.now then (store, .claim .rejected)
      else
        match claimRecord record turn step.now with
        | (claim, some next) =>
          (store.setContinuation turn.jti next step.now, .claim claim)
        | (claim, none) => (store, .claim claim)
  | .settlePendingContinuation jti executionId settlement =>
    match store.getContinuation jti step.now with
    | none => (store, .done)
    | some record =>
      match settleRecord record executionId settlement with
      | none => (store, .done)
      | some next => (store.setContinuation jti next step.now, .done)
  | .getContinuationRecord jti =>
    (store, .record (store.getContinuation jti step.now))
  | .waitContinuationCompletion jti =>
    (store, .record (store.getContinuation jti step.now))

def redisStep (settings : Settings) (step : Timed Detail Json) (store : RedisStore Detail Json) :
    RedisStore Detail Json × Result Detail Json :=
  ({ (redisOperation settings step store).1 with clock := step.now },
    (redisOperation settings step store).2)

end McpAssistant.Conversation.TranscriptStores
