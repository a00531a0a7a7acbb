import McpAssistant.Conversation.TranscriptStores
import McpAssistant.Foundations.Lockstep
import Mathlib.Data.Rat.Floor

/-!
# The transcript stores agree

The stores answer alike while a thread is used before its key's time to live is
over and, after its absolute lifetime, only loaded and appended to by its owner;
while pending records are read back before they expire; and for turns that JSON
gives back.
-/

namespace McpAssistant.Conversation.StoreAgreement

open PendingContinuation TranscriptStores Foundations.Lockstep

variable {Detail Json : Type}

/-- A thread is used before its key's time to live is over, or after its own
lifetime; after that, where its key still lives, only as said. -/
def ThreadUsed (settings : Settings) (store : RedisStore Detail Json)
    (now : Rat) (threadId : String) (ended : StoredThread Detail → Prop) : Prop :=
  ∀ key, store.threads threadId = some key →
    (key.lives < now → Expired settings key.value.createdAt now) ∧
      (¬key.lives < now → Expired settings key.value.createdAt now → ended key.value)

def Owned (caller : Caller) (stored : StoredThread Detail) : Prop :=
  ¬NotOwner caller stored.owner stored.entityId

def Used (settings : Settings) (store : RedisStore Detail Json) (now : Rat) :
    Operation Detail Json → Prop
  | .load threadId caller => ThreadUsed settings store now threadId (Owned caller)
  | .append threadId caller turns _ =>
    ThreadUsed settings store now threadId (Owned caller) ∧ ∀ turn ∈ turns, turn.Versioned
  | .replaceLatestExchange threadId _ _ turns =>
    ThreadUsed settings store now threadId (fun _ => False) ∧ ∀ turn ∈ turns, turn.Versioned
  | .getContinuationRecord jti =>
    ∀ key, store.continuations jti = some key → ¬(key.value.expiresAt : Rat) < now ∨ key.lives < now
  | .waitContinuationCompletion jti =>
    ∀ key, store.continuations jti = some key → ¬(key.value.expiresAt : Rat) < now
  | _ => True

/-- The clock does not go back, and the operation uses the stores so. -/
def Allowed (settings : Settings) (store : RedisStore Detail Json)
    (step : Timed Detail Json) : Prop :=
  store.clock ≤ step.now ∧ Used settings store step.now step.operation

/-- A thread is the same in both, where the process-local store did not drop it
when its lifetime was over. -/
def ThreadsAlike (settings : Settings) (now : Rat) :
    Option (ThreadRecord Detail) → Option (Key (StoredThread Detail)) → Prop
  | memory, none => memory = none
  | memory, some key => ∃ record, key.value = RedisStore.encode record ∧
      (∀ turn ∈ record.turns, turn.Versioned) ∧ (memory = some record ∨
          memory = none ∧ Expired settings record.createdAt now)

/-- A pending record is the same in both, as long as it has not expired, and its
key lives as long. -/
def ContinuationsAlike (now : Rat) :
    Option (Continuation Json) → Option (Key (Continuation Json)) → Prop
  | memory, none => memory = none
  | memory, some key => (key.value.expiresAt : Rat) ≤ key.lives ∧
      (memory = some key.value ∨ (key.value.expiresAt : Rat) < now ∧
        ∀ record, memory = some record → (record.expiresAt : Rat) < now)

structure RelatedAt (settings : Settings) (now : Rat)
    (memory : MemoryStore Detail Json) (redis : RedisStore Detail Json) :
    Prop where
  threads : ∀ threadId, ThreadsAlike settings now (memory.records threadId) (redis.threads threadId)
  continuations : ∀ jti, ContinuationsAlike now (memory.continuations jti) (redis.continuations jti)

def Related (settings : Settings) (memory : MemoryStore Detail Json)
    (redis : RedisStore Detail Json) : Prop :=
  RelatedAt settings redis.clock memory redis

section Time

variable {settings : Settings} {before now : Rat}

theorem expired_later {createdAt : Rat} (later : before ≤ now)
    (expired : Expired settings createdAt before) :
    Expired settings createdAt now := by
  rcases expired with never | ended
  · exact .inl never
  · exact .inr (lt_of_lt_of_le ended (sub_le_sub_right later createdAt))

theorem ThreadsAlike.later {memory : Option (ThreadRecord Detail)}
    {redis : Option (Key (StoredThread Detail))} (later : before ≤ now)
    (alike : ThreadsAlike settings before memory redis) :
    ThreadsAlike settings now memory redis := by
  cases redis with
  | none => exact alike
  | some key =>
    rcases alike with ⟨record, isRecord, versioned, same | ⟨gone, expired⟩⟩
    · exact ⟨record, isRecord, versioned, .inl same⟩
    · exact ⟨record, isRecord, versioned, .inr ⟨gone, expired_later later expired⟩⟩

theorem ContinuationsAlike.later {memory : Option (Continuation Json)}
    {redis : Option (Key (Continuation Json))} (later : before ≤ now)
    (alike : ContinuationsAlike before memory redis) :
    ContinuationsAlike now memory redis := by
  cases redis with
  | none => exact alike
  | some key =>
    rcases alike with ⟨lives, same | ⟨expired, memoryExpired⟩⟩
    · exact ⟨lives, .inl same⟩
    · refine ⟨lives, .inr ⟨lt_of_lt_of_le expired later, ?_⟩⟩
      intro record found
      exact lt_of_lt_of_le (memoryExpired record found) later

theorem RelatedAt.later {memory : MemoryStore Detail Json}
    {redis : RedisStore Detail Json} (later : before ≤ now)
    (related : RelatedAt settings before memory redis) :
    RelatedAt settings now memory redis := by
  constructor
  · intro threadId
    exact (related.threads threadId).later later
  · intro jti
    exact (related.continuations jti).later later

end Time

section Threads

variable {settings : Settings} {now : Rat} {memory : MemoryStore Detail Json}
  {redis : RedisStore Detail Json} {threadId : String}

theorem RelatedAt.setRecord (related : RelatedAt settings now memory redis)
    {record : Option (ThreadRecord Detail)}
    (alike : ThreadsAlike settings now record (redis.threads threadId)) :
    RelatedAt settings now (memory.setRecord threadId record) redis := by
  constructor
  · intro other
    show ThreadsAlike settings now (Function.update memory.records threadId record other) _
    by_cases same : other = threadId
    · rw [same, Function.update_self]
      exact alike
    · rw [Function.update_of_ne same]
      exact related.threads other
  · exact related.continuations

variable {record : ThreadRecord Detail}

/-- Both stores keep a thread anew. -/
theorem RelatedAt.setThread (related : RelatedAt settings now memory redis)
    (versioned : ∀ turn ∈ record.turns, turn.Versioned) :
    RelatedAt settings now (memory.setRecord threadId (some record))
      (redis.setThread settings threadId record now) := by
  constructor
  · intro other
    show ThreadsAlike settings now (Function.update memory.records threadId (some record) other)
      (Function.update redis.threads threadId _ other)
    by_cases same : other = threadId
    · rw [same, Function.update_self, Function.update_self]
      exact ⟨record, rfl, versioned, .inl rfl⟩
    · rw [Function.update_of_ne same, Function.update_of_ne same]
      exact related.threads other
  · exact related.continuations

/-- Dropping an expired record leaves the stores alike. -/
theorem RelatedAt.popExpired (related : RelatedAt settings now memory redis) :
    RelatedAt settings now (memory.popExpired settings threadId now) redis := by
  apply related.setRecord
  have alike := related.threads threadId
  cases isKey : redis.threads threadId with
  | none =>
    rw [isKey] at alike
    have missing : memory.records threadId = none := alike
    rw [MemoryStore.liveRecord, missing]
    rfl
  | some key =>
    rw [isKey] at alike
    rcases alike with ⟨record, isRecord, versioned, same | ⟨gone, expired⟩⟩
    · refine ⟨record, isRecord, versioned, ?_⟩
      rw [MemoryStore.liveRecord, same]
      by_cases expired : Expired settings record.createdAt now
      · exact .inr ⟨by simp [expired], expired⟩
      · exact .inl (by simp [expired])
    · refine ⟨record, isRecord, versioned, .inr ⟨?_, expired⟩⟩
      rw [MemoryStore.liveRecord, gone]
      rfl

inductive Finds (settings : Settings) (now : Rat)
    (memory : MemoryStore Detail Json) (redis : RedisStore Detail Json)
    (threadId : String) : Prop where
  | missing (inMemory : memory.liveRecord settings threadId now = none)
      (inRedis : redis.getThread threadId now = none)
  | live (record : ThreadRecord Detail)
      (inMemory : memory.liveRecord settings threadId now = some record)
      (inRedis : redis.getThread threadId now = some (RedisStore.encode record))
      (versioned : ∀ turn ∈ record.turns, turn.Versioned)
      (unexpired : ¬Expired settings record.createdAt now)
  | ended (record : ThreadRecord Detail) (inMemory : memory.liveRecord settings threadId now = none)
      (inRedis : redis.getThread threadId now = some (RedisStore.encode record))
      (versioned : ∀ turn ∈ record.turns, turn.Versioned)
      (expired : Expired settings record.createdAt now)

theorem finds (related : RelatedAt settings now memory redis) {ended : StoredThread Detail → Prop}
    (used : ThreadUsed settings redis now threadId ended) :
    Finds settings now memory redis threadId := by
  have alike := related.threads threadId
  cases isKey : redis.threads threadId with
  | none =>
    rw [isKey] at alike
    have missing : memory.records threadId = none := alike
    apply Finds.missing
    · rw [MemoryStore.liveRecord, missing]
      rfl
    · rw [RedisStore.getThread, isKey]
      rfl
  | some key =>
    rw [isKey] at alike
    rcases alike with ⟨record, isRecord, versioned, kept⟩
    have inRedis : redis.getThread threadId now =
        if key.lives < now then none else some (RedisStore.encode record) := by
      rw [RedisStore.getThread, isKey, ← isRecord]
      by_cases ended : key.lives < now
      · rw [if_pos ended, Option.filter_some, if_neg (by simpa using ended)]
        rfl
      · rw [if_neg ended, Option.filter_some, if_pos (by simpa using ended)]
        rfl
    have inMemory : Expired settings record.createdAt now →
        memory.liveRecord settings threadId now = none := by
      intro expired
      rw [MemoryStore.liveRecord]
      rcases kept with same | ⟨gone, _⟩
      · simp [same, expired]
      · simp [gone]
    by_cases ended : key.lives < now
    · have expired := (used key isKey).1 ended
      rw [isRecord] at expired
      rw [if_pos ended] at inRedis
      exact .missing (inMemory expired) inRedis
    · rw [if_neg ended] at inRedis
      by_cases expired : Expired settings record.createdAt now
      · exact .ended record (inMemory expired) inRedis versioned expired
      · rcases kept with same | ⟨_, alsoExpired⟩
        · refine .live record ?_ inRedis versioned expired
          rw [MemoryStore.liveRecord, same]
          simp [expired]
        · exact absurd alsoExpired expired

/-- A thread that ended and whose key still lives is used only as said. -/
theorem ThreadUsed.ended {ended : StoredThread Detail → Prop}
    (used : ThreadUsed settings redis now threadId ended)
    {stored : StoredThread Detail}
    (found : redis.getThread threadId now = some stored)
    (expired : Expired settings stored.createdAt now) : ended stored := by
  rw [RedisStore.getThread] at found
  rcases Option.map_eq_some_iff.mp found with ⟨key, isLive, rfl⟩
  rcases Option.filter_eq_some_iff.mp isLive with ⟨isKey, lives⟩
  exact (used key isKey).2 (of_decide_eq_true lives) expired

theorem turns_encode (versioned : ∀ turn ∈ record.turns, turn.Versioned) :
    (RedisStore.encode record).turns.map StoredTurn.turn = record.turns := by
  show (record.turns.map TranscriptTurn.modelDump).map StoredTurn.turn = _
  rw [List.map_map]
  calc record.turns.map (StoredTurn.turn ∘ TranscriptTurn.modelDump)
      = record.turns.map id := by
        apply List.map_congr_left
        intro turn inside
        exact (turn_modelDump turn).mpr (versioned turn inside)
    _ = record.turns := List.map_id record.turns

variable {caller : Caller}

theorem recordFromRaw_encode (versioned : ∀ turn ∈ record.turns, turn.Versioned) :
    recordFromRaw threadId caller (RedisStore.encode record) =
      if NotOwner caller record.owner record.entityId then
        .error (.threadOwnership threadId)
      else .ok record := by
  have turns := turns_encode versioned
  by_cases other : NotOwner caller record.owner record.entityId
  · rw [if_pos other, recordFromRaw]
    rcases other with notUser | notEntity
    · exact if_pos notUser
    · split
      · rfl
      · exact if_pos notEntity
  · rw [if_neg other, recordFromRaw, turns]
    rw [NotOwner, not_or] at other
    exact (if_neg other.1).trans (if_neg other.2)

variable {turns : List (TranscriptTurn Detail)}

theorem mem_trimForStorage {turn : TranscriptTurn Detail}
    (kept : turn ∈ trimForStorage settings turns) : turn ∈ turns := by
  unfold trimForStorage at kept
  split at kept
  · exact List.mem_of_mem_drop kept
  · exact kept

theorem versioned_trim (versioned : ∀ turn ∈ turns, turn.Versioned) :
    ∀ turn ∈ trimForStorage settings turns, turn.Versioned :=
  fun turn kept => versioned turn (mem_trimForStorage kept)

theorem versioned_append {older newer : List (TranscriptTurn Detail)}
    (first : ∀ turn ∈ older, turn.Versioned)
    (second : ∀ turn ∈ newer, turn.Versioned) :
    ∀ turn ∈ older ++ newer, turn.Versioned := by
  intro turn inside
  rcases List.mem_append.mp inside with old | new
  · exact first turn old
  · exact second turn new

/-- Both stores answer an operation alike and stay alike. -/
abbrev AlikeAt (settings : Settings) (now : Rat)
    (memory : MemoryStore Detail Json × Result Detail Json)
    (redis : RedisStore Detail Json × Result Detail Json) : Prop :=
  Alike (RelatedAt settings now) memory redis

theorem alike_load (related : RelatedAt settings now memory redis)
    (used : ThreadUsed settings redis now threadId (Owned caller)) :
    AlikeAt settings now (memoryStep settings ⟨now, .load threadId caller⟩ memory)
      (redisOperation settings ⟨now, .load threadId caller⟩ redis) := by
  rw [memoryStep, redisOperation]
  cases finds related used with
  | missing inMemory inRedis =>
    simp only [inMemory, inRedis]
    exact ⟨rfl, related.popExpired⟩
  | live record inMemory inRedis versioned unexpired =>
    simp only [inMemory, inRedis, recordFromRaw_encode versioned]
    by_cases other : NotOwner caller record.owner record.entityId
    · simp only [if_pos other]
      exact ⟨rfl, related⟩
    · simp only [if_neg other, if_neg unexpired]
      exact ⟨rfl, related⟩
  | ended record inMemory inRedis versioned expired =>
    have own : ¬NotOwner caller record.owner record.entityId := used.ended inRedis expired
    simp only [inMemory, inRedis, recordFromRaw_encode versioned, if_neg own, if_pos expired]
    exact ⟨rfl, related.popExpired⟩

theorem alike_append (related : RelatedAt settings now memory redis) {startedAt : Option Rat}
    (used : ThreadUsed settings redis now threadId (Owned caller))
    (versioned : ∀ turn ∈ turns, turn.Versioned) :
    AlikeAt settings now (memoryStep settings ⟨now, .append threadId caller turns startedAt⟩ memory)
      (redisOperation settings ⟨now, .append threadId caller turns startedAt⟩ redis) := by
  rw [memoryStep, redisOperation]
  cases finds related used with
  | missing inMemory inRedis =>
    simp only [inMemory, inRedis]
    exact ⟨rfl, related.popExpired.setThread (versioned_trim versioned)⟩
  | live record inMemory inRedis recordVersioned unexpired =>
    simp only [inMemory, inRedis, recordFromRaw_encode recordVersioned]
    by_cases other : NotOwner caller record.owner record.entityId
    · simp only [if_pos other]
      exact ⟨rfl, related⟩
    · simp only [if_neg other, if_neg unexpired]
      exact ⟨rfl, related.setThread (versioned_trim (versioned_append recordVersioned versioned))⟩
  | ended record inMemory inRedis recordVersioned expired =>
    have own : ¬NotOwner caller record.owner record.entityId := used.ended inRedis expired
    simp only [inMemory, inRedis, recordFromRaw_encode recordVersioned, if_neg own, if_pos expired]
    exact ⟨rfl, related.popExpired.setThread (versioned_trim versioned)⟩

theorem alike_replace (related : RelatedAt settings now memory redis) {target : Target}
    (used : ThreadUsed settings redis now threadId (fun _ => False))
    (versioned : ∀ turn ∈ turns, turn.Versioned) :
    AlikeAt settings now (memoryStep settings
        ⟨now, .replaceLatestExchange threadId caller target turns⟩ memory)
      (redisOperation settings
        ⟨now, .replaceLatestExchange threadId caller target turns⟩ redis) := by
  rw [memoryStep, redisOperation]
  cases finds related used with
  | missing inMemory inRedis =>
    simp only [inMemory, inRedis]
    exact ⟨rfl, related.popExpired⟩
  | live record inMemory inRedis recordVersioned unexpired =>
    simp only [inMemory, inRedis, recordFromRaw_encode recordVersioned]
    by_cases other : NotOwner caller record.owner record.entityId
    · simp only [if_pos other]
      exact ⟨rfl, related⟩
    · simp only [if_neg other]
      cases verifyRegenerateTail target record.turns with
      | some message => exact ⟨rfl, related⟩
      | none =>
        have older : ∀ turn ∈ withoutLatest record.turns, turn.Versioned :=
          fun turn inside =>
            recordVersioned turn (List.mem_of_mem_take inside)
        exact ⟨rfl, related.setThread (versioned_trim (versioned_append older versioned))⟩
  | ended record inMemory inRedis recordVersioned expired =>
    exact absurd expired fun _ => used.ended inRedis expired

end Threads

section Continuations

variable {settings : Settings} {now : Rat} {memory : MemoryStore Detail Json}
  {redis : RedisStore Detail Json} {jti : String}

theorem RelatedAt.setMemoryContinuation (related : RelatedAt settings now memory redis)
    {record : Option (Continuation Json)}
    (alike : ContinuationsAlike now record (redis.continuations jti)) :
    RelatedAt settings now (memory.setContinuation jti record) redis := by
  constructor
  · exact related.threads
  · intro other
    show ContinuationsAlike now (Function.update memory.continuations jti record other) _
    by_cases same : other = jti
    · rw [same, Function.update_self]
      exact alike
    · rw [Function.update_of_ne same]
      exact related.continuations other

/-- A key lives as long as its record. -/
theorem expiresAt_le_lives (expiresAt : Int) (now : Rat) :
    (expiresAt : Rat) ≤ now + ((max 1 (expiresAt - now.floor) : Int) : Rat) := by
  have floor_le : (now.floor : Rat) ≤ now := Int.floor_le now
  have long : expiresAt - now.floor ≤ max 1 (expiresAt - now.floor) := le_max_right _ _
  calc (expiresAt : Rat) = now.floor + ((expiresAt - now.floor : Int) : Rat) := by
        push_cast
        ring
    _ ≤ now + ((max 1 (expiresAt - now.floor) : Int) : Rat) :=
        add_le_add floor_le (Int.cast_le.mpr long)

variable {record : Continuation Json}

/-- Redis keeps a record anew, alike to what the process-local store has. -/
theorem RelatedAt.setRedisContinuation (related : RelatedAt settings now memory redis)
    {inMemory : Option (Continuation Json)}
    (alike : inMemory = some record ∨ (record.expiresAt : Rat) < now ∧
      ∀ other, inMemory = some other → (other.expiresAt : Rat) < now) :
    RelatedAt settings now (memory.setContinuation jti inMemory)
      (redis.setContinuation jti record now) := by
  constructor
  · exact related.threads
  · intro other
    show ContinuationsAlike now (Function.update memory.continuations jti inMemory other)
      (Function.update redis.continuations jti _ other)
    by_cases same : other = jti
    · rw [same, Function.update_self, Function.update_self]
      exact ⟨expiresAt_le_lives record.expiresAt now, alike⟩
    · rw [Function.update_of_ne same, Function.update_of_ne same]
      exact related.continuations other

/-- What the stores find under a ticket's id. -/
inductive FindsContinuation (now : Rat) (memory : MemoryStore Detail Json)
    (redis : RedisStore Detail Json) (jti : String) : Prop where
  | missing (inMemory : memory.continuations jti = none)
      (inRedis : redis.getContinuation jti now = none)
  | live (record : Continuation Json) (inMemory : memory.continuations jti = some record)
      (inRedis : redis.getContinuation jti now = some record)
      (unexpired : ¬(record.expiresAt : Rat) < now)
  | expired (key : Key (Continuation Json)) (isKey : redis.continuations jti = some key)
      (inMemory : ∀ record, memory.continuations jti = some record → (record.expiresAt : Rat) < now)
      (inRedis : redis.getContinuation jti now =
        if key.lives < now then none else some key.value)
      (expired : (key.value.expiresAt : Rat) < now)

theorem findsContinuation (related : RelatedAt settings now memory redis)
    (jti : String) : FindsContinuation now memory redis jti := by
  have alike := related.continuations jti
  cases isKey : redis.continuations jti with
  | none =>
    rw [isKey] at alike
    apply FindsContinuation.missing alike
    rw [RedisStore.getContinuation, isKey]
    rfl
  | some key =>
    rw [isKey] at alike
    rcases alike with ⟨lives, kept⟩
    have inRedis : redis.getContinuation jti now =
        if key.lives < now then none else some key.value := by
      rw [RedisStore.getContinuation, isKey]
      by_cases ended : key.lives < now
      · rw [if_pos ended, Option.filter_some, if_neg (by simpa using ended)]
        rfl
      · rw [if_neg ended, Option.filter_some, if_pos (by simpa using ended)]
        rfl
    by_cases expired : (key.value.expiresAt : Rat) < now
    · rcases kept with same | ⟨_, memoryExpired⟩
      · refine .expired key isKey ?_ inRedis expired
        intro record found
        rw [same] at found
        cases found
        exact expired
      · exact .expired key isKey memoryExpired inRedis expired
    · have alive : ¬key.lives < now :=
        fun ended => expired (lt_of_le_of_lt lives ended)
      rw [if_neg alive] at inRedis
      rcases kept with same | ⟨alsoExpired, _⟩
      · exact .live key.value same inRedis expired
      · exact absurd alsoExpired expired

theorem liveContinuation_of_missing (missing : memory.continuations jti = none) :
    memory.liveContinuation jti now = none := by
  rw [MemoryStore.liveContinuation, missing]
  rfl

theorem liveContinuation_of_live (found : memory.continuations jti = some record)
    (unexpired : ¬(record.expiresAt : Rat) < now) :
    memory.liveContinuation jti now = some record := by
  rw [MemoryStore.liveContinuation, found, Option.filter_some, if_pos (by simpa using unexpired)]

theorem liveContinuation_of_expired (expired : ∀ record, memory.continuations jti = some record →
      (record.expiresAt : Rat) < now) :
    memory.liveContinuation jti now = none := by
  rw [MemoryStore.liveContinuation]
  cases found : memory.continuations jti with
  | none => rfl
  | some record =>
    rw [Option.filter_some, if_neg (by simpa using expired record found)]

/-- Dropping an expired record leaves the stores alike. -/
theorem RelatedAt.popContinuation (related : RelatedAt settings now memory redis) (jti : String) :
    RelatedAt settings now (memory.popContinuation jti now) redis := by
  apply related.setMemoryContinuation
  have alike := related.continuations jti
  cases isKey : redis.continuations jti with
  | none =>
    rw [isKey] at alike
    exact liveContinuation_of_missing alike
  | some key =>
    rw [isKey] at alike
    rcases alike with ⟨lives, kept⟩
    by_cases expired : (key.value.expiresAt : Rat) < now
    · have gone : memory.liveContinuation jti now = none := by
        apply liveContinuation_of_expired
        intro record found
        rcases kept with same | ⟨_, memoryExpired⟩
        · rw [same] at found
          cases found
          exact expired
        · exact memoryExpired record found
      refine ⟨lives, .inr ⟨expired, ?_⟩⟩
      intro record found
      rw [gone] at found
      cases found
    · rcases kept with same | ⟨alsoExpired, _⟩
      · exact ⟨lives, .inl (liveContinuation_of_live same expired)⟩
      · exact absurd alsoExpired expired

variable {executionId : String} {settlement : Settlement Json}

theorem expiresAt_settleRecord {next : Continuation Json}
    (settled : settleRecord record executionId settlement = some next) :
    next.expiresAt = record.expiresAt := by
  unfold settleRecord at settled
  split at settled
  · cases settled
  · split at settled
    · cases settled
    · cases settled
      cases settlement with
      | completed terminalOutcome aqid digest => rfl
      | failed errorDetail => rfl

theorem alike_create (related : RelatedAt settings now memory redis) (creation : Creation Json) :
    AlikeAt settings now (memoryStep settings ⟨now, .createPendingContinuation creation⟩ memory)
      (redisOperation settings ⟨now, .createPendingContinuation creation⟩ redis) :=
  ⟨rfl, related.setRedisContinuation (.inl rfl)⟩

theorem alike_claim (related : RelatedAt settings now memory redis) (turn : Turn) :
    AlikeAt settings now (memoryStep settings ⟨now, .claimPendingContinuation turn⟩ memory)
      (redisOperation settings ⟨now, .claimPendingContinuation turn⟩ redis) := by
  rw [memoryStep, redisOperation]
  cases findsContinuation related turn.jti with
  | missing inMemory inRedis =>
    simp only [liveContinuation_of_missing inMemory, inRedis]
    exact ⟨rfl, related.popContinuation turn.jti⟩
  | live record inMemory inRedis unexpired =>
    simp only [liveContinuation_of_live inMemory unexpired, inRedis, if_neg unexpired]
    cases claimRecord record turn now with
    | mk claim next =>
      cases next with
      | none => exact ⟨rfl, related⟩
      | some next => exact ⟨rfl, related.setRedisContinuation (.inl rfl)⟩
  | expired key isKey inMemory inRedis expired =>
    simp only [liveContinuation_of_expired inMemory, inRedis]
    by_cases ended : key.lives < now
    · simp only [if_pos ended]
      exact ⟨rfl, related.popContinuation turn.jti⟩
    · simp only [if_neg ended, if_pos expired]
      exact ⟨rfl, related.popContinuation turn.jti⟩

theorem settled_expired (expired : (record.expiresAt : Rat) < now) :
    ∀ next, settleRecord record executionId settlement = some next →
      (next.expiresAt : Rat) < now := by
  intro next settled
  rw [expiresAt_settleRecord settled]
  exact expired

theorem setContinuation_self (memory : MemoryStore Detail Json) (jti : String) :
    memory.setContinuation jti (memory.continuations jti) = memory := by
  rw [MemoryStore.setContinuation, Function.update_eq_self]

/-- Whatever the process-local store makes of a record that has expired. -/
theorem memory_settles_expired {executionId : String} {settlement : Settlement Json}
    (expired : ∀ record, memory.continuations jti = some record → (record.expiresAt : Rat) < now) :
    ∃ inMemory, memoryStep settings
        ⟨now, .settlePendingContinuation jti executionId settlement⟩ memory =
          (memory.setContinuation jti inMemory, .done) ∧
      ∀ record, inMemory = some record → (record.expiresAt : Rat) < now := by
  rw [memoryStep]
  cases found : memory.continuations jti with
  | none =>
    refine ⟨memory.continuations jti, ?_, expired⟩
    simp only [found]
    rw [← found, setContinuation_self]
  | some record =>
    cases settled : settleRecord record executionId settlement with
    | none =>
      refine ⟨memory.continuations jti, ?_, expired⟩
      simp only [found, settled]
      rw [← found, setContinuation_self]
    | some next =>
      refine ⟨some next, ?_, ?_⟩
      · simp only [found, settled]
      · intro other same
        cases same
        exact settled_expired (expired record found) next settled

theorem alike_settle (related : RelatedAt settings now memory redis)
    (jti executionId : String) (settlement : Settlement Json) :
    AlikeAt settings now (memoryStep settings
        ⟨now, .settlePendingContinuation jti executionId settlement⟩ memory)
      (redisOperation settings
        ⟨now, .settlePendingContinuation jti executionId settlement⟩ redis) := by
  cases findsContinuation related jti with
  | missing inMemory inRedis =>
    rw [memoryStep, redisOperation]
    simp only [inMemory, inRedis]
    exact ⟨rfl, related⟩
  | live record inMemory inRedis unexpired =>
    rw [memoryStep, redisOperation]
    simp only [inMemory, inRedis]
    cases settleRecord record executionId settlement with
    | none => exact ⟨rfl, related⟩
    | some next => exact ⟨rfl, related.setRedisContinuation (.inl rfl)⟩
  | expired key isKey inMemory inRedis expired =>
    rcases @memory_settles_expired _ _ settings now memory jti executionId
      settlement inMemory with ⟨kept, isMemory, stillExpired⟩
    rw [isMemory, redisOperation]
    have lives : (key.value.expiresAt : Rat) ≤ key.lives := by
      have alike := related.continuations jti
      rw [isKey] at alike
      exact alike.1
    have unchanged : RelatedAt settings now (memory.setContinuation jti kept) redis := by
      apply related.setMemoryContinuation
      rw [isKey]
      exact ⟨lives, .inr ⟨expired, stillExpired⟩⟩
    by_cases ended : key.lives < now
    · simp only [inRedis, if_pos ended]
      exact ⟨rfl, unchanged⟩
    · simp only [inRedis, if_neg ended]
      cases settled : settleRecord key.value executionId settlement with
      | none => exact ⟨rfl, unchanged⟩
      | some next =>
        have nextExpired := settled_expired expired next settled
        exact ⟨rfl, related.setRedisContinuation (.inr ⟨nextExpired, stillExpired⟩)⟩

theorem alike_get (related : RelatedAt settings now memory redis)
    (used : ∀ key, redis.continuations jti = some key →
      ¬(key.value.expiresAt : Rat) < now ∨ key.lives < now) :
    AlikeAt settings now (memoryStep settings ⟨now, .getContinuationRecord jti⟩ memory)
      (redisOperation settings ⟨now, .getContinuationRecord jti⟩ redis) := by
  rw [memoryStep, redisOperation]
  have popped := related.popContinuation jti
  cases findsContinuation related jti with
  | missing inMemory inRedis =>
    simp only [liveContinuation_of_missing inMemory, inRedis]
    exact ⟨rfl, popped⟩
  | live record inMemory inRedis unexpired =>
    simp only [liveContinuation_of_live inMemory unexpired, inRedis]
    exact ⟨rfl, popped⟩
  | expired key isKey inMemory inRedis expired =>
    have ended : key.lives < now := (used key isKey).resolve_left (not_not.mpr expired)
    simp only [liveContinuation_of_expired inMemory, inRedis, if_pos ended]
    exact ⟨rfl, popped⟩

theorem alike_wait (related : RelatedAt settings now memory redis)
    (used : ∀ key, redis.continuations jti = some key → ¬(key.value.expiresAt : Rat) < now) :
    AlikeAt settings now (memoryStep settings ⟨now, .waitContinuationCompletion jti⟩ memory)
      (redisOperation settings ⟨now, .waitContinuationCompletion jti⟩ redis) := by
  rw [memoryStep, redisOperation]
  cases findsContinuation related jti with
  | missing inMemory inRedis =>
    simp only [inMemory, inRedis]
    exact ⟨rfl, related⟩
  | live record inMemory inRedis unexpired =>
    simp only [inMemory, inRedis]
    exact ⟨rfl, related⟩
  | expired key isKey inMemory inRedis expired =>
    exact absurd expired (used key isKey)

end Continuations

variable {settings : Settings} {memory : MemoryStore Detail Json}
  {redis : RedisStore Detail Json}

theorem alike_operation {now : Rat} (related : RelatedAt settings now memory redis)
    {operation : Operation Detail Json}
    (used : Used settings redis now operation) :
    AlikeAt settings now (memoryStep settings ⟨now, operation⟩ memory)
      (redisOperation settings ⟨now, operation⟩ redis) := by
  cases operation with
  | load threadId caller => exact alike_load related used
  | append threadId caller turns startedAt =>
    exact alike_append related used.1 used.2
  | replaceLatestExchange threadId caller target turns =>
    exact alike_replace related used.1 used.2
  | createPendingContinuation creation => exact alike_create related creation
  | claimPendingContinuation turn => exact alike_claim related turn
  | settlePendingContinuation jti executionId settlement =>
    exact alike_settle related jti executionId settlement
  | getContinuationRecord jti => exact alike_get related used
  | waitContinuationCompletion jti => exact alike_wait related used

theorem alike_step {step : Timed Detail Json} (related : Related settings memory redis)
    (allowed : Allowed settings redis step) :
    Alike (Related settings) (memoryStep settings step memory) (redisStep settings step redis) := by
  have now := related.later allowed.1
  have alike := alike_operation now allowed.2
  constructor
  · exact alike.output
  · exact ⟨alike.related.threads, alike.related.continuations⟩

theorem related_start (settings : Settings) (start : Rat) :
    Related settings ({} : MemoryStore Detail Json)
      ({ clock := start } : RedisStore Detail Json) := by
  constructor
  · intro threadId
    rfl
  · intro jti
    rfl

theorem ThreadUsed.of_key {settings : Settings} {store : RedisStore Detail Json}
    {now : Rat} {threadId : String} {ended : StoredThread Detail → Prop}
    {key : Key (StoredThread Detail)}
    (found : store.threads threadId = some key) (lives : ¬key.lives < now)
    (unexpired : ¬Expired settings key.value.createdAt now) :
    ThreadUsed settings store now threadId ended := by
  intro other same
  rw [found] at same
  cases same
  exact ⟨fun ended => absurd ended lives, fun _ expired => absurd expired unexpired⟩

def alice : Caller := ⟨"alice", some 1⟩

def bob : Caller := ⟨"bob", some 1⟩

def question (exchangeId : String) : TranscriptTurn Unit :=
  { role := .user, content := "How many?", exchangeId := exchangeId, details := () }

def reply (exchangeId : String) : TranscriptTurn Unit :=
  { role := .assistant, content := "Two.", exchangeId := exchangeId, details := () }

def exchange (exchangeId : String) : List (TranscriptTurn Unit) :=
  [question exchangeId, reply exchangeId]

/-- A thread is started, refused to somebody else and regenerated. -/
def regenerated : List (Timed Unit Unit) :=
  [⟨10, .append "thread" alice (exchange "first") none⟩,
    ⟨20, .load "thread" bob⟩,
    ⟨30, .replaceLatestExchange "thread" alice ⟨"first", "How many?", none⟩ (exchange "second")⟩]

theorem versioned_exchange (exchangeId : String) :
    ∀ turn ∈ exchange exchangeId, turn.Versioned := by
  intro turn inside
  rcases List.mem_cons.mp inside with rfl | inside
  · exact fun _ => ⟨rfl, rfl, rfl, rfl⟩
  · rw [List.mem_singleton.mp inside]
    exact fun _ => ⟨rfl, rfl, rfl, rfl⟩

def startedKey : Key (StoredThread Unit) :=
  ⟨RedisStore.encode
    { owner := "alice", entityId := some 1, createdAt := 10,
      turns := exchange "first" }, 1810⟩

def emptyRedis : RedisStore Unit Unit := { clock := 0 }

theorem met_regenerated : Met (redisStep {}) (Allowed {}) emptyRedis regenerated := by
  refine ⟨⟨by decide +kernel, ?_, versioned_exchange "first"⟩,
    ⟨by decide +kernel, ?_⟩,
    ⟨by decide +kernel, ?_, versioned_exchange "second"⟩, trivial⟩
  · intro key found
    cases found
  · apply @ThreadUsed.of_key _ _ _ _ _ _ _ startedKey
    · decide +kernel
    · decide +kernel
    · decide +kernel
  · apply @ThreadUsed.of_key _ _ _ _ _ _ _ startedKey
    · decide +kernel
    · decide +kernel
    · decide +kernel

/-- Half an hour after its last write, Redis has let the thread go. -/
def idled : List (Timed Unit Unit) :=
  [⟨10, .append "thread" alice (exchange "first") none⟩, ⟨1811, .load "thread" alice⟩]

/-- A thread that is older than its lifetime is loaded by somebody else. -/
def loadedByOther : List (Timed Unit Unit) :=
  [⟨14000, .append "thread" alice (exchange "first") (some 10)⟩, ⟨14500, .load "thread" bob⟩]

def regeneratedLate : List (Timed Unit Unit) :=
  [⟨14000, .append "thread" alice (exchange "first") (some 10)⟩,
    ⟨14500, .replaceLatestExchange "thread" alice ⟨"first", "How many?", none⟩ (exchange "second")⟩]

end McpAssistant.Conversation.StoreAgreement
