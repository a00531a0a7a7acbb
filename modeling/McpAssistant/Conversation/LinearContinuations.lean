import McpAssistant.Conversation.ContinuationStores
import McpAssistant.Foundations.Interleaving

/-!
# Linear continuations

Where a ticket's id is drawn once, both stores note lawful logs only, however
the calls of their turns interleave.
-/

namespace McpAssistant.Conversation.LinearContinuations

open PendingContinuation ContinuationLifecycle ContinuationStores
open Foundations.Interleaving

variable {Json : Type}

/-- A ticket's id is drawn once. -/
def Orderly (continuations : Continuations Json) : Choice Json → Prop
  | .performs call _ =>
    match continuations.calls call with
    | some (.creates creation) =>
      history creation.jti continuations.log = []
    | _ => True
  | _ => True

/-- What is stored is what was noted last. -/
def Shows (continuations : Continuations Json) : Prop :=
  ∀ jti record, continuations.records jti = some record → latest jti continuations.log = some record

def Joined (continuations : Continuations Json) (turn : Turn) : Prop :=
  ∃ record ∈ history turn.jti continuations.log, record.status = .claimed ∧ SameRequest turn record

/-- A watched key that was not changed still has the record that was read. -/
def Watched (continuations : Continuations Json) (jti : String) (version : Nat)
    (knows : Continuation Json → Prop) : Prop :=
  version ≤ continuations.writes jti ∧ (continuations.writes jti = version →
      ∃ record, latest jti continuations.log = some record ∧ knows record)

/-- What a call that got to its position knows. -/
def Knows (continuations : Continuations Json) : Call Json → Prop
  | .claimReads turn version => version ≤ continuations.writes turn.jti
  | .claimCommits turn version claim next =>
    Watched continuations turn.jti version fun record =>
      Claiming turn record claim (some next)
  | .joins turn => Joined continuations turn
  | .waits turn _ => Joined continuations turn
  | .joinReads turn _ => Joined continuations turn
  | .settleReads jti _ _ version => version ≤ continuations.writes jti
  | .settleCommits jti version next =>
    Watched continuations jti version fun record => Ends record next
  | .creates _ => True
  | .claims _ => True
  | .settles _ _ _ => True

structure Sound (continuations : Continuations Json) : Prop where
  lawful : Lawful continuations.log
  shows : Shows continuations
  knows : ∀ call position, continuations.calls call = some position → Knows continuations position

inductive Does (before : Continuations Json) : Continuations Json → Prop where
  | nothing : Does before before
  | notes (event : Event Json) (quiet : ∀ jti, event.stores jti = none)
      (follows : Follows before.log event) : Does before (before.note event)
  | stores (jti : String) (event : Event Json) (record : Continuation Json)
      (isStored : event.stores jti = some record)
      (alone : ∀ other, other ≠ jti → event.stores other = none)
      (follows : Follows before.log event) :
      Does before (before.store jti event record)
  | drops (jti : String) (noticed : Bool) : Does before (before.drop jti noticed)

/-- What was noted stays noted, and a key whose count is the same was not
changed. -/
structure Keeps (before after : Continuations Json) : Prop where
  log : ∀ jti record, record ∈ history jti before.log → record ∈ history jti after.log
  writes : ∀ jti, before.writes jti ≤ after.writes jti
  unchanged : ∀ jti, after.writes jti = before.writes jti →
    latest jti after.log = latest jti before.log

section Steps

variable {before after : Continuations Json}

theorem Does.keeps (does : Does before after) : Keeps before after := by
  cases does with
  | nothing => exact ⟨fun _ _ inside => inside, fun _ => Nat.le_refl _, fun _ _ => rfl⟩
  | notes event quiet follows =>
    constructor
    · intro jti record inside
      show record ∈ history jti (event :: before.log)
      rw [history_cons_of_none (quiet jti)]
      exact inside
    · intro jti
      exact Nat.le_refl _
    · intro jti _
      show latest jti (event :: before.log) = _
      rw [latest, history_cons_of_none (quiet jti)]
      rfl
  | stores jti event record isStored alone follows =>
    constructor
    · intro other stored inside
      show stored ∈ history other (event :: before.log)
      by_cases same : other = jti
      · rw [same, history_cons_of_stores isStored]
        rw [same] at inside
        exact List.mem_cons_of_mem record inside
      · rw [history_cons_of_none (alone other same)]
        exact inside
    · intro other
      show _ ≤ Function.update before.writes jti _ other
      by_cases same : other = jti
      · rw [same, Function.update_self]
        exact Nat.le_succ _
      · exact Nat.le_of_eq (Function.update_of_ne same _ _).symm
    · intro other unchanged
      have sameCount : Function.update before.writes jti
          (before.writes jti + 1) other = before.writes other := unchanged
      by_cases same : other = jti
      · rw [same, Function.update_self] at sameCount
        exact absurd sameCount (Nat.succ_ne_self _)
      · show latest other (event :: before.log) = _
        rw [latest, history_cons_of_none (alone other same)]
        rfl
  | drops jti noticed =>
    constructor
    · intro other record inside
      exact inside
    · intro other
      show _ ≤ Function.update before.writes jti _ other
      by_cases same : other = jti
      · rw [same, Function.update_self]
        exact Nat.le_add_right _ _
      · exact Nat.le_of_eq (Function.update_of_ne same _ _).symm
    · intro other _
      rfl

theorem Does.lawful (does : Does before after) (lawful : Lawful before.log) : Lawful after.log := by
  cases does with
  | nothing => exact lawful
  | notes event quiet follows => exact .next lawful event follows
  | stores jti event record isStored alone follows =>
    exact .next lawful event follows
  | drops jti noticed => exact lawful

theorem Does.shows (does : Does before after) (shows_ : Shows before) : Shows after := by
  cases does with
  | nothing => exact shows_
  | notes event quiet follows =>
    intro jti record found
    show latest jti (event :: before.log) = _
    rw [latest, history_cons_of_none (quiet jti)]
    exact shows_ jti record found
  | stores jti event record isStored alone follows =>
    intro other stored found
    show latest other (event :: before.log) = _
    have stores : Function.update before.records jti (some record) other = some stored := found
    by_cases same : other = jti
    · rw [same, Function.update_self] at stores
      rw [same, latest, history_cons_of_stores isStored]
      exact stores
    · rw [Function.update_of_ne same] at stores
      rw [latest, history_cons_of_none (alone other same)]
      exact shows_ other stored stores
  | drops jti noticed =>
    intro other stored found
    have stores : Function.update before.records jti none other = some stored := found
    by_cases same : other = jti
    · rw [same, Function.update_self] at stores
      cases stores
    · rw [Function.update_of_ne same] at stores
      exact shows_ other stored stores

variable {turn : Turn}

theorem Joined.keeps (joined : Joined before turn)
    (keeps : Keeps before after) : Joined after turn := by
  rcases joined with ⟨record, inside, claimed, same⟩
  exact ⟨record, keeps.log turn.jti record inside, claimed, same⟩

variable {jti : String} {knows : Continuation Json → Prop}

theorem Watched.keeps {version : Nat}
    (watched : Watched before jti version knows) (keeps : Keeps before after) :
    Watched after jti version knows := by
  rcases watched with ⟨seen, unchanged⟩
  have grows := keeps.writes jti
  constructor
  · exact Nat.le_trans seen grows
  · intro same
    have still : after.writes jti = before.writes jti := Nat.le_antisymm (same ▸ seen) grows
    rw [keeps.unchanged jti still]
    exact unchanged (still.symm.trans same)

variable {position : Call Json}

theorem Knows.keeps (knows : Knows before position)
    (keeps : Keeps before after) : Knows after position := by
  cases position with
  | claimReads turn version => exact Nat.le_trans knows (keeps.writes turn.jti)
  | claimCommits turn version claim next => exact Watched.keeps knows keeps
  | joins turn => exact Joined.keeps knows keeps
  | waits turn executionId => exact Joined.keeps knows keeps
  | joinReads turn executionId => exact Joined.keeps knows keeps
  | settleReads jti executionId settlement version =>
    exact Nat.le_trans knows (keeps.writes jti)
  | settleCommits jti version next => exact Watched.keeps knows keeps
  | _ => trivial

/-- A command that does this, and goes on knowing that. -/
structure Sounds (before : Continuations Json)
    (result : Continuations Json × Option (Call Json)) : Prop where
  does : Does before result.1
  knows : ∀ rest, result.2 = some rest → Knows result.1 rest

/-- A command that ends its call. -/
theorem Sounds.ends (does : Does before after) : Sounds before (after, none) := by
  constructor
  · exact does
  · intro rest same
    cases same

theorem Sounds.goesOn {rest : Call Json} (knows : Knows before rest) :
    Sounds before (before, some rest) := by
  constructor
  · exact .nothing
  · intro other same
    cases same
    exact knows

variable {claim : ContinuationClaim Json} {record : Continuation Json}

/-- The claim of a turn, or the end of a claim whose lease is over. -/
theorem does_claimStores {next : Continuation Json}
    (current : latest turn.jti before.log = some record)
    (claiming : Claiming turn record claim (some next)) :
    Does before (before.store turn.jti (claimEvent turn.jti claim next) next) := by
  cases claiming with
  | claims _ claims =>
    apply Does.stores
    · exact if_pos rfl
    · intro other apart
      exact if_neg apart.symm
    · exact .claimed turn.jti turn record next current claims
  | lapses _ ends =>
    apply Does.stores
    · exact if_pos rfl
    · intro other apart
      exact if_neg apart.symm
    · exact .ended turn.jti record next current ends

theorem does_settleStores {next : Continuation Json}
    (current : latest jti before.log = some record) (ends : Ends record next) :
    Does before (before.store jti (.ended jti next) next) := by
  apply Does.stores
  · exact if_pos rfl
  · intro other apart
    exact if_neg apart.symm
  · exact .ended jti record next current ends

variable {now : Rat}

theorem does_creates {creation : Creation Json} (fresh : history creation.jti before.log = []) :
    Does before (before.store creation.jti (.created creation.jti (creation.continuation now))
      (creation.continuation now)) := by
  apply Does.stores
  · exact if_pos rfl
  · intro other apart
    exact if_neg apart.symm
  · exact .created creation.jti _ fresh rfl

theorem does_answers {outcome : Json} (current : latest turn.jti before.log = some record)
    (completed : record.status = .completed) (same : SameRequest turn record)
    (isOutcome : record.terminalOutcome = some outcome) :
    Does before (before.note (answeredEvent turn outcome)) := by
  apply Does.notes
  · intro jti
    rfl
  · exact .answered turn.jti turn.principalBindingHash turn.idempotencyKeyHash
      outcome record current completed same.principal same.key isOutcome

theorem sounds_claimAnswered (current : latest turn.jti before.log = some record)
    (claiming : Claiming turn record claim none) :
    Sounds before (claimAnswered turn claim before) := by
  cases claiming with
  | rejects => exact .ends .nothing
  | reclaims claimed same holds =>
    apply Sounds.ends
    apply Does.notes
    · intro jti
      rfl
    · exact .reclaimed turn.jti turn.executionId record current claimed holds
  | waits claimed same =>
    apply Sounds.goesOn
    exact ⟨record, mem_of_latest current, claimed, same⟩
  | completes completed same =>
    rw [claimAnswered.eq_def]
    cases isOutcome : record.terminalOutcome with
    | none => exact .ends .nothing
    | some outcome =>
      exact .ends (does_answers current completed same isOutcome)

/-- The record that ended has the principal and the key it was claimed with. -/
theorem Joined.completed (joined : Joined before turn) (lawful : Lawful before.log)
    (current : latest turn.jti before.log = some record)
    (completed : record.status = .completed) : SameRequest turn record := by
  rcases joined with ⟨claim, inside, claimed, same⟩
  rcases (lawful.course turn.jti).of_terminal current (.inl completed) with
    ⟨_, first, held, claims, ends, isHistory⟩
  rw [isHistory] at inside
  have isHeld : claim = held := by
    rcases List.mem_cons.mp inside with rfl | inside
    · rw [completed] at claimed
      cases claimed
    · rcases List.mem_cons.mp inside with isHeld | inside
      · exact isHeld
      · rw [List.mem_singleton.mp inside, claims.pending] at claimed
        cases claimed
  rw [isHeld] at same claimed
  constructor
  · rw [ends.continues.principal]
    exact same.principal
  · rcases ends.continues.key with pending | sameKey
    · rw [claimed] at pending
      cases pending
    · rw [sameKey]
      exact same.key

variable {result : ContinuationJoinResult Json}

theorem sounds_joinAnswered (joined : Joined before turn) (lawful : Lawful before.log)
    (reads : result.status = .completed → ∃ record,
      latest turn.jti before.log = some record ∧ record.status = .completed ∧
        result.answer = record.terminalOutcome) :
    Sounds before (joinAnswered turn result before) := by
  unfold joinAnswered
  split
  · rename_i outcome isCompleted isAnswer
    rcases reads isCompleted with ⟨record, current, completed, isOutcome⟩
    apply Sounds.ends
    exact does_answers current completed
      (joined.completed lawful current completed) (isOutcome.symm.trans isAnswer)
  · exact .ends .nothing

theorem joinRecord_answers {key : String} {remainingSeconds : Rat}
    (answers : joinRecord record key now remainingSeconds = .answers result)
    (completed : result.status = .completed) :
    record.status = .completed ∧ result.answer = record.terminalOutcome := by
  unfold joinRecord at answers
  split at answers
  · cases answers
    cases completed
  · split at answers
    · rename_i isCompleted
      cases answers
      exact ⟨isCompleted, rfl⟩
    · cases answers
      cases completed
    · split at answers
      · cases answers
      · split at answers
        · cases answers
          cases completed
        · cases answers
    · cases answers
      cases completed

theorem sounds_joinsRecord (joined : Joined before turn)
    (lawful : Lawful before.log) {remainingSeconds : Rat}
    (current : latest turn.jti before.log = some record) :
    Sounds before (joinsRecord turn now remainingSeconds record before) := by
  unfold joinsRecord
  split
  · rename_i result answers
    apply sounds_joinAnswered joined lawful
    intro completed
    exact ⟨record, current, joinRecord_answers answers completed⟩
  · exact .goesOn trivial
  · exact .goesOn joined

theorem sounds_joinReads (joined : Joined before turn)
    (lawful : Lawful before.log) (shows_ : Shows before) (executionId : String) :
    Sounds before (joinAnswered turn
      (joinWaited executionId (before.records turn.jti)) before) := by
  apply sounds_joinAnswered joined lawful
  intro completed
  unfold joinWaited at completed ⊢
  split at completed
  · rename_i record found
    split at completed
    · rename_i isCompleted
      refine ⟨record, shows_ turn.jti record found, isCompleted, ?_⟩
      rw [if_pos isCompleted]
      rfl
    · cases completed
  · cases completed

theorem watched_of_shows (shows_ : Shows before) {version : Nat}
    (seen : version ≤ before.writes jti)
    (found : before.records jti = some record)
    (known : knows record) :
    Watched before jti version knows :=
  ⟨seen, fun _ => ⟨record, shows_ jti record found, known⟩⟩

/-- The condition on a choice, at the position of the call it is about. -/
def Fresh (continuations : Continuations Json) : Call Json → Prop
  | .creates creation => history creation.jti continuations.log = []
  | _ => True

theorem sounds_performRedis (sound : Sound before) (readings : Readings)
    (knows : Knows before position)
    (fresh : Fresh before position) :
    Sounds before (performRedis readings position before) := by
  cases position with
  | creates creation => exact .ends (does_creates fresh)
  | claims turn => exact .goesOn (Nat.le_refl _)
  | claimReads turn version =>
    rw [performRedis]
    split
    · exact .ends .nothing
    · rename_i record found
      have current := sound.shows turn.jti record found
      split
      · exact .ends .nothing
      · have claiming := claiming_claimRecord record turn readings.second
        split
        · rename_i claim next isClaim
          rw [isClaim] at claiming
          apply Sounds.goesOn
          exact watched_of_shows sound.shows knows found claiming
        · rename_i claim isClaim
          rw [isClaim] at claiming
          exact sounds_claimAnswered current claiming
  | claimCommits turn version claim next =>
    rw [performRedis]
    split
    · rename_i same
      rcases knows.2 same with ⟨record, current, claiming⟩
      exact .ends (does_claimStores current claiming)
    · exact .ends .nothing
  | joins turn =>
    rw [performRedis]
    split
    · exact .ends .nothing
    · rename_i record found
      split
      · exact .ends .nothing
      · exact sounds_joinsRecord knows sound.lawful (sound.shows turn.jti record found)
  | waits turn executionId => exact .goesOn knows
  | joinReads turn executionId =>
    exact sounds_joinReads knows sound.lawful sound.shows executionId
  | settles jti executionId settlement => exact .goesOn (Nat.le_refl _)
  | settleReads jti executionId settlement version =>
    rw [performRedis]
    split
    · exact .ends .nothing
    · rename_i record found
      split
      · exact .ends .nothing
      · rename_i next settled
        apply Sounds.goesOn
        exact watched_of_shows sound.shows knows found (ends_of_settleRecord settled)
  | settleCommits jti version next =>
    rw [performRedis]
    split
    · rename_i same
      rcases knows.2 same with ⟨record, current, ends⟩
      exact .ends (does_settleStores current ends)
    · exact .ends .nothing

theorem sounds_performMemory (sound : Sound before) (readings : Readings)
    (knows : Knows before position)
    (fresh : Fresh before position) :
    Sounds before (performMemory readings position before) := by
  cases position with
  | creates creation => exact .ends (does_creates fresh)
  | claims turn =>
    rw [performMemory]
    split
    · exact .ends .nothing
    · rename_i record found
      have current := sound.shows turn.jti record found
      split
      · exact .ends (.drops turn.jti true)
      · have claiming := claiming_claimRecord record turn readings.second
        split
        · rename_i claim next isClaim
          rw [isClaim] at claiming
          exact .ends (does_claimStores current claiming)
        · rename_i claim isClaim
          rw [isClaim] at claiming
          exact sounds_claimAnswered current claiming
  | joins turn =>
    rw [performMemory]
    split
    · exact .ends .nothing
    · rename_i record found
      split
      · exact .ends (.drops turn.jti true)
      · split
        · exact .ends .nothing
        · exact sounds_joinsRecord knows sound.lawful (sound.shows turn.jti record found)
  | waits turn executionId => exact .goesOn knows
  | joinReads turn executionId =>
    exact sounds_joinReads knows sound.lawful sound.shows executionId
  | settles jti executionId settlement =>
    rw [performMemory]
    split
    · exact .ends .nothing
    · rename_i record found
      split
      · exact .ends .nothing
      · rename_i next settled
        exact .ends (does_settleStores (sound.shows jti record found)
          (ends_of_settleRecord settled))
  | _ => exact .ends .nothing

theorem sounds_perform (sound : Sound before) (backend : Backend) (readings : Readings)
    (knows : Knows before position) (fresh : Fresh before position) :
    Sounds before (perform backend readings position before) := by
  cases backend with
  | memory => exact sounds_performMemory sound readings knows fresh
  | redis => exact sounds_performRedis sound readings knows fresh

theorem Sound.does (sound : Sound before) (does : Does before after)
    {calls : Nat → Option (Call Json)}
    (knows : ∀ call position, calls call = some position →
      before.calls call = some position ∨ Knows after position) :
    Sound { after with calls := calls } := by
  have keeps : Keeps before { after with calls := calls } :=
    ⟨does.keeps.log, does.keeps.writes, does.keeps.unchanged⟩
  have same : Keeps after { after with calls := calls } :=
    ⟨fun _ _ inside => inside, fun _ => Nat.le_refl _, fun _ _ => rfl⟩
  constructor
  · exact does.lawful sound.lawful
  · exact does.shows sound.shows
  · intro call position found
    rcases knows call position found with old | known
    · exact (sound.knows call position old).keeps keeps
    · exact known.keeps same

theorem sound_step {backend : Backend} (sound : Sound before)
    {choice : Choice Json} (orderly : Orderly before choice) :
    Sound (step backend choice before) := by
  cases choice with
  | begins call request =>
    rw [step]
    split
    · exact sound
    · apply sound.does .nothing
      intro other position found
      by_cases same : other = call
      · right
        rw [same, Function.update_self] at found
        cases found
        cases request with
        | _ => trivial
      · left
        rw [Function.update_of_ne same] at found
        exact found
  | performs call readings =>
    rw [step]
    split
    · exact sound
    · rename_i position isAt
      have fresh : Fresh before position := by
        rw [Orderly, isAt] at orderly
        cases position with
        | creates creation => exact orderly
        | _ => trivial
      have sounds := sounds_perform sound backend readings (sound.knows call position isAt) fresh
      apply sound.does sounds.does
      intro other rest found
      by_cases same : other = call
      · right
        rw [same, Function.update_self] at found
        exact sounds.knows rest found
      · left
        rw [Function.update_of_ne same] at found
        exact found
  | abandons call =>
    apply sound.does .nothing
    intro other position found
    by_cases same : other = call
    · rw [same, Function.update_self] at found
      cases found
    · left
      rw [Function.update_of_ne same] at found
      exact found
  | expires jti noticed =>
    cases backend with
    | memory => exact sound
    | redis =>
      apply sound.does (.drops jti noticed)
      intro call position found
      exact .inl found

end Steps

theorem sound_start : Sound ({} : Continuations Json) := by
  constructor
  · exact .start
  · intro jti record found
    cases found
  · intro call position found
    cases found

/-- In both stores, whatever the order of the turns' steps, what is noted is
linear and what is stored was noted last. -/
theorem pending_continuation_linear (backend : Backend) (continuations : Continuations Json)
    (reached : Reaches (step backend) Orderly {} continuations) :
    Linear continuations.log ∧ Shows continuations := by
  have sound : Sound continuations :=
    reached.invariant sound_start fun _ _ sound orderly =>
      sound_step sound orderly
  exact ⟨sound.lawful.linear, sound.shows⟩

def sampleCreation : Creation Nat where
  jti := "ticket"
  executionId := "asked"
  threadId := none
  principalBindingHash := "alice"
  intentHash := "intent"
  pendingBlob := 0
  expiresAt := 300

def sampleReadings : Readings := ⟨1, 1, 1, 20⟩

def sampleTurn (executionId : String) : Turn :=
  ⟨"ticket", executionId, "key", "alice", none, 60⟩

/-- Two turns watch and read the pending record; the second commits first and
completes it, the first's transaction fails and it asks again. -/
def competing : List (Choice Nat) :=
  [.begins 0 (.createPending sampleCreation), .performs 0 sampleReadings,
    .begins 1 (.reply (sampleTurn "first")), .performs 1 sampleReadings,
    .performs 1 sampleReadings,
    .begins 2 (.reply (sampleTurn "second")), .performs 2 sampleReadings,
    .performs 2 sampleReadings, .performs 2 sampleReadings,
    .performs 1 sampleReadings,
    .begins 3 (.completePending "ticket" "asked" 7 none none),
    .performs 3 sampleReadings, .performs 3 sampleReadings,
    .performs 3 sampleReadings,
    .begins 4 (.reply (sampleTurn "first")), .performs 4 sampleReadings,
    .performs 4 sampleReadings]

theorem orderly_competing : OrderlyRun (step .redis) Orderly {} competing := by
  refine ⟨trivial, rfl, trivial, trivial, trivial, trivial, trivial, trivial,
    trivial, trivial, trivial, trivial, trivial, trivial, trivial, trivial,
    trivial, trivial⟩

theorem pending_continuation_linear_competing :
    Event.answered "ticket" "alice" "key" 7 ∈
        (runFrom (step .redis) {} competing).log ∧
      Linear (runFrom (step .redis) {} competing).log ∧
        Shows (runFrom (step .redis) {} competing) :=
  ⟨by decide +kernel, pending_continuation_linear .redis _
    (reaches_runFrom .start orderly_competing)⟩

/-- All answers to one ticket are one outcome for one principal and one key, and a record
under its id holds that outcome. -/
def OneAnswer (continuations : Continuations Json) : Prop :=
  ∀ jti principal key outcome, .answered jti principal key outcome ∈ continuations.log →
    (∀ principal' key' outcome', .answered jti principal' key' outcome' ∈ continuations.log →
      principal' = principal ∧ key' = key ∧ outcome' = outcome) ∧
    ∀ record, continuations.records jti = some record → record.terminalOutcome = some outcome

theorem answers_agree (backend : Backend) (continuations : Continuations Json)
    (reached : Reaches (step backend) Orderly {} continuations) : OneAnswer continuations := by
  have sound : Sound continuations :=
    reached.invariant sound_start fun _ _ sound orderly => sound_step sound orderly
  intro jti principal key outcome noted
  obtain ⟨record, isLatest, rfl, isKey, isOutcome⟩ := sound.lawful.answers noted
  constructor
  · intro principal' key' outcome' alsoNoted
    obtain ⟨other, same, rfl, isKey', isOutcome'⟩ := sound.lawful.answers alsoNoted
    cases isLatest.symm.trans same
    exact ⟨rfl, Option.some.inj (isKey'.symm.trans isKey),
      Option.some.inj (isOutcome'.symm.trans isOutcome)⟩
  · intro stored isStored
    cases isLatest.symm.trans (sound.shows jti stored isStored)
    exact isOutcome

theorem answers_agree_competing : OneAnswer (runFrom (step .redis) {} competing) :=
  answers_agree .redis _ (reaches_runFrom .start orderly_competing)

end McpAssistant.Conversation.LinearContinuations
