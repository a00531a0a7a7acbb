import McpAssistant.BusinessQuery.PostgresAttempts
import McpAssistant.Foundations.Lockstep

/-!
# The attempt sinks agree

The sinks accept and refuse the same calls and hold the same entries, while no
entry that ended uncertainly is started again, no attempt has an empty id and
what is stored fits its columns.
-/

namespace McpAssistant.BusinessQuery.AttemptAgreement

open AppendOnlyJournal PlannerAttempts PostgresAttempts Foundations.Lockstep

variable {digests : Digests} {memory : InMemoryPlannerAttemptSink}
  {postgres : PostgresPlannerAttemptSink}

/-- A start finds no entry of an empty id under its key; one with its own digest
did not end uncertainly; and where the start is accepted, it fits. -/
def StartAllowed (digests : Digests) (postgres : PostgresPlannerAttemptSink)
    (start : PlannerAttemptStart) : Prop :=
  match postgres.started.keys start.idempotencyKey with
  | none => postgres.started.rows start.attemptId = none → StartFits start
  | some attemptId => attemptId ≠ "" ∧
      ∀ row, postgres.started.rows attemptId = some row →
        row.eventDigest = digests.start start → StartFits start ∧
          ∀ terminal, postgres.terminals.rows attemptId = some terminal →
            terminal.payload.terminalClass ≠ .completionUnknown

def ReclaimAllowed (postgres : PostgresPlannerAttemptSink)
    (attemptId owner : String) (now : Int) : Prop :=
  ∀ lease, postgres.leases attemptId = some lease →
    postgres.terminals.rows attemptId = none → lease.leaseExpiresAt ≤ now →
      LeaseFits owner (lease.leaseEpoch + 1)

def Allowed (digests : Digests) (postgres : PostgresPlannerAttemptSink) : AttemptCall → Prop
  | .start start => StartAllowed digests postgres start
  | .claimRecovery attemptId owner now _ =>
    ReclaimAllowed postgres attemptId owner now
  | .commitResponse _ _ _ => True
  | .finish _ _ _ => True

def responseRow (idempotencyKey : String) (response : PlannerAttemptResponse × String) :
    EventRow PlannerAttemptResponse :=
  ⟨idempotencyKey, response.2, response.1⟩

/-- The terminal's row, where an entry has ended. -/
def terminalRow (state : AttemptState) : Option (EventRow PlannerAttemptTerminal) :=
  match state.terminal, state.terminalDigest with
  | some terminal, some digest =>
    some ⟨state.start.idempotencyKey, digest, terminal⟩
  | _, _ => none

def leaseOf (state : AttemptState) : Lease :=
  ⟨state.leaseOwner, state.leaseEpoch, state.leaseExpiresAt⟩

/-- An entry of the process-local sink and its rows. -/
structure EntryAlike (digests : Digests) (attemptId : String)
    (memory : InMemoryPlannerAttemptSink) (postgres : PostgresPlannerAttemptSink)
    (state : AttemptState) : Prop where
  started : postgres.started.rows attemptId =
    some ⟨state.start.idempotencyKey, state.startDigest, state.start⟩
  response : postgres.responses.rows attemptId =
    (memory.responses attemptId).map (responseRow state.start.idempotencyKey)
  terminal : postgres.terminals.rows attemptId = terminalRow state
  lease : postgres.leases attemptId = some (leaseOf state)
  digested : state.terminal = none ↔ state.terminalDigest = none
  keyed : postgres.started.keys state.start.idempotencyKey = some attemptId

/-- An attempt that neither sink knows. -/
structure Unknown (attemptId : String)
    (memory : InMemoryPlannerAttemptSink) (postgres : PostgresPlannerAttemptSink) :
    Prop where
  started : postgres.started.rows attemptId = none
  response : postgres.responses.rows attemptId = none
  noResponse : memory.responses attemptId = none
  terminal : postgres.terminals.rows attemptId = none
  lease : postgres.leases attemptId = none

def KeysFollow {Payload : Type} (postgres : PostgresPlannerAttemptSink)
    (table : EventTable Payload) : Prop :=
  ∀ key attemptId, table.keys key = some attemptId →
    postgres.started.keys key = some attemptId ∧ table.rows attemptId ≠ none

structure Related (digests : Digests) (memory : InMemoryPlannerAttemptSink)
    (postgres : PostgresPlannerAttemptSink) : Prop where
  known : ∀ attemptId state, memory.attempts attemptId = some state →
    EntryAlike digests attemptId memory postgres state
  unknown : ∀ attemptId, memory.attempts attemptId = none → Unknown attemptId memory postgres
  keys : memory.idempotency = postgres.started.keys
  named : ∀ key attemptId, postgres.started.keys key = some attemptId →
    memory.attempts attemptId ≠ none
  responseKeys : KeysFollow postgres postgres.responses
  terminalKeys : KeysFollow postgres postgres.terminals

section Reading

variable {attemptId : String} {state : AttemptState}

theorem terminalRow_eq_none (alike : EntryAlike digests attemptId memory postgres
    state) : terminalRow state = none ↔ state.terminal = none := by
  unfold terminalRow
  cases isTerminal : state.terminal with
  | none => simp
  | some terminal =>
    cases isDigest : state.terminalDigest with
    | none =>
      have missing := alike.digested.mpr isDigest
      rw [isTerminal] at missing
      cases missing
    | some digest => simp

theorem terminal_of_row {row : EventRow PlannerAttemptTerminal}
    (found : terminalRow state = some row) :
    state.terminal = some row.payload ∧ state.terminalDigest = some row.eventDigest := by
  unfold terminalRow at found
  split at found
  · rename_i terminal digest isTerminal isDigest
    cases found
    exact ⟨isTerminal, isDigest⟩
  · cases found

/-- Both sinks tell the same of an entry. -/
theorem get_of_alike (alike : EntryAlike digests attemptId memory postgres state) :
    postgres.get attemptId = .ok
      { start := state.start
        startDigest := state.startDigest
        response := (memory.responses attemptId).map (·.1)
        responseDigest := (memory.responses attemptId).map (·.2)
        terminal := state.terminal
        terminalDigest := state.terminalDigest } := by
  have isTerminal : (terminalRow state).map (·.payload) = state.terminal := by
    cases found : terminalRow state with
    | none => exact ((terminalRow_eq_none alike).mp found).symm
    | some row => exact (terminal_of_row found).1.symm
  have isDigest : (terminalRow state).map (·.eventDigest) =
      state.terminalDigest := by
    cases found : terminalRow state with
    | none =>
      exact (alike.digested.mp ((terminalRow_eq_none alike).mp found)).symm
    | some row => exact (terminal_of_row found).2.symm
  rw [PostgresPlannerAttemptSink.get, alike.started]
  simp only [alike.response, alike.terminal, isTerminal, isDigest, Option.map_map]
  rfl

theorem get_of_unknown (unknown : Unknown attemptId memory postgres) :
    postgres.get attemptId = .error (.conflict "attempt not found") := by
  rw [PostgresPlannerAttemptSink.get, unknown.started]

end Reading

/-- What the sinks keep under one attempt's id. -/
structure SameAt (attemptId : String) (memory memory' : InMemoryPlannerAttemptSink)
    (postgres postgres' : PostgresPlannerAttemptSink) : Prop where
  started : postgres'.started.rows attemptId = postgres.started.rows attemptId
  response : postgres'.responses.rows attemptId = postgres.responses.rows attemptId
  inMemory : memory'.responses attemptId = memory.responses attemptId
  terminal : postgres'.terminals.rows attemptId = postgres.terminals.rows attemptId
  lease : postgres'.leases attemptId = postgres.leases attemptId

section Changes

variable {attemptId : String} {state next : AttemptState}
  {memory' : InMemoryPlannerAttemptSink} {postgres' : PostgresPlannerAttemptSink}

theorem EntryAlike.same (alike : EntryAlike digests attemptId memory postgres state)
    (same : SameAt attemptId memory memory' postgres postgres')
    (keyed : postgres'.started.keys state.start.idempotencyKey = some attemptId) :
    EntryAlike digests attemptId memory' postgres' state := by
  constructor
  · rw [same.started]
    exact alike.started
  · rw [same.response, same.inMemory]
    exact alike.response
  · rw [same.terminal]
    exact alike.terminal
  · rw [same.lease]
    exact alike.lease
  · exact alike.digested
  · exact keyed

theorem Unknown.same (unknown : Unknown attemptId memory postgres)
    (same : SameAt attemptId memory memory' postgres postgres') :
    Unknown attemptId memory' postgres' := by
  constructor
  · rw [same.started]
    exact unknown.started
  · rw [same.response]
    exact unknown.response
  · rw [same.inMemory]
    exact unknown.noResponse
  · rw [same.terminal]
    exact unknown.terminal
  · rw [same.lease]
    exact unknown.lease

/-- The sinks after one entry changed: they are alike there, and everything else
is as it was. -/
theorem Related.change (related : Related digests memory postgres)
    (attempts : memory'.attempts = Function.update memory.attempts attemptId (some next))
    (changed : EntryAlike digests attemptId memory' postgres' next)
    (others : ∀ other, other ≠ attemptId → SameAt other memory memory' postgres postgres')
    (idempotency : memory'.idempotency = postgres'.started.keys)
    (keys : ∀ key other, postgres.started.keys key = some other →
      postgres'.started.keys key = some other)
    (named : ∀ key other, postgres'.started.keys key = some other →
      other = attemptId ∨ postgres.started.keys key = some other)
    (responseKeys : KeysFollow postgres' postgres'.responses)
    (terminalKeys : KeysFollow postgres' postgres'.terminals) :
    Related digests memory' postgres' := by
  constructor
  · intro other state found
    rw [attempts] at found
    by_cases isChanged : other = attemptId
    · rw [isChanged, Function.update_self] at found
      cases found
      rw [isChanged]
      exact changed
    · rw [Function.update_of_ne isChanged] at found
      have alike := related.known other state found
      exact alike.same (others other isChanged) (keys state.start.idempotencyKey other alike.keyed)
  · intro other missing
    rw [attempts] at missing
    by_cases isChanged : other = attemptId
    · rw [isChanged, Function.update_self] at missing
      cases missing
    · rw [Function.update_of_ne isChanged] at missing
      exact (related.unknown other missing).same (others other isChanged)
  · exact idempotency
  · intro key other found
    rw [attempts]
    by_cases isChanged : other = attemptId
    · rw [isChanged, Function.update_self]
      nofun
    · rw [Function.update_of_ne isChanged]
      rcases named key other found with same | before
      · exact absurd same isChanged
      · exact related.named key other before
  · exact responseKeys
  · exact terminalKeys

theorem Related.setLease (related : Related digests memory postgres)
    (held : memory.attempts attemptId = some state)
    {owner : String} {epoch expires : Int} :
    Related digests
      (memory.setAttempt attemptId { state with
        leaseEpoch := epoch, leaseOwner := owner, leaseExpiresAt := expires })
      (postgres.setLease attemptId ⟨owner, epoch, expires⟩) := by
  have alike := related.known attemptId state held
  apply related.change rfl
  · constructor
    · exact alike.started
    · exact alike.response
    · exact alike.terminal
    · exact Function.update_self attemptId _ postgres.leases
    · exact alike.digested
    · exact alike.keyed
  · intro other apart
    exact ⟨rfl, rfl, rfl, rfl, Function.update_of_ne apart _ _⟩
  · exact related.keys
  · intro key other found
    exact found
  · intro key other found
    exact .inr found
  · exact related.responseKeys
  · exact related.terminalKeys

theorem KeysFollow.add {Payload : Type} {table : EventTable Payload}
    (follow : KeysFollow postgres table)
    (started : postgres'.started = postgres.started)
    {row : EventRow Payload}
    (keyed : postgres.started.keys row.idempotencyKey = some attemptId) :
    KeysFollow postgres' (table.add attemptId row) := by
  intro key other found
  have updated : Function.update table.keys row.idempotencyKey (some attemptId)
      key = some other := found
  show postgres'.started.keys key = some other ∧
    Function.update table.rows attemptId (some row) other ≠ none
  rw [started]
  by_cases isKey : key = row.idempotencyKey
  · rw [isKey, Function.update_self] at updated
    cases updated
    rw [isKey, Function.update_self]
    exact ⟨keyed, nofun⟩
  · rw [Function.update_of_ne isKey] at updated
    rcases follow key other updated with ⟨isStarted, isRow⟩
    constructor
    · exact isStarted
    · by_cases same : other = attemptId
      · rw [same, Function.update_self]
        nofun
      · rw [Function.update_of_ne same]
        exact isRow

theorem KeysFollow.free {Payload : Type} {table : EventTable Payload}
    (follow : KeysFollow postgres table) {key : String}
    (keyed : postgres.started.keys key = some attemptId)
    (first : table.rows attemptId = none) : table.keys key = none := by
  cases found : table.keys key with
  | none => rfl
  | some other =>
    rcases follow key other found with ⟨isStarted, isRow⟩
    rw [keyed] at isStarted
    cases isStarted
    exact absurd first isRow

variable (related : Related digests memory postgres)
include related

theorem Related.addResponse (held : memory.attempts attemptId = some state)
    (response : PlannerAttemptResponse × String) :
    Related digests (memory.setResponse attemptId response)
      { postgres with
        responses := postgres.responses.add attemptId
          (responseRow state.start.idempotencyKey response) } := by
  have alike := related.known attemptId state held
  have unchanged : (memory.setResponse attemptId response).attempts =
      Function.update memory.attempts attemptId (some state) := by
    show memory.attempts = _
    rw [← held, Function.update_eq_self]
  apply related.change unchanged
  · constructor
    · exact alike.started
    · show Function.update postgres.responses.rows attemptId _ attemptId =
        (Function.update memory.responses attemptId _ attemptId).map _
      rw [Function.update_self, Function.update_self]
      rfl
    · exact alike.terminal
    · exact alike.lease
    · exact alike.digested
    · exact alike.keyed
  · intro other apart
    exact ⟨rfl, Function.update_of_ne apart _ _, Function.update_of_ne apart _ _, rfl, rfl⟩
  · exact related.keys
  · intro key other found
    exact found
  · intro key other found
    exact .inr found
  · exact related.responseKeys.add rfl alike.keyed
  · exact related.terminalKeys

theorem Related.addTerminal (held : memory.attempts attemptId = some state)
    (terminal : PlannerAttemptTerminal) (digest : String) :
    Related digests
      (memory.setAttempt attemptId { state with
        terminal := some terminal, terminalDigest := some digest })
      { postgres with
        terminals := postgres.terminals.add attemptId
          ⟨state.start.idempotencyKey, digest, terminal⟩ } := by
  have alike := related.known attemptId state held
  apply related.change rfl
  · constructor
    · exact alike.started
    · exact alike.response
    · exact Function.update_self attemptId _ postgres.terminals.rows
    · exact alike.lease
    · exact ⟨nofun, nofun⟩
    · exact alike.keyed
  · intro other apart
    exact ⟨rfl, rfl, rfl, Function.update_of_ne apart _ _, rfl⟩
  · exact related.keys
  · intro key other found
    exact found
  · intro key other found
    exact .inr found
  · exact related.responseKeys
  · exact related.terminalKeys.add rfl alike.keyed

theorem Related.addStart {start : PlannerAttemptStart}
    (unkeyed : postgres.started.keys start.idempotencyKey = none)
    (unknown : memory.attempts start.attemptId = none) :
    Related digests ((memory.setAttempt start.attemptId
        (InMemoryPlannerAttemptSink.candidate digests start)).setIdempotency
          start.idempotencyKey start.attemptId)
      ({ postgres with
        started := postgres.started.add start.attemptId
          (PostgresPlannerAttemptSink.startRow digests start) }.setLease
            start.attemptId (PostgresPlannerAttemptSink.startLease start)) := by
  have missing := related.unknown start.attemptId unknown
  have keys : ∀ key other, postgres.started.keys key = some other →
      Function.update postgres.started.keys start.idempotencyKey
        (some start.attemptId) key = some other := by
    intro key other found
    by_cases isKey : key = start.idempotencyKey
    · rw [isKey, unkeyed] at found
      cases found
    · rw [Function.update_of_ne isKey]
      exact found
  have follow : ∀ {Payload : Type} {table : EventTable Payload},
      KeysFollow postgres table → ∀ key other, table.keys key = some other →
        Function.update postgres.started.keys start.idempotencyKey
          (some start.attemptId) key = some other ∧ table.rows other ≠ none := by
    intro Payload table follow key other found
    rcases follow key other found with ⟨isStarted, isRow⟩
    exact ⟨keys key other isStarted, isRow⟩
  apply related.change rfl
  · constructor
    · exact Function.update_self start.attemptId _ postgres.started.rows
    · show postgres.responses.rows start.attemptId = (memory.responses start.attemptId).map _
      rw [missing.response, missing.noResponse]
      rfl
    · exact missing.terminal
    · exact Function.update_self start.attemptId _ postgres.leases
    · exact ⟨fun _ => rfl, fun _ => rfl⟩
    · exact Function.update_self start.idempotencyKey _ postgres.started.keys
  · intro other apart
    exact ⟨Function.update_of_ne apart _ _, rfl, rfl, rfl, Function.update_of_ne apart _ _⟩
  · show Function.update memory.idempotency _ _ = Function.update postgres.started.keys _ _
    rw [related.keys]
    rfl
  · exact keys
  · intro key other found
    have updated : Function.update postgres.started.keys start.idempotencyKey
        (some start.attemptId) key = some other := found
    by_cases isKey : key = start.idempotencyKey
    · rw [isKey, Function.update_self] at updated
      cases updated
      exact .inl rfl
    · rw [Function.update_of_ne isKey] at updated
      exact .inr updated
  · exact follow related.responseKeys
  · exact follow related.terminalKeys

end Changes

/-! ## One call -/

structure CallAlike (digests : Digests)
    (memory : InMemoryPlannerAttemptSink × Except Conflict Returned)
    (postgres : PostgresPlannerAttemptSink × Except Refusal Returned) : Prop where
  returned : memory.2.toOption = postgres.2.toOption
  related : Related digests memory.1 postgres.1

theorem CallAlike.refused (related : Related digests memory postgres)
    {conflict : Conflict} {refusal : Refusal} :
    CallAlike digests (memory, .error conflict) (postgres, .error refusal) :=
  ⟨rfl, related⟩

theorem CallAlike.same (related : Related digests memory postgres) (returned : Returned) :
    CallAlike digests (memory, .ok returned) (postgres, .ok returned) :=
  ⟨rfl, related⟩

section Calls

variable {start : PlannerAttemptStart} {attemptId : String} {state : AttemptState}

open InMemoryPlannerAttemptSink (existingByIdempotencyKey candidate Uncertain)

theorem start_refused (related : Related digests memory postgres) {conflict : Conflict}
    (inMemory : memory.start digests start = (memory, .error conflict))
    (inPostgres : ∃ refusal, postgres.start digests start = (postgres, .error refusal)) :
    CallAlike digests (memory.start digests start) (postgres.start digests start) := by
  rcases inPostgres with ⟨refusal, isRefused⟩
  rw [inMemory, isRefused]
  exact .refused related

theorem not_uncertain_none {P : AttemptState → Prop} :
    ¬∃ existing ∈ (none : Option AttemptState), P existing := by
  rintro ⟨existing, found, _⟩
  cases found

variable (related : Related digests memory postgres)
include related

/-- A start under a key that neither sink knows. -/
theorem alike_start_new (unkeyed : postgres.started.keys start.idempotencyKey = none)
    (fits : postgres.started.rows start.attemptId = none → StartFits start) :
    CallAlike digests (memory.start digests start) (postgres.start digests start) := by
  have noPrior : memory.idempotency start.idempotencyKey = none := by
    rw [related.keys]
    exact unkeyed
  have noExisting : memory.existingByIdempotencyKey start = none := by
    rw [existingByIdempotencyKey, noPrior]
  cases found : memory.attempts start.attemptId with
  | some state =>
    have alike := related.known start.attemptId state found
    have inMemory : memory.start digests start =
        (memory, .error "entry id already exists") := by
      rw [InMemoryPlannerAttemptSink.start, noExisting, if_neg not_uncertain_none, found]
      rfl
    apply start_refused related inMemory
    by_cases isFit : StartFits start
    · refine ⟨.database, ?_⟩
      have violated : postgres.started.insertOnKey start.attemptId
          (PostgresPlannerAttemptSink.startRow digests start) = .uniqueViolation := by
        rw [EventTable.insertOnKey]
        simp only [PostgresPlannerAttemptSink.startRow, unkeyed, alike.started]
      rw [PostgresPlannerAttemptSink.start, if_neg (not_not.mpr isFit), violated]
    · refine ⟨.database, ?_⟩
      rw [PostgresPlannerAttemptSink.start, if_pos isFit]
  | none =>
    have missing := related.unknown start.attemptId found
    have inMemory : memory.start digests start = ((memory.setAttempt start.attemptId
          (candidate digests start)).setIdempotency start.idempotencyKey
            start.attemptId, .ok (.attemptId start.attemptId)) := by
      rw [InMemoryPlannerAttemptSink.start, noExisting, if_neg not_uncertain_none, found]
      simp only [startEntry, noPrior]
    have inserted : postgres.started.insertOnKey start.attemptId
        (PostgresPlannerAttemptSink.startRow digests start) =
          .inserted (postgres.started.add start.attemptId
            (PostgresPlannerAttemptSink.startRow digests start)) := by
      rw [EventTable.insertOnKey]
      simp only [PostgresPlannerAttemptSink.startRow, unkeyed, missing.started]
    have committed : ({ postgres with
        started := postgres.started.add start.attemptId
          (PostgresPlannerAttemptSink.startRow digests start) }).startCommitted digests start =
        (({ postgres with
          started := postgres.started.add start.attemptId
            (PostgresPlannerAttemptSink.startRow digests start) }).setLease
              start.attemptId (PostgresPlannerAttemptSink.startLease start),
          .ok (.attemptId start.attemptId)) := by
      rw [PostgresPlannerAttemptSink.startCommitted]
      simp only [EventTable.add, PostgresPlannerAttemptSink.startRow,
        Function.update_self, ne_eq, not_true_eq_false, if_false,
        PostgresPlannerAttemptSink.insertLease, missing.lease]
    rw [inMemory, PostgresPlannerAttemptSink.start,
      if_neg (not_not.mpr (fits missing.started)), inserted]
    simp only [committed]
    exact ⟨rfl, related.addStart unkeyed found⟩

theorem alike_start_known (keyed : postgres.started.keys start.idempotencyKey = some attemptId)
    (named : attemptId ≠ "")
    (allowed : ∀ row, postgres.started.rows attemptId = some row →
      row.eventDigest = digests.start start → StartFits start ∧
        ∀ terminal, postgres.terminals.rows attemptId = some terminal →
          terminal.payload.terminalClass ≠ .completionUnknown) :
    CallAlike digests (memory.start digests start) (postgres.start digests start) := by
  have prior : memory.idempotency start.idempotencyKey = some attemptId := by
    rw [related.keys]
    exact keyed
  cases found : memory.attempts attemptId with
  | none => exact absurd found (related.named _ attemptId keyed)
  | some state =>
    have alike := related.known attemptId state found
    have existing : memory.existingByIdempotencyKey start = some state := by
      rw [existingByIdempotencyKey, prior]
      simp only [if_neg named, found]
    have conflicts : postgres.started.insertOnKey start.attemptId
        (PostgresPlannerAttemptSink.startRow digests start) = .conflict := by
      rw [EventTable.insertOnKey]
      simp only [PostgresPlannerAttemptSink.startRow, keyed]
    by_cases sameDigest : state.startDigest = digests.start start
    · rcases allowed _ alike.started sameDigest with ⟨fits, certain⟩
      have notUncertain : ¬∃ existing ∈ some state, Uncertain existing := by
        rintro ⟨_, isState, terminal, isTerminal, unknown⟩
        cases isState
        cases isRow : terminalRow state with
        | none =>
          rw [(terminalRow_eq_none alike).mp isRow] at isTerminal
          cases isTerminal
        | some row =>
          have ended := (terminal_of_row isRow).1
          rw [isTerminal] at ended
          cases ended
          exact certain row (alike.terminal.trans isRow) unknown
      have inMemory : memory.start digests start = (memory, .ok (.attemptId attemptId)) := by
        rw [InMemoryPlannerAttemptSink.start, existing, if_neg notUncertain]
        simp only [startEntry, candidate, sameDigest, ne_eq, not_true_eq_false, if_false, prior]
      have inPostgres : postgres.start digests start = (postgres, .ok (.attemptId attemptId)) := by
        rw [PostgresPlannerAttemptSink.start, if_neg (not_not.mpr fits), conflicts]
        simp only [PostgresPlannerAttemptSink.startCommitted, keyed,
          alike.started, sameDigest, ne_eq, not_true_eq_false, if_false,
          PostgresPlannerAttemptSink.insertLease, alike.lease]
      rw [inMemory, inPostgres]
      exact .same related _
    · have inMemory : ∃ conflict, memory.start digests start = (memory, .error conflict) := by
        rw [InMemoryPlannerAttemptSink.start, existing]
        split
        · exact ⟨_, rfl⟩
        · refine ⟨"start idempotency digest mismatch", ?_⟩
          simp only [startEntry, candidate, ne_eq, sameDigest, not_false_eq_true, if_true]
      have inPostgres : ∃ refusal, postgres.start digests start = (postgres, .error refusal) := by
        rw [PostgresPlannerAttemptSink.start]
        split
        · exact ⟨_, rfl⟩
        · refine ⟨.conflict "attempt idempotency digest mismatch", ?_⟩
          rw [conflicts]
          simp only [PostgresPlannerAttemptSink.startCommitted, keyed,
            alike.started, ne_eq, sameDigest, not_false_eq_true, if_true]
      rcases inMemory with ⟨conflict, isRefused⟩
      exact start_refused related isRefused inPostgres

theorem alike_start (allowed : StartAllowed digests postgres start) :
    CallAlike digests (memory.start digests start) (postgres.start digests start) := by
  cases keyed : postgres.started.keys start.idempotencyKey with
  | none =>
    rw [StartAllowed, keyed] at allowed
    exact alike_start_new related keyed allowed
  | some attemptId =>
    rw [StartAllowed, keyed] at allowed
    exact alike_start_known related keyed allowed.1 allowed.2

omit related

theorem required_some (found : memory.attempts attemptId = some state) :
    memory.required attemptId = .ok state := by
  rw [InMemoryPlannerAttemptSink.required, found]
  rfl

theorem required_none (missing : memory.attempts attemptId = none) :
    memory.required attemptId = .error "attempt not found" := by
  rw [InMemoryPlannerAttemptSink.required, missing]
  rfl

theorem append_unknown (unknown : Unknown attemptId memory postgres)
    (epoch : Int) (appended : Appended) :
    postgres.append digests attemptId epoch appended =
      (postgres, .error (.conflict "attempt stale lease epoch")) := by
  rw [PostgresPlannerAttemptSink.append, unknown.lease]

theorem append_stale (alike : EntryAlike digests attemptId memory postgres state)
    {epoch : Int} (stale : state.leaseEpoch ≠ epoch) (appended : Appended) :
    postgres.append digests attemptId epoch appended =
      (postgres, .error (.conflict "attempt stale lease epoch")) := by
  rw [PostgresPlannerAttemptSink.append, alike.lease]
  exact if_pos stale

/-- What both sinks tell of an entry. -/
def journalOf (memory : InMemoryPlannerAttemptSink) (attemptId : String)
    (state : AttemptState) : PlannerAttemptJournal where
  start := state.start
  startDigest := state.startDigest
  response := (memory.responses attemptId).map (·.1)
  responseDigest := (memory.responses attemptId).map (·.2)
  terminal := state.terminal
  terminalDigest := state.terminalDigest

theorem append_current (alike : EntryAlike digests attemptId memory postgres state)
    (appended : Appended) :
    postgres.append digests attemptId state.leaseEpoch appended =
      postgres.appendTo digests attemptId (journalOf memory attemptId state) appended := by
  have isJournal : postgres.get attemptId =
      .ok (journalOf memory attemptId state) := get_of_alike alike
  rw [PostgresPlannerAttemptSink.append, alike.lease]
  simp only [leaseOf, ne_eq, not_true_eq_false, if_false, isJournal]

variable (related : Related digests memory postgres)
include related

theorem insertResponse_first (alike : EntryAlike digests attemptId memory postgres state)
    (first : memory.responses attemptId = none)
    (response : PlannerAttemptResponse) :
    postgres.insertResponse digests attemptId state.start.idempotencyKey response =
      ({ postgres with
        responses := postgres.responses.add attemptId (responseRow state.start.idempotencyKey
            (response, digests.response response)) }, .ok .done) := by
  have noRow : postgres.responses.rows attemptId = none := by
    rw [alike.response, first]
    rfl
  have free := related.responseKeys.free alike.keyed noRow
  rw [PostgresPlannerAttemptSink.insertResponse, EventTable.insertOnAttempt]
  simp only [noRow, free]
  rfl

theorem insertTerminal_first (alike : EntryAlike digests attemptId memory postgres state)
    (isOpen : state.terminal = none) (terminal : PlannerAttemptTerminal) :
    postgres.insertTerminal digests attemptId state.start.idempotencyKey terminal =
      ({ postgres with
        terminals := postgres.terminals.add attemptId
          ⟨state.start.idempotencyKey, digests.terminal terminal, terminal⟩ },
        .ok .done) := by
  have noRow : postgres.terminals.rows attemptId = none := by
    rw [alike.terminal]
    exact (terminalRow_eq_none alike).mpr isOpen
  have free := related.terminalKeys.free alike.keyed noRow
  rw [PostgresPlannerAttemptSink.insertTerminal, EventTable.insertOnAttempt]
  simp only [noRow, free]

theorem alike_commitResponse
    (attemptId : String) (epoch : Int) (response : PlannerAttemptResponse) :
    CallAlike digests (memory.commitResponse digests attemptId epoch response)
      (postgres.append digests attemptId epoch (.responseCommitted response)) := by
  rw [InMemoryPlannerAttemptSink.commitResponse]
  cases found : memory.attempts attemptId with
  | none =>
    rw [required_none found, append_unknown (related.unknown attemptId found)]
    exact .refused related
  | some state =>
    have alike := related.known attemptId state found
    rw [required_some found]
    by_cases current : state.leaseEpoch = epoch
    · rw [← current, append_current alike]
      simp only [checkLeaseEpoch_eq_ok.mpr rfl]
      rw [PostgresPlannerAttemptSink.appendTo]
      by_cases isOpen : state.terminal = none
      · have noTerminal : ¬(journalOf memory attemptId state).terminal ≠ none :=
          not_not.mpr isOpen
        simp only [if_neg (not_not.mpr isOpen), if_neg noTerminal]
        cases responded : memory.responses attemptId with
        | none =>
          have noResponse : ¬(journalOf memory attemptId state).response ≠ none := by
            rw [journalOf, responded]
            exact fun some => some rfl
          rw [if_neg noResponse]
          have inserted := insertResponse_first related alike responded response
          rw [show (journalOf memory attemptId state).start.idempotencyKey =
            state.start.idempotencyKey from rfl, inserted]
          exact ⟨rfl, related.addResponse found _⟩
        | some existing =>
          have isResponse : (journalOf memory attemptId state).response ≠ none := by
            rw [journalOf, responded]
            nofun
          have isDigest : (journalOf memory attemptId state).responseDigest = some existing.2 := by
            rw [journalOf, responded]
            rfl
          rw [if_pos isResponse, isDigest]
          by_cases sameDigest : existing.2 = digests.response response
          · simp only [sameDigest, ne_eq, not_true_eq_false, if_false, if_true]
            exact .same related .done
          · simp only [ne_eq, sameDigest, not_false_eq_true, if_true, Option.some.injEq, if_false]
            exact .refused related
      · have isTerminal : (journalOf memory attemptId state).terminal ≠ none :=
          isOpen
        simp only [if_pos isTerminal, ne_eq, isOpen, not_false_eq_true, if_true]
        exact .refused related
    · rw [append_stale alike current]
      simp only [checkLeaseEpoch_of_ne current]
      exact .refused related

omit related

theorem finishConflict_of_open (isOpen : state.terminal = none)
    (terminal : PlannerAttemptTerminal) :
    InMemoryPlannerAttemptSink.finishConflict state (memory.responses attemptId) terminal =
      PostgresPlannerAttemptSink.terminalConflict (journalOf memory attemptId state) terminal := by
  have sameResponse : (journalOf memory attemptId state).response = none ↔
      memory.responses attemptId = none := Option.map_eq_none_iff
  rw [InMemoryPlannerAttemptSink.finishConflict, if_neg (not_not.mpr isOpen),
    PostgresPlannerAttemptSink.terminalConflict]
  simp only [ne_eq, sameResponse]

variable (related : Related digests memory postgres)
include related

theorem alike_finish (attemptId : String) (epoch : Int) (terminal : PlannerAttemptTerminal) :
    CallAlike digests (memory.finish digests attemptId epoch terminal)
      (postgres.append digests attemptId epoch (.terminal terminal)) := by
  rw [InMemoryPlannerAttemptSink.finish]
  cases found : memory.attempts attemptId with
  | none =>
    rw [required_none found, append_unknown (related.unknown attemptId found)]
    exact .refused related
  | some state =>
    have alike := related.known attemptId state found
    rw [required_some found]
    by_cases current : state.leaseEpoch = epoch
    · rw [← current, append_current alike]
      simp only [checkLeaseEpoch_eq_ok.mpr rfl]
      rw [PostgresPlannerAttemptSink.appendTo]
      cases ended : state.terminal with
      | none =>
        have noTerminal : ¬(journalOf memory attemptId state).terminal ≠ none := not_not.mpr ended
        rw [if_neg noTerminal, @finishConflict_of_open memory attemptId state ended terminal]
        cases PostgresPlannerAttemptSink.terminalConflict
          (journalOf memory attemptId state) terminal with
        | some conflict => exact .refused related
        | none =>
          have committed : commitTerminal state state.leaseEpoch terminal
              (digests.terminal terminal) = .ok { state with
                terminal := some terminal
                terminalDigest := some (digests.terminal terminal) } := by
            rw [commitTerminal, checkLeaseEpoch_eq_ok.mpr rfl]
            simp only [ended]
          have inserted := insertTerminal_first related alike ended terminal
          simp only [committed]
          rw [show (journalOf memory attemptId state).start.idempotencyKey =
            state.start.idempotencyKey from rfl, inserted]
          exact ⟨rfl, related.addTerminal found terminal _⟩
      | some existing =>
        have isTerminal : (journalOf memory attemptId state).terminal ≠ none :=
          by
            rw [journalOf, ended]
            nofun
        have noConflict : InMemoryPlannerAttemptSink.finishConflict state
            (memory.responses attemptId) terminal = none := by
          rw [InMemoryPlannerAttemptSink.finishConflict, ended]
          rfl
        rw [if_pos isTerminal, noConflict, commitTerminal, checkLeaseEpoch_eq_ok.mpr rfl, ended]
        by_cases sameDigest : state.terminalDigest = some (digests.terminal terminal)
        · have isDigest : (journalOf memory attemptId state).terminalDigest =
              some (digests.terminal terminal) := sameDigest
          have unchanged : memory.setAttempt attemptId state = memory := by
            rw [InMemoryPlannerAttemptSink.setAttempt, ← found, Function.update_eq_self]
          simp only [ne_eq, sameDigest, not_true_eq_false, if_false, if_pos isDigest, unchanged]
          exact .same related .done
        · have otherDigest : ¬(journalOf memory attemptId
              state).terminalDigest = some (digests.terminal terminal) :=
            sameDigest
          simp only [ne_eq, sameDigest, not_false_eq_true, if_true, if_neg otherDigest]
          exact .refused related
    · rw [append_stale alike current]
      simp only [checkLeaseEpoch_of_ne current]
      exact .refused related

theorem alike_claimRecovery {owner : String} {now : Int}
    (allowed : ReclaimAllowed postgres attemptId owner now)
    (leaseExpiresAt : Int) :
    CallAlike digests (memory.claimRecovery attemptId owner now leaseExpiresAt)
      (postgres.claimRecovery attemptId owner now leaseExpiresAt) := by
  rw [InMemoryPlannerAttemptSink.claimRecovery, PostgresPlannerAttemptSink.claimRecovery]
  cases found : memory.attempts attemptId with
  | none =>
    rw [required_none found, (related.unknown attemptId found).lease]
    exact .refused related
  | some state =>
    have alike := related.known attemptId state found
    have isJournal : postgres.get attemptId =
        .ok (journalOf memory attemptId state) := get_of_alike alike
    have lease : postgres.leases attemptId = some
        ⟨state.leaseOwner, state.leaseEpoch, state.leaseExpiresAt⟩ :=
      alike.lease
    rw [required_some found, lease, isJournal]
    dsimp only
    cases ended : state.terminal with
    | some existing =>
      have isTerminal : (journalOf memory attemptId state).terminal ≠ none := by
        rw [journalOf, ended]
        nofun
      have refused : reclaimLease state now owner leaseExpiresAt =
          .error "terminal already committed" := by
        rw [reclaimLease, ended]
      rw [if_pos isTerminal, refused]
      exact .refused related
    | none =>
      have noTerminal : ¬(journalOf memory attemptId state).terminal ≠ none := not_not.mpr ended
      rw [if_neg noTerminal]
      by_cases active : now < state.leaseExpiresAt
      · have refused : reclaimLease state now owner leaseExpiresAt =
            .error "lease is active" := by
          rw [reclaimLease, ended]
          exact if_pos active
        rw [if_pos active, refused]
        exact .refused related
      · have noRow : postgres.terminals.rows attemptId = none := by
          rw [alike.terminal]
          exact (terminalRow_eq_none alike).mpr ended
        have fits : LeaseFits owner (state.leaseEpoch + 1) :=
          allowed _ lease noRow (Int.not_lt.mp active)
        have reclaimed : reclaimLease state now owner leaseExpiresAt =
            .ok { state with
              leaseEpoch := state.leaseEpoch + 1
              leaseOwner := owner
              leaseExpiresAt := leaseExpiresAt } := by
          rw [reclaimLease, ended]
          exact if_neg active
        rw [if_neg active, if_neg (not_not.mpr fits), reclaimed]
        exact ⟨rfl, related.setLease found⟩

theorem alike_call {made : AttemptCall} (allowed : Allowed digests postgres made) :
    CallAlike digests (InMemoryPlannerAttemptSink.call digests made memory)
      (PostgresPlannerAttemptSink.call digests made postgres) := by
  cases made with
  | start start => exact alike_start related allowed
  | commitResponse attemptId epoch response =>
    exact alike_commitResponse related attemptId epoch response
  | finish attemptId epoch terminal =>
    exact alike_finish related attemptId epoch terminal
  | claimRecovery attemptId owner now leaseExpiresAt =>
    exact alike_claimRecovery related allowed leaseExpiresAt

end Calls

/-- A call of the process-local sink, and what it returns where it accepts. -/
def memoryStep (digests : Digests) (made : AttemptCall) (sink : InMemoryPlannerAttemptSink) :
    InMemoryPlannerAttemptSink × Option Returned :=
  ((InMemoryPlannerAttemptSink.call digests made sink).1,
    (InMemoryPlannerAttemptSink.call digests made sink).2.toOption)

def postgresStep (digests : Digests) (made : AttemptCall) (sink : PostgresPlannerAttemptSink) :
    PostgresPlannerAttemptSink × Option Returned :=
  ((PostgresPlannerAttemptSink.call digests made sink).1,
    (PostgresPlannerAttemptSink.call digests made sink).2.toOption)

structure SameEntry (memory : InMemoryPlannerAttemptSink)
    (postgres : PostgresPlannerAttemptSink) (attemptId : String) : Prop where
  journal : (memory.get attemptId).toOption = (postgres.get attemptId).toOption
  lease : (memory.attempts attemptId).map leaseOf = postgres.leases attemptId

theorem Related.sameEntry (related : Related digests memory postgres)
    (attemptId : String) : SameEntry memory postgres attemptId := by
  cases found : memory.attempts attemptId with
  | none =>
    have unknown := related.unknown attemptId found
    constructor
    · rw [InMemoryPlannerAttemptSink.get, required_none found, get_of_unknown unknown]
      rfl
    · rw [found, unknown.lease]
      rfl
  | some state =>
    have alike := related.known attemptId state found
    constructor
    · rw [InMemoryPlannerAttemptSink.get, required_some found, get_of_alike alike]
      rfl
    · rw [found, alike.lease]
      rfl

theorem related_start (digests : Digests) : Related digests {} {} := by
  constructor
  · intro attemptId state found
    cases found
  · intro attemptId _
    exact ⟨rfl, rfl, rfl, rfl, rfl⟩
  · rfl
  · intro key attemptId found
    cases found
  · intro key attemptId found
    cases found
  · intro key attemptId found
    cases found

/-- Over every sequence of such calls, both sinks accept and refuse the same
calls and hold the same entries. -/
theorem planner_attempt_sinks_agree (digests : Digests) (calls : List AttemptCall)
    (met : Met (postgresStep digests) (Allowed digests) {} calls) :
    outputs (memoryStep digests) {} calls = outputs (postgresStep digests) {} calls ∧
      ∀ attemptId, SameEntry (after (memoryStep digests) {} calls)
        (after (postgresStep digests) {} calls) attemptId := by
  have alike := @alike_runs _ _ _ _ (memoryStep digests) (postgresStep digests)
    (Related digests) (Allowed digests)
    (fun _ _ _ related allowed =>
      have called := alike_call related allowed
      ⟨called.returned, called.related⟩) _ _ (related_start digests) _ met
  exact ⟨alike.1, alike.2.sameEntry⟩

def sampleDigests : Digests where
  start start := start.attemptId ++ start.idempotencyKey
  response response := response.responseDigest
  terminal terminal := if terminal.terminalClass = .cancelled then "cancelled"
    else "other"

def sampleStart : PlannerAttemptStart where
  attemptId := "attempt"
  idempotencyKey := "run:case:0:0"
  projectId := "project"
  runEpoch := "run"
  caseId := "case"
  repeatIndex := 0
  plannerCallIndex := 0
  leaseOwner := "first"
  leaseEpoch := 1
  leaseExpiresAt := 10
  startedAt := 0
  provider := "provider"
  deployment := "deployment"
  outputMode := "json"
  firstEpoch := by decide
  stableIdentity := by decide +kernel
  liveLease := by decide

def sampleTerminal (code : PlannerTerminalCode) : PlannerAttemptTerminal where
  terminalClass := code.expectedClass
  terminalCode := code
  durationMs := 5
  finishedAt := 20
  codeMatchesClass := rfl

/-- A second writer reclaims the lease; the first is refused, the second
ends the attempt. -/
def recovered : List AttemptCall :=
  [.start sampleStart, .claimRecovery "attempt" "second" 15 30,
    .finish "attempt" 1 (sampleTerminal .plannerTimeout),
    .finish "attempt" 2 (sampleTerminal .plannerCancelled)]

theorem met_recovered : Met (postgresStep sampleDigests) (Allowed sampleDigests) {} recovered := by
  refine ⟨?_, ?_, trivial, trivial, trivial⟩
  · intro _
    decide +kernel
  · intro lease found _ _
    have isLease : (postgresStep sampleDigests (.start sampleStart) {}).1.leases
        "attempt" = some ⟨"first", 1, 10⟩ := by
      decide +kernel
    rw [isLease] at found
    cases found
    decide +kernel

theorem planner_attempt_sinks_agree_recovered : outputs (postgresStep sampleDigests) {} recovered =
        [some (.attemptId "attempt"), some (.leaseEpoch 2), none, some .done] ∧
      outputs (memoryStep sampleDigests) {} recovered =
        outputs (postgresStep sampleDigests) {} recovered ∧
      ∀ attemptId, SameEntry (after (memoryStep sampleDigests) {} recovered)
        (after (postgresStep sampleDigests) {} recovered) attemptId :=
  ⟨by decide +kernel, planner_attempt_sinks_agree sampleDigests recovered met_recovered⟩

/-- An attempt that ended uncertainly is started again. -/
def restarted : List AttemptCall :=
  [.start sampleStart, .finish "attempt" 1 (sampleTerminal .completionUnknown), .start sampleStart]

/-- Postgres accepts the second start. -/
theorem planner_attempt_sinks_differ : outputs (memoryStep sampleDigests) {} restarted =
        [some (.attemptId "attempt"), some .done, none] ∧
      outputs (postgresStep sampleDigests) {} restarted =
        [some (.attemptId "attempt"), some .done, some (.attemptId "attempt")] := by
  decide +kernel

end McpAssistant.BusinessQuery.AttemptAgreement
