import McpAssistant.BusinessQuery.SealedAnswers

/-!
# Durable evidence

Every answer of a planned run has its event in the store, whatever the store
fails to do.  A page has one exactly when its append took hold, or when the
store already held its rows under its id.
-/

namespace McpAssistant.BusinessQuery.DurableEvidence

open Scopes ValueResolution PlannedExecution EvidenceSealing SealedAnswers
  Foundations Foundations.Fallible

/-- The store holds these rows under this id. -/
def StandsFor (events : List ExecutionEvent) (id : String) (rows : List ResultRow) : Prop :=
  ∃ event, storedEvent events id = some event ∧ event.resultRows = rows

inductive Shows : Answered → String → List ResultRow → Prop where
  | own (answered : Answered) : Shows answered answered.answerQueryId answered.rows
  | companion {answered companion : Answered} {id : String}
      {rows : List ResultRow} (member : companion ∈ answered.companionAnswered)
      (shown : Shows companion id rows) : Shows answered id rows

def Evidenced (events : List ExecutionEvent) (answered : Answered) : Prop :=
  ∀ id rows, Shows answered id rows → StandsFor events id rows

def Separates {Digest : Type} (digest : ExecutionEvent → Digest) : Prop :=
  ∀ first second, digest first = digest second → first.resultRows = second.resultRows

section Evidence

variable {events later : List ExecutionEvent}

theorem StandsFor.mono {id : String} {rows : List ResultRow}
    (grown : KeyedLog.Extends eventId events later)
    (stands : StandsFor events id rows) : StandsFor later id rows := by
  rcases stands with ⟨event, held, same⟩
  exact ⟨event, grown id event held, same⟩

theorem Evidenced.mono {answered : Answered} (grown : KeyedLog.Extends eventId events later)
    (evidenced : Evidenced events answered) : Evidenced later answered :=
  fun id rows shown => (evidenced id rows shown).mono grown

theorem evidenced_iff {answered : Answered} : Evidenced events answered ↔
      StandsFor events answered.answerQueryId answered.rows ∧
        ∀ companion ∈ answered.companionAnswered, Evidenced events companion := by
  constructor
  · intro evidenced
    constructor
    · exact evidenced _ _ (.own answered)
    · intro companion member id rows shown
      exact evidenced id rows (.companion member shown)
  · rintro ⟨own, beside⟩ id rows shown
    cases shown with
    | own => exact own
    | companion member shown => exact beside _ member id rows shown

theorem evidenced_composeAnswers {primary : Answered} {others : List Answered}
    (first : Evidenced events primary)
    (rest : ∀ answered ∈ others, Evidenced events answered) :
    Evidenced events (composeAnswers primary others) := by
  rw [evidenced_iff] at first
  rw [evidenced_iff]
  constructor
  · exact first.1
  · intro companion member
    rcases List.mem_append.mp member with beside | after
    · exact first.2 companion beside
    · rcases List.mem_flatMap.mp after with ⟨answered, isOther, among⟩
      have parts := evidenced_iff.mp (rest answered isOther)
      rcases List.mem_cons.mp among with rfl | beside
      · rw [evidenced_iff]
        constructor
        · exact parts.1
        · intro companion absent
          cases absent
      · exact parts.2 companion beside

end Evidence

variable {event : ExecutionEvent}

theorem createEvent_eq_ok {fields : EventFields} (created : createEvent fields = .ok event) :
    event.toEventFields = fields := by
  rw [createEvent] at created
  split at created
  · cases created
  · split at created
    · cases created
      rfl
    · cases created

variable {id : String} {details : List RecordDetail} {facts : AdapterExecutionEvidence}
  {scope : ScopedPlan} {retentionAt : Int}

theorem eventFields_eq_ok {project : String} {root manifestHash : Option String}
    {fields : EventFields}
    (built : eventFields id root project details facts scope manifestHash
      retentionAt = .ok fields) :
    fields.answerQueryId = id ∧ fields.resultRows = facts.resultRows := by
  simp only [eventFields, bind_eq_ok, pure_eq_ok] at built
  rcases built with ⟨_, _, _, _, rfl⟩
  exact ⟨rfl, rfl⟩

theorem executionEvent_eq_ok {context : SealContext}
    (created : executionEvent context scope id facts details = .ok event) :
    event.answerQueryId = id ∧ event.resultRows = facts.resultRows := by
  simp only [executionEvent, bind_eq_ok] at created
  rcases created with ⟨_, _, fields, built, created⟩
  rw [createEvent_eq_ok created]
  exact eventFields_eq_ok built

theorem pageExecutionEvent_eq_ok {manifestHash : Option String} {cursor : PageCursor}
    (created : pageExecutionEvent id facts scope manifestHash cursor retentionAt = .ok event) :
    event.answerQueryId = id ∧ event.resultRows = facts.resultRows := by
  simp only [pageExecutionEvent, bind_eq_ok] at created
  rcases created with ⟨fields, built, created⟩
  rw [createEvent_eq_ok created]
  exact eventFields_eq_ok built

section Runs

variable {Digest : Type} [DecidableEq Digest] {digest : ExecutionEvent → Digest}
  {sha256Hex : String → String} {port : EventStorePort}
  {events : List ExecutionEvent} {event : ExecutionEvent}

theorem appendEvent_eq_ok (separates : Separates digest) {after : List ExecutionEvent}
    (appended : appendEvent digest port events event = .ok after) :
    KeyedLog.Extends eventId events after ∧
      StandsFor after event.answerQueryId event.resultRows := by
  rw [appendEvent, bind_eq_ok] at appended
  rcases appended with ⟨⟨⟩, -, stored⟩
  cases held : storedEvent events event.answerQueryId with
  | none =>
    rw [held] at stored
    cases stored
    constructor
    · exact KeyedLog.extends_insert events event
    · refine ⟨event, ?_, rfl⟩
      have found : storedEvent (KeyedLog.insert eventId events event) event.answerQueryId =
            some ((storedEvent events event.answerQueryId).getD event) :=
        KeyedLog.lookup_insert events event
      rw [found, held]
      rfl
  | some other =>
    rw [held] at stored
    dsimp only at stored
    split at stored
    · rename_i same
      cases stored
      exact ⟨KeyedLog.Extends.refl events, other, held, separates other event same⟩
    · cases stored

/-- No append takes anything from the store. -/
theorem extends_commitEvent (separates : Separates digest)
    (event : Except String ExecutionEvent) (journal : Journal) :
    KeyedLog.Extends eventId journal.events (commitEvent digest port event journal).1.events := by
  cases event with
  | error message => exact KeyedLog.Extends.refl journal.events
  | ok event =>
    rw [commitEvent]
    cases appended : appendEvent digest port journal.events event with
    | error message => exact KeyedLog.Extends.refl journal.events
    | ok events =>
      have grown := (appendEvent_eq_ok separates appended).1
      cases port.delivery journal.appends with
      | kept => exact grown
      | lost => exact KeyedLog.Extends.refl journal.events
      | unconfirmed => exact grown

theorem commitEvent_confirmed (separates : Separates digest)
    {event : Except String ExecutionEvent} {journal : Journal}
    (confirmed : (commitEvent digest port event journal).2 = true) :
    ∃ created, event = .ok created ∧ StandsFor (commitEvent digest port event journal).1.events
        created.answerQueryId created.resultRows := by
  cases event with
  | error message => cases confirmed
  | ok event =>
    refine ⟨event, rfl, ?_⟩
    rw [commitEvent] at confirmed ⊢
    cases appended : appendEvent digest port journal.events event with
    | error message =>
      rw [appended] at confirmed
      cases confirmed
    | ok events =>
      rw [appended] at confirmed
      cases delivered : port.delivery journal.appends with
      | kept => exact (appendEvent_eq_ok separates appended).2
      | lost =>
        rw [delivered] at confirmed
        cases confirmed
      | unconfirmed =>
        rw [delivered] at confirmed
        cases confirmed

/-- A stage that keeps what the store holds, and returns only what the store
then accounts for. -/
structure Accounts {Value : Type}
    (accounted : List ExecutionEvent → Value → Prop) (journal : Journal)
    (result : Journal × Except Stopped Value) : Prop where
  grown : KeyedLog.Extends eventId journal.events result.1.events
  accounted : ∀ value, result.2 = .ok value → accounted result.1.events value

namespace Accounts

variable {Value Result : Type} {journal : Journal} {accounted : List ExecutionEvent → Value → Prop}
  {concluded : List ExecutionEvent → Result → Prop}

theorem stopped {after : Journal} {outcome : Stopped}
    (grown : KeyedLog.Extends eventId journal.events after.events) :
    Accounts accounted journal (after, .error outcome) where
  grown := grown
  accounted := by
    intro value returned
    cases returned

theorem answered {after : Journal} {value : Value}
    (grown : KeyedLog.Extends eventId journal.events after.events)
    (holds : accounted after.events value) :
    Accounts accounted journal (after, .ok value) where
  grown := grown
  accounted := by
    intro other returned
    cases returned
    exact holds

theorem stop (outcome : Stopped) : Accounts accounted journal (Stage.stop outcome journal) :=
  .stopped (KeyedLog.Extends.refl journal.events)

theorem done {value : Value} (holds : accounted journal.events value) :
    Accounts accounted journal (Stage.done value journal) :=
  .answered (KeyedLog.Extends.refl journal.events) holds

variable {stage : Stage Value}

theorem andThen {next : Value → Stage Result} (head : Accounts accounted journal (stage journal))
    (tail : ∀ value after, accounted after.events value →
      KeyedLog.Extends eventId journal.events after.events →
        Accounts concluded after (next value after)) :
    Accounts concluded journal (stage.andThen next journal) := by
  rw [Stage.andThen]
  cases ran : stage journal with
  | mk after outcome =>
    rw [ran] at head
    cases outcome with
    | error outcome => exact .stopped head.grown
    | ok value =>
      have later := tail value after (head.accounted value rfl) head.grown
      constructor
      · exact head.grown.trans later.grown
      · exact later.accounted

theorem interruptible (interrupted : Option Stopped)
    (accounts : Accounts accounted journal (stage journal)) :
    Accounts accounted journal (SealedAnswers.interruptible interrupted stage journal) := by
  cases interrupted with
  | none => exact accounts
  | some outcome => exact .stopped accounts.grown

end Accounts

def AllEvidenced (events : List ExecutionEvent) (answers : List Answered) : Prop :=
  ∀ answered ∈ answers, Evidenced events answered

theorem AllEvidenced.cons {events later : List ExecutionEvent}
    {first : Answered} {others : List Answered}
    (grown : KeyedLog.Extends eventId events later)
    (head : Evidenced events first) (tail : AllEvidenced later others) :
    AllEvidenced later (first :: others) := by
  intro answered member
  rcases List.mem_cons.mp member with rfl | isOther
  · exact head.mono grown
  · exact tail answered isOther

variable {journal : Journal}

/-- A stage returning an answer, then one returning the others. -/
theorem accounts_cons {first : Stage Answered} {rest : Stage (List Answered)}
    (head : Accounts Evidenced journal (first journal))
    (tail : ∀ after, Accounts AllEvidenced after (rest after)) :
    Accounts AllEvidenced journal ((first.andThen fun answered => rest.andThen
        fun later => .done (answered :: later)) journal) := by
  apply head.andThen
  intro answered between evidenced _
  apply (tail between).andThen
  intro later after others grown
  exact .done (.cons grown evidenced others)

variable {context : SealContext} {scope : ScopedPlan} {id : String}
  {facts : AdapterExecutionEvidence} {details : List RecordDetail}

theorem commitAnswer_accounts (separates : Separates digest) (journal : Journal) :
    Accounts (fun events _ => StandsFor events id facts.resultRows) journal
      (commitAnswer digest port (executionEvent context scope id facts details) journal) := by
  have grown := @extends_commitEvent _ _ _ port separates
    (executionEvent context scope id facts details) journal
  have confirmed := @commitEvent_confirmed _ _ _ port separates
    (executionEvent context scope id facts details) journal
  rw [commitAnswer]
  cases committed : commitEvent digest port
      (executionEvent context scope id facts details) journal with
  | mk after answered =>
    rw [committed] at grown confirmed
    cases answered with
    | false => exact .stopped grown
    | true =>
      apply Accounts.answered grown
      rcases confirmed rfl with ⟨event, created, stands⟩
      rcases executionEvent_eq_ok created with ⟨sameId, sameRows⟩
      rw [sameId, sameRows] at stands
      exact stands

variable {ports : CursorHandover.SealPorts}

theorem sealRows_accounts (separates : Separates digest) {total : Nat} {companions : List Answered}
    (beside : AllEvidenced journal.events companions) :
    Accounts Evidenced journal (sealRows digest sha256Hex port context ports scope facts.resultRows
        total facts details companions journal) := by
  rw [sealRows]
  cases sealAnswerQueryId sha256Hex context.evidence.toEvidence scope with
  | error stopped => exact .stop _
  | ok id =>
    apply (commitAnswer_accounts separates journal).andThen
    intro _ after stands grown
    cases CursorHandover.sealCursor ports scope.plan (cursorFacts facts.resultRows facts) with
    | error message => exact .stop _
    | ok cursor =>
      apply Accounts.done
      rw [evidenced_iff]
      constructor
      · exact stands
      · intro companion member
        exact (beside companion member).mono grown

variable {rows : List ResultRow}

theorem sealAnswer_accounts (separates : Separates digest) {total : Nat}
    {selections : List (UnsealedSelection UnsealedAdapterAnswer)}
    (inner : Accounts AllEvidenced journal
      (sealSelections digest sha256Hex port context selections journal)) :
    Accounts Evidenced journal (sealExecutionAnswer digest sha256Hex port context ports scope
        ⟨rows, total, facts, details, selections⟩ journal) := by
  rw [sealExecutionAnswer]
  split
  · rename_i agreed
    simp only [agrees, Bool.and_eq_true, decide_eq_true_eq] at agreed
    rcases agreed with ⟨⟨rfl, -⟩, -⟩
    apply inner.andThen
    intro companions after beside _
    exact sealRows_accounts separates beside
  · exact .stop _

variable {answer : UnsealedAdapterAnswer}

theorem sealSelections_cons_accounts {rest : List (UnsealedSelection UnsealedAdapterAnswer)}
    (head : Accounts Evidenced journal
      (sealExecutionAnswer digest sha256Hex port context selectionPorts scope answer journal))
    (tail : ∀ after, Accounts AllEvidenced after
      (sealSelections digest sha256Hex port context rest after)) :
    Accounts AllEvidenced journal
      (sealSelections digest sha256Hex port context (⟨scope, answer⟩ :: rest) journal) := by
  rw [sealSelections]
  exact accounts_cons head tail

mutual

theorem sealExecutionAnswer_accounts (separates : Separates digest)
    (context : SealContext) (ports : CursorHandover.SealPorts)
    (scope : ScopedPlan) :
    ∀ (answer : UnsealedAdapterAnswer) (journal : Journal), Accounts Evidenced journal
        (sealExecutionAnswer digest sha256Hex port context ports scope answer journal)
  | ⟨_, _, _, _, selections⟩, journal =>
    sealAnswer_accounts separates (sealSelections_accounts separates context selections journal)

theorem sealSelections_accounts (separates : Separates digest) (context : SealContext) :
    ∀ (selections : List (UnsealedSelection UnsealedAdapterAnswer)) (journal : Journal),
      Accounts AllEvidenced journal
        (sealSelections digest sha256Hex port context selections journal)
  | [], journal => by
      apply Accounts.done
      intro answered absent
      cases absent
  | ⟨scope, answer⟩ :: rest, journal =>
    sealSelections_cons_accounts
      (sealExecutionAnswer_accounts separates context selectionPorts scope answer journal)
      (sealSelections_accounts separates context rest)

end

theorem presentAnswer_eq_ok {presenting : Presenting} {answered presented : Answered}
    (shown : presentAnswer scope presenting answered = .ok presented) :
    presented = answered := by
  cases presenting with
  | presented =>
    cases shown
    rfl
  | interrupted stopped => cases shown
  | failed =>
    rw [presentAnswer] at shown
    split at shown
    · cases shown
      rfl
    · cases shown

theorem executeAndPresent_accounts (separates : Separates digest)
    (run : PlannedRun) (ordinal : Nat) (scope : ScopedPlan) (journal : Journal) :
    Accounts Evidenced journal
      (executeAndPresent digest sha256Hex port run ordinal scope journal) := by
  rw [executeAndPresent]
  cases run.runAdapters ordinal scope with
  | error stopped => exact .stop _
  | ok answer =>
    apply Accounts.andThen (.interruptible _
      (sealExecutionAnswer_accounts separates _ _ _ _ journal))
    intro answered after evidenced _
    cases shown : presentAnswer scope (run.presenting ordinal) answered with
    | error stopped => exact .stop _
    | ok presented =>
      rw [presentAnswer_eq_ok shown]
      exact .done evidenced

theorem sealMembers_accounts (separates : Separates digest) (run : PlannedRun)
    (ordinal : Nat) (scopes : List ScopedPlan) (journal : Journal) :
    Accounts AllEvidenced journal
      (sealMembers digest sha256Hex port run ordinal scopes journal) := by
  induction scopes generalizing ordinal journal with
  | nil =>
    apply Accounts.done
    intro answered absent
    cases absent
  | cons scope scopes ih =>
    rw [sealMembers]
    cases resolveStage sha256Hex run.bundle run.evidence.toEvidence
        run.round.patchSubject run.resolving ordinal scope with
    | error stopped => exact .stop _
    | ok resolved =>
      exact accounts_cons (executeAndPresent_accounts separates run ordinal _ journal)
        (ih (ordinal + 1))

theorem runPlanned_accounts (separates : Separates digest) (run : PlannedRun) (journal : Journal) :
    Accounts Evidenced journal (runPlanned digest sha256Hex port run journal) := by
  rw [runPlanned]
  apply (sealMembers_accounts separates run 0 run.round.members journal).andThen
  intro answers after evidenced _
  cases answers with
  | nil => exact .stop _
  | cons primary later =>
    apply Accounts.done
    apply evidenced_composeAnswers
    · exact evidenced primary List.mem_cons_self
    · intro answered member
      exact evidenced answered (List.mem_cons_of_mem primary member)

structure Reaches (run : PageRun) (scope : ScopedPlan) (answer : UnsealedAdapterAnswer) : Prop where
  prepared : run.prepared = .ok scope
  executed : run.runAdapters scope = .ok answer
  uninterrupted : run.interrupted = none

def pageEvent (sha256Hex : String → String) (run : PageRun)
    (scope : ScopedPlan) (answer : UnsealedAdapterAnswer) :
    Except String ExecutionEvent :=
  pageExecutionEvent (run.answerQueryId sha256Hex) answer.evidence scope
    run.manifestHash run.cursor run.evidence.retentionAt

structure TakesHold (port : EventStorePort) (event : Except String ExecutionEvent)
    (own rows : List ResultRow) (journal : Journal) : Prop where
  shown : own = rows
  encodes : (event >>= encodeEvent port) = .ok ()
  delivered : port.delivery journal.appends ≠ .lost

def PageKept (sha256Hex : String → String) (port : EventStorePort)
    (run : PageRun) (journal : Journal) : Prop :=
  ∀ scope answer, Reaches run scope answer →
    match storedEvent journal.events (run.answerQueryId sha256Hex) with
    | some held => held.resultRows = answer.rows
    | none => TakesHold port (pageEvent sha256Hex run scope answer)
        answer.evidence.resultRows answer.rows journal

theorem not_standsFor (fresh : storedEvent events id = none) : ¬StandsFor events id rows := by
  rintro ⟨event, held, -⟩
  rw [fresh] at held
  cases held

theorem appendEvent_refused {message : String} (refused : encodeEvent port event = .error message) :
    appendEvent digest port events event = .error message := by
  rw [appendEvent, refused]
  rfl

theorem appendEvent_fresh (encoded : encodeEvent port event = .ok ())
    (fresh : storedEvent events event.answerQueryId = none) :
    appendEvent digest port events event = .ok (KeyedLog.insert eventId events event) := by
  rw [appendEvent, encoded, fresh]
  rfl

theorem standsFor_insert_iff (fresh : storedEvent events event.answerQueryId = none) :
    StandsFor (KeyedLog.insert eventId events event) event.answerQueryId rows ↔
      event.resultRows = rows := by
  have found : storedEvent (KeyedLog.insert eventId events event) event.answerQueryId =
        some ((storedEvent events event.answerQueryId).getD event) :=
    KeyedLog.lookup_insert events event
  rw [fresh] at found
  constructor
  · rintro ⟨held, isHeld, same⟩
    rw [found] at isHeld
    cases isHeld
    exact same
  · intro same
    exact ⟨event, found, same⟩

theorem standsFor_commitEvent_iff {event : Except String ExecutionEvent} {own : List ResultRow}
    (named : ∀ created, event = .ok created → created.answerQueryId = id ∧ created.resultRows = own)
    (fresh : storedEvent journal.events id = none) :
    StandsFor (commitEvent digest port event journal).1.events id rows ↔
      TakesHold port event own rows journal := by
  cases event with
  | error message =>
    apply iff_of_false (not_standsFor fresh)
    intro held
    cases held.encodes
  | ok created =>
    rcases named created rfl with ⟨rfl, rfl⟩
    have encoding : (Except.ok created >>= encodeEvent port) = encodeEvent port created := rfl
    cases encoded : encodeEvent port created with
    | error message =>
      rw [commitEvent, appendEvent_refused encoded]
      apply iff_of_false (not_standsFor fresh)
      intro held
      have refused := held.encodes
      rw [encoding, encoded] at refused
      cases refused
    | ok done =>
      rw [commitEvent, appendEvent_fresh encoded fresh]
      cases delivered : port.delivery journal.appends with
      | lost =>
        apply iff_of_false (not_standsFor fresh)
        intro held
        exact held.delivered delivered
      | kept =>
        apply (standsFor_insert_iff fresh).trans
        constructor
        · intro same
          exact ⟨same, encoding.trans encoded, by rw [delivered]; simp⟩
        · intro held
          exact held.shown
      | unconfirmed =>
        apply (standsFor_insert_iff fresh).trans
        constructor
        · intro same
          exact ⟨same, encoding.trans encoded, by rw [delivered]; simp⟩
        · intro held
          exact held.shown

theorem executePage_eq {run : PageRun} (prepared : run.prepared = .ok scope)
    (executed : run.runAdapters scope = .ok answer) (journal : Journal) :
    executePage digest sha256Hex port run journal =
      ((commitEvent digest port (pageEvent sha256Hex run scope answer) journal).1,
        match run.interrupted with
        | some stopped => .error stopped
        | none => .ok {
            rows := answer.rows
            totalRowCount := run.effectiveTotal answer.totalRowCount
            answerQueryId := run.answerQueryId sha256Hex
            rootAnswerQueryId := some run.cursor.planId }) := by
  rw [executePage, prepared]
  dsimp only
  rw [executed]
  dsimp only
  cases run.interrupted with
  | some stopped => rfl
  | none => rfl

theorem standsFor_page_iff (separates : Separates digest) {run : PageRun} (journal : Journal) :
    StandsFor (commitEvent digest port (pageEvent sha256Hex run scope answer) journal).1.events
        (run.answerQueryId sha256Hex) answer.rows ↔
      match storedEvent journal.events (run.answerQueryId sha256Hex) with
      | some held => held.resultRows = answer.rows
      | none => TakesHold port (pageEvent sha256Hex run scope answer)
          answer.evidence.resultRows answer.rows journal := by
  cases stored : storedEvent journal.events (run.answerQueryId sha256Hex) with
  | none =>
    apply standsFor_commitEvent_iff
    · intro created isCreated
      exact pageExecutionEvent_eq_ok isCreated
    · exact stored
  | some held =>
    have grown := @extends_commitEvent _ _ _ port separates
      (pageEvent sha256Hex run scope answer) journal
    have still := grown _ held stored
    constructor
    · rintro ⟨event, found, same⟩
      rw [storedEvent, still] at found
      cases found
      exact same
    · intro same
      exact ⟨held, still, same⟩

theorem executePage_accounts_iff (separates : Separates digest) (run : PageRun)
    (journal : Journal) :
    Accounts Evidenced journal (executePage digest sha256Hex port run journal) ↔
      PageKept sha256Hex port run journal := by
  constructor
  · intro accounts scope answer reaches
    rw [executePage_eq reaches.prepared reaches.executed, reaches.uninterrupted] at accounts
    have evidenced := evidenced_iff.mp (accounts.accounted _ rfl)
    have stands := evidenced.1
    dsimp only at stands
    exact (standsFor_page_iff separates journal).mp stands
  · intro kept
    cases prepared : run.prepared with
    | error stopped =>
      rw [executePage, prepared]
      exact .stop _
    | ok scope =>
      cases executed : run.runAdapters scope with
      | error stopped =>
        rw [executePage, prepared]
        dsimp only
        rw [executed]
        exact .stop _
      | ok answer =>
        have grown := @extends_commitEvent _ _ _ port separates
          (pageEvent sha256Hex run scope answer) journal
        rw [executePage_eq prepared executed]
        cases interrupted : run.interrupted with
        | some stopped => exact .stopped grown
        | none =>
          apply Accounts.answered grown
          rw [evidenced_iff]
          constructor
          · apply (standsFor_page_iff separates journal).mpr
            exact kept scope answer ⟨prepared, executed, interrupted⟩
          · intro companion absent
            cases absent

/-- Whether a call's page, if it asks for one, is kept. -/
def CallKept (sha256Hex : String → String) (port : EventStorePort)
    (call : QueryCall) (journal : Journal) : Prop :=
  match call with
  | .stopped _ => True
  | .planned _ => True
  | .page run => PageKept sha256Hex port run journal

/-- Every page of a history is kept when its call is made. -/
def PagesKept (digest : ExecutionEvent → Digest) (sha256Hex : String → String)
    (port : EventStorePort) : List QueryCall → Journal → Prop
  | [], _ => True
  | call :: calls, journal =>
    CallKept sha256Hex port call journal ∧ PagesKept digest sha256Hex port calls
        (query digest sha256Hex port call journal).1

theorem query_accounts (separates : Separates digest) {call : QueryCall}
    (kept : CallKept sha256Hex port call journal) :
    Accounts Evidenced journal (query digest sha256Hex port call journal) := by
  cases call with
  | stopped outcome => exact .stop _
  | planned run => exact runPlanned_accounts separates run journal
  | page run => exact (executePage_accounts_iff separates run journal).mpr kept

theorem runQueries_cons (call : QueryCall) (calls : List QueryCall) (journal : Journal) :
    runQueries digest sha256Hex port (call :: calls) journal =
      ((runQueries digest sha256Hex port calls (query digest sha256Hex port call journal).1).1,
        (query digest sha256Hex port call journal).2 :: (runQueries digest sha256Hex port calls
            (query digest sha256Hex port call journal).1).2) :=
  rfl

theorem extends_runQueries (separates : Separates digest) {calls : List QueryCall}
    (kept : PagesKept digest sha256Hex port calls journal) :
    KeyedLog.Extends eventId journal.events
      (runQueries digest sha256Hex port calls journal).1.events := by
  induction calls generalizing journal with
  | nil => exact KeyedLog.Extends.refl journal.events
  | cons call calls ih =>
    have own := query_accounts separates kept.1
    exact own.grown.trans (ih kept.2)

/-- In every history whose pages are kept, every answer given has an event in
the store with its id and the rows it shows, and so have the answers beside
it. -/
theorem answers_have_durable_evidence (separates : Separates digest)
    {calls : List QueryCall} {journal : Journal}
    (kept : PagesKept digest sha256Hex port calls journal)
    {answered : Answered}
    (given : .ok answered ∈ (runQueries digest sha256Hex port calls journal).2) :
    Evidenced (runQueries digest sha256Hex port calls journal).1.events
      answered := by
  induction calls generalizing journal with
  | nil => cases given
  | cons call calls ih =>
    have own := query_accounts separates kept.1
    have later := extends_runQueries separates kept.2
    rcases List.mem_cons.mp given with isOwn | isLater
    · exact (own.accounted answered isOwn.symm).mono later
    · exact ih kept.2 isLater

end Runs

/-- A digest of 64 digits. -/
def directoryHash : String :=
  String.ofList (List.replicate 64 'b')

def cityMember : ResultMember where
  name := "customer.city"
  valueKind := .string
  named := by decide +kernel

def cityRow (city : String) : ResultRow where
  cells := [("customer.city", .text city)]
  ordered := List.pairwise_singleton _ _

/-- The answer to a question for cities: one row of two. -/
def cityAnswer (city : String) : UnsealedAdapterAnswer where
  rows := [cityRow city]
  totalRowCount := 2
  evidence := {
    adapter := "sql"
    backend := "mysql"
    compiledQueryDigest := directoryHash
    parameterScopeDigest := directoryHash
    resultMembers := [cityMember]
    resultRows := [cityRow city]
    totalRowCount := 2
    truncated := true
    databaseIdentity := "erp"
    startedAt := 1
    finishedAt := 2
    pageable := true }

def cityScope : ScopedPlan :=
  { directoryScope allCities with bundleHash := some directoryHash }

def cityEvidence : EvidenceContext where
  toEvidence := turnEvidence
  projectId := "erp"
  retentionAt := 90

def firstCities : PlannedRun where
  round := { members := [cityScope] }
  bundle := directoryBundle
  request := directoryRequest
  manifestHash := some directoryHash
  evidence := cityEvidence
  stages := directoryContext.stages
  runAdapters := fun _ _ => .ok (cityAnswer "Oslo")
  sealPorts := fun _ =>
    { mintPageCursor := true
      planStore := some none
      paginationSecret := some "secret" }

def nextCities : PageRun where
  cursor := { answerQueryId := "aq_c8196fb128b89f486c374c42dba8df8e"
              offsetRowCount := 1 }
  manifestHash := some directoryHash
  evidence := cityEvidence
  freshId := ""
  prepared := .ok cityScope
  runAdapters := fun _ => .ok (cityAnswer "Bergen")

/-- SHA-256 on the keys of the two calls. -/
def cityDigest (key : String) : String :=
  if key = "turn-7:1" then
    "2a093840c78bec3c823c297f22377d371498cec297afc45d791718a60fc98af8"
  else
    turnDigest key

/-- A page, and a question after it. -/
def cityCalls : List QueryCall :=
  [.page nextCities, .planned firstCities]

/-- A digest that keeps everything it is a digest of. -/
def fields (event : ExecutionEvent) : EventFields :=
  event.toEventFields

theorem separates_fields : Separates fields := fun _ _ same => congrArg EventFields.resultRows same

/-- The page as it is shown. -/
def bergenPage : Answered where
  rows := [cityRow "Bergen"]
  totalRowCount := 2
  answerQueryId := nextCities.answerQueryId cityDigest
  rootAnswerQueryId := some nextCities.cursor.planId

def bergenEvent : Except String ExecutionEvent :=
  pageEvent cityDigest nextCities cityScope (cityAnswer "Bergen")

theorem query_nextCities (port : EventStorePort) :
    query fields cityDigest port (.page nextCities) {} =
      ((commitEvent fields port bergenEvent {}).1, .ok bergenPage) := by
  have prepared : nextCities.prepared = .ok cityScope := rfl
  have executed : nextCities.runAdapters cityScope = .ok (cityAnswer "Bergen") := rfl
  rw [query, executePage_eq prepared executed]
  rfl

theorem bergenPage_given (port : EventStorePort) :
    .ok bergenPage ∈ (runQueries fields cityDigest port cityCalls {}).2 := by
  rw [cityCalls, runQueries_cons, query_nextCities]
  exact List.mem_cons_self

def steadyStore : EventStorePort where
  delivery := fun _ => .kept

theorem bergenEvent_encodes : (bergenEvent >>= encodeEvent steadyStore) = .ok () := by
  rfl

theorem nextCities_kept : PageKept cityDigest steadyStore nextCities {} := by
  intro scope answer reaches
  cases reaches.prepared
  cases reaches.executed
  exact ⟨rfl, bergenEvent_encodes, by simp [steadyStore]⟩

theorem answers_have_durable_evidence_cities : Evidenced
      (runQueries fields cityDigest steadyStore cityCalls {}).1.events
      bergenPage := by
  apply answers_have_durable_evidence separates_fields
  · exact ⟨nextCities_kept, trivial, trivial⟩
  · exact bergenPage_given steadyStore

def losingStore : EventStorePort where
  delivery := fun _ => .lost

/-- The page is answered under an id the store holds nothing under. -/
theorem lost_page_answers_without_evidence : Separates fields ∧
      (runQueries fields cityDigest losingStore [.page nextCities] {}).2 = [.ok bergenPage] ∧
      ¬Evidenced (runQueries fields cityDigest losingStore [.page nextCities] {}).1.events
        bergenPage := by
  rw [runQueries_cons, query_nextCities]
  refine ⟨separates_fields, rfl, ?_⟩
  intro evidenced
  have stands := (evidenced_iff.mp evidenced).1
  have held : TakesHold losingStore bergenEvent [cityRow "Bergen"]
      [cityRow "Bergen"] {} :=
    (standsFor_page_iff separates_fields {}).mp stands
  exact held.delivered rfl

end McpAssistant.BusinessQuery.DurableEvidence
