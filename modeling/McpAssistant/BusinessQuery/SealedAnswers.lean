import McpAssistant.BusinessQuery.EvidenceSealing

/-!
# Runs of the query module

A planned run executes and seals the members of its round in order and answers
with the first one, the others beside it.  A page run executes a stored plan
from its cursor and seals the page.  Both meet the same event store.
-/

namespace McpAssistant.BusinessQuery.SealedAnswers

open Definitions Scopes ValueResolution PlannedExecution CursorHandover
  EvidenceSealing

/-- A selection the adapter read beside its answer, with the scope it read it
in. -/
structure UnsealedSelection (Answer : Type) where
  scopedPlan : ScopedPlan
  answer : Answer

structure UnsealedAdapterAnswer where
  rows : List ResultRow
  totalRowCount : Nat
  evidence : AdapterExecutionEvidence
  recordDetails : List RecordDetail := []
  selections : List (UnsealedSelection UnsealedAdapterAnswer) := []

/-- An answer as it is shown: its rows under its id, and the answers beside
it. -/
structure Answered where
  rows : List ResultRow
  totalRowCount : Nat
  answerQueryId : String
  rootAnswerQueryId : Option String := none
  companionAnswered : List Answered := []

/-- A stage of a run: what it leaves in the store, and its result unless it
stops. -/
abbrev Stage (Value : Type) :=
  Journal → Journal × Except Stopped Value

namespace Stage

variable {Value Result : Type}

def done (value : Value) : Stage Value :=
  fun journal => (journal, .ok value)

def stop (stopped : Stopped) : Stage Value :=
  fun journal => (journal, .error stopped)

/-- The next stage runs when the first returns. -/
def andThen (stage : Stage Value) (next : Value → Stage Result) : Stage Result :=
  fun journal =>
    match stage journal with
    | (after, .error stopped) => (after, .error stopped)
    | (after, .ok value) => next value after

end Stage

/-- What the seal of a run is given besides the answer. -/
structure SealContext where
  manifestHash : Option String
  evidence : EvidenceContext
  rootAnswerQueryId : Option String := none

def selectionPorts : SealPorts where
  mintPageCursor := false
  planStore := none
  paginationSecret := none

section Runs

variable {Digest : Type} [DecidableEq Digest] (digest : ExecutionEvent → Digest)
  (sha256Hex : String → String) (port : EventStorePort)

/-- Whether an answer shows what its evidence says. -/
def agrees (rows : List ResultRow) (total : Nat) (facts : AdapterExecutionEvidence) : Bool :=
  decide (rows = facts.resultRows) && decide (total = facts.totalRowCount) &&
    facts.truncated == decide (facts.resultRows.length < facts.totalRowCount)

/-- What the cursor of an answer is minted from. -/
def cursorFacts (rows : List ResultRow) (facts : AdapterExecutionEvidence) :
    ExecutionFacts (String × CellValue) where
  rows := rows.map ResultRow.cells
  totalRowCount := facts.totalRowCount
  truncated := facts.truncated
  pageable := facts.pageable

def executionEvent (context : SealContext) (scope : ScopedPlan) (id : String)
    (facts : AdapterExecutionEvidence) (details : List RecordDetail) :
    Except String ExecutionEvent := do
  let detailEvidence ← buildDetailEvidence details
  let fields ← eventFields id context.rootAnswerQueryId
    context.evidence.projectId detailEvidence facts scope context.manifestHash
    context.evidence.retentionAt
  createEvent fields

def commitAnswer (event : Except String ExecutionEvent) : Stage Unit :=
  fun journal =>
    match commitEvent digest port event journal with
    | (after, true) => (after, .ok ())
    | (after, false) => (after, .error (.incomplete .evidenceUnavailable))

def sealRows (context : SealContext) (ports : SealPorts) (scope : ScopedPlan)
    (rows : List ResultRow) (total : Nat) (facts : AdapterExecutionEvidence)
    (details : List RecordDetail) (companions : List Answered) :
    Stage Answered :=
  match sealAnswerQueryId sha256Hex context.evidence.toEvidence scope with
  | .error stopped => .stop stopped
  | .ok id =>
    (commitAnswer digest port (executionEvent context scope id facts details)).andThen fun () =>
        match sealCursor ports scope.plan (cursorFacts rows facts) with
        | .error message => .stop (.raised message)
        | .ok _ => .done {
            rows := rows
            totalRowCount := total
            answerQueryId := id
            rootAnswerQueryId := context.rootAnswerQueryId
            companionAnswered := companions }

mutual

/-- Seals an answer: its selections first, each with an event of its own. -/
def sealExecutionAnswer (context : SealContext) (ports : SealPorts)
    (scope : ScopedPlan) : UnsealedAdapterAnswer → Stage Answered
  | ⟨rows, total, facts, details, selections⟩ =>
    if agrees rows total facts then
      (sealSelections context selections).andThen
        (sealRows digest sha256Hex port context ports scope rows total facts details)
    else
      .stop (.incomplete .adapterInvalid)

def sealSelections (context : SealContext) :
    List (UnsealedSelection UnsealedAdapterAnswer) → Stage (List Answered)
  | [] => .done []
  | ⟨scope, answer⟩ :: rest =>
    (sealExecutionAnswer context selectionPorts scope answer).andThen
      fun first => (sealSelections context rest).andThen fun later => .done (first :: later)

end

/-- How presenting a sealed answer ends. -/
inductive Presenting where
  | presented
  | failed
  | interrupted (stopped : Stopped)
deriving DecidableEq

/-- A round past its authorization, with what each stage of each member does.
`sealInterrupted` ends a member whose seal outran its budget. -/
structure PlannedRun where
  round : PlannedRound
  bundle : DefinitionBundle
  request : Request
  manifestHash : Option String
  evidence : EvidenceContext
  stages : Nat → Stages
  runAdapters : Nat → ScopedPlan → Except Stopped UnsealedAdapterAnswer
  sealPorts : Nat → SealPorts
  sealInterrupted : Nat → Option Stopped := fun _ => none
  presenting : Nat → Presenting := fun _ => .presented

def PlannedRun.sealContext (run : PlannedRun) : SealContext where
  manifestHash := run.manifestHash
  evidence := run.evidence
  rootAnswerQueryId := run.round.patchSubject

def PlannedRun.resolving (run : PlannedRun) : RunContext where
  request := run.request
  stages := run.stages
  executeAndPresent := fun _ _ => .ok ()

/-- A sealed answer outlives a failing presenter, unless its plan has sets: the
text that names them is missing then. -/
def presentAnswer (scope : ScopedPlan) (presenting : Presenting)
    (answered : Answered) : Except Stopped Answered :=
  match presenting with
  | .presented => .ok answered
  | .interrupted stopped => .error stopped
  | .failed =>
    if scope.plan.derivedSets.isEmpty then
      .ok answered
    else
      .error (.unsupported .grainUnexpressible)

/-- Runs a stage; its effects stay when it is interrupted. -/
def interruptible {Value : Type} (interrupted : Option Stopped)
    (stage : Stage Value) : Stage Value :=
  fun journal =>
    match interrupted with
    | none => stage journal
    | some stopped => ((stage journal).1, .error stopped)

def executeAndPresent (run : PlannedRun) (ordinal : Nat) (scope : ScopedPlan) : Stage Answered :=
  match run.runAdapters ordinal scope with
  | .error stopped => .stop stopped
  | .ok answer =>
    (interruptible (run.sealInterrupted ordinal)
      (sealExecutionAnswer digest sha256Hex port run.sealContext
        (run.sealPorts ordinal) scope answer)).andThen fun answered =>
          match presentAnswer scope (run.presenting ordinal) answered with
          | .error stopped => .stop stopped
          | .ok presented => .done presented

def sealMembers (run : PlannedRun) (ordinal : Nat) : List ScopedPlan → Stage (List Answered)
  | [] => .done []
  | scope :: scopes =>
    match resolveStage sha256Hex run.bundle run.evidence.toEvidence
        run.round.patchSubject run.resolving ordinal scope with
    | .error stopped => .stop stopped
    | .ok (_, resolved) =>
      (executeAndPresent digest sha256Hex port run ordinal resolved).andThen
        fun answered => (sealMembers run (ordinal + 1) scopes).andThen
          fun later => .done (answered :: later)

/-- The primary carries the later answers, each followed by those beside it. -/
def composeAnswers (primary : Answered) (later : List Answered) : Answered :=
  { rows := primary.rows
    totalRowCount := primary.totalRowCount
    answerQueryId := primary.answerQueryId
    rootAnswerQueryId := primary.rootAnswerQueryId
    companionAnswered := primary.companionAnswered ++ later.flatMap fun answer =>
      { answer with companionAnswered := [] } :: answer.companionAnswered }

def runPlanned (run : PlannedRun) : Stage Answered :=
  (sealMembers digest sha256Hex port run 0 run.round.members).andThen fun answers =>
      match answers with
      | [] => .stop (.raised "list index out of range")
      | primary :: later => .done (composeAnswers primary later)

/-- What the seal of a page reads of its cursor. -/
structure PageCursor where
  answerQueryId : String
  planAnswerQueryId : Option String := none
  projectId : String := "default"
  offsetRowCount : Nat := 0
  totalRowCount : Option Nat := none

/-- The answer whose plan the cursor pages through. -/
def PageCursor.planId (cursor : PageCursor) : String :=
  match cursor.planAnswerQueryId with
  | none => cursor.answerQueryId
  | some id => if id = "" then cursor.answerQueryId else id

def pageAnswerQueryId (freshId : String) (idempotencyKey : Option String)
    (cursor : PageCursor) : String :=
  match idempotencyKey with
  | none => freshId
  | some key =>
    if key = "" then
      freshId
    else
      shortId sha256Hex (key ++ ":" ++ toString cursor.offsetRowCount)

def pageExecutionEvent (id : String) (facts : AdapterExecutionEvidence)
    (scope : ScopedPlan) (manifestHash : Option String) (cursor : PageCursor)
    (retentionAt : Int) : Except String ExecutionEvent := do
  let project := if cursor.projectId = "" then "default" else cursor.projectId
  let fields ← eventFields id (some cursor.planId) project [] facts scope manifestHash retentionAt
  createEvent fields

/-- The seal of a page.  Whatever becomes of the append, the page is answered:
a failure is only logged. -/
def sealPageExecutionEvidence (freshId : String) (answer : UnsealedAdapterAnswer)
    (scope : ScopedPlan) (manifestHash : Option String) (cursor : PageCursor)
    (idempotencyKey : Option String) (retentionAt : Int) : Stage Answered :=
  let id := pageAnswerQueryId sha256Hex freshId idempotencyKey cursor
  let event := pageExecutionEvent id answer.evidence scope manifestHash cursor retentionAt
  fun journal => ((commitEvent digest port event journal).1, .ok {
    rows := answer.rows
    totalRowCount := answer.totalRowCount
    answerQueryId := id
    rootAnswerQueryId := some cursor.planId })

/-- A page asked for by its cursor.  `prepared` is what checking the cursor and
restoring the stored plan gives. -/
structure PageRun where
  cursor : PageCursor
  manifestHash : Option String
  evidence : EvidenceContext
  freshId : String
  prepared : Except Stopped ScopedPlan
  runAdapters : ScopedPlan → Except Stopped UnsealedAdapterAnswer
  storedTotalRowCount : Option Nat := none
  sealInterrupted : Option Stopped := none
  presentInterrupted : Option Stopped := none

def PageRun.answerQueryId (run : PageRun) : String :=
  pageAnswerQueryId sha256Hex run.freshId (some run.evidence.idempotencyKey) run.cursor

def PageRun.interrupted (run : PageRun) : Option Stopped :=
  run.sealInterrupted.or run.presentInterrupted

/-- A page counts the whole result as its cursor does, or the stored plan, or
else the adapter. -/
def PageRun.effectiveTotal (run : PageRun) (own : Nat) : Nat :=
  (run.cursor.totalRowCount.or run.storedTotalRowCount).getD own

def executePage (run : PageRun) : Stage Answered :=
  match run.prepared with
  | .error stopped => .stop stopped
  | .ok scope =>
    match run.runAdapters scope with
    | .error stopped => .stop stopped
    | .ok answer =>
      (interruptible run.interrupted
        (sealPageExecutionEvidence digest sha256Hex port run.freshId answer
          scope run.manifestHash run.cursor (some run.evidence.idempotencyKey)
          run.evidence.retentionAt)).andThen fun answered =>
            .done { answered with
              totalRowCount := run.effectiveTotal answered.totalRowCount }

/-- One call of the module.  A call without evidence, or one that planning or
authorization stops, runs nothing. -/
inductive QueryCall where
  | stopped (outcome : Stopped)
  | planned (run : PlannedRun)
  | page (run : PageRun)

def query (call : QueryCall) : Stage Answered :=
  match call with
  | .stopped outcome => .stop outcome
  | .planned run => runPlanned digest sha256Hex port run
  | .page run => executePage digest sha256Hex port run

/-- Runs the calls one after the other, and returns their outcomes in order. -/
def runQueries : List QueryCall → Journal → Journal × List (Except Stopped Answered)
  | [], journal => (journal, [])
  | call :: calls, journal =>
    let (journal, outcome) := query digest sha256Hex port call journal
    let (journal, outcomes) := runQueries calls journal
    (journal, outcome :: outcomes)

end Runs

end McpAssistant.BusinessQuery.SealedAnswers
