import McpAssistant.Conversation.DraftChecks

/-!
# The coordinator graph

A turn is a run of a graph.  The decide node asks the model; a tool node runs
the action it chose; the finish and clarify nodes check the draft and publish it
or send the model back.  The outside world answers every superstep.
-/

namespace McpAssistant.Conversation.CoordinatorGraph

open Contracts DraftChecks

inductive AnswerMode where
  | explanation
  | direct
deriving DecidableEq

inductive TextKind where
  | narrative
  | tableFallback
deriving DecidableEq

structure FinishedDraft where
  draft : FinishAnswer
  observations : List Observation
  outcomes : List ActionOutcome
  answerMode : Option AnswerMode
  textKind : TextKind := .narrative
deriving DecidableEq

inductive CoordinatorTerminal where
  | finished (draft : FinishedDraft)
  | clarifyRequested (question : String) (choices : List String) (outcomes : List ActionOutcome)
  | businessQuery (result : BusinessResult) (outcomes : List ActionOutcome)
  | stopped (reason : StopReason) (observations : List Observation) (outcomes : List ActionOutcome)
deriving DecidableEq

def CoordinatorTerminal.isStopped : CoordinatorTerminal → Bool
  | stopped _ _ _ => true
  | _ => false

/-- Where the graph goes next, after routing. -/
inductive Node where
  | decide
  | finish
  | clarify
  | tool (kind : ToolKind)
  | done
deriving DecidableEq

structure CoordinatorContext where
  turnId : String
  question : String
  history : List String := []
  hasCandidates : Bool := false
  unreachable : List String := []

/-- What a turn starts with. -/
structure Request where
  context : CoordinatorContext
  policy : CoordinatorPolicy := {}
  available : List ToolKind
  reading : TextReading
  lifecycle : ActionLifecycle := { turnId := context.turnId }
  ownTurn : lifecycle.turnId = context.turnId := by rfl

structure CoordinatorGraphState where
  lifecycle : ActionLifecycle
  decisions : Nat := 0
  actions : Nat := 0
  businessQueries : Nat := 0
  documentSearches : Nat := 0
  restores : Nat := 0
  repairsUsed : List String := []
  heldDraft : Option FinishedDraft := none
  explained : Bool := false
  allowedActions : List ActionName := allActions
  observations : List Observation := []
  lastAction : Option CoordinatorAction := none
  nextNode : Node := .decide
  draftTextKind : TextKind := .narrative
  outOfScopePart : Option ScopePart := none
  terminal : Option CoordinatorTerminal := none
deriving DecidableEq

inductive MalformedKind where
  | toolCallCount
  | unknownTool
  | invalidArguments
deriving DecidableEq

def MalformedKind.text : MalformedKind → String
  | toolCallCount => "tool_call_count"
  | unknownTool => "unknown_tool"
  | invalidArguments => "invalid_arguments"

inductive ModelReply where
  | action (action : CoordinatorAction)
  | malformed (kind : MalformedKind) (tool : Option String)
  | deadlineExpired
  | contextBudgetExceeded
  | raised
deriving DecidableEq

inductive QueryReply where
  | committed (result : BusinessResult)
  | uncommitted (result : BusinessResult)
  | deadlineExpired
  | raised
deriving DecidableEq

inductive SearchReply where
  | found (passages : List String)
  | failed (timedOut : Bool)
  | deadlineExpired
  | raised
deriving DecidableEq

inductive ExplainReply where
  | restored (turns : List RestoredTurn)
  | unavailable
  | deadlineExpired
  | raised
deriving DecidableEq

/-- The answers of one superstep: whether the budget has expired, the model's
reply and its reply to a repair, the tool's reply, and the observation the
projection makes of the tool's outcome, absent where its own validation refuses
it. -/
structure Answers where
  expired : Bool := false
  first : ModelReply := .raised
  second : ModelReply := .raised
  query : QueryReply := .raised
  search : SearchReply := .raised
  explain : ExplainReply := .raised
  observation : Option Observation := none
deriving DecidableEq

/-- Ends the turn without an answer. -/
def stopped (reason : StopReason) (state : CoordinatorGraphState) : CoordinatorGraphState :=
  { state with
    terminal := some (.stopped reason state.observations state.lifecycle.outcomes)
    nextNode := .done }

def ended (terminal : CoordinatorTerminal) (state : CoordinatorGraphState) :
    CoordinatorGraphState :=
  { state with terminal := some terminal, nextNode := .done }

def repairPrefix : String :=
  "Your last reply was not a valid action:"

/-- The observation that sends the model back with what to fix. -/
def repairObservation (tag : Option String) (decisions : Nat) (text : String) :
    Except Failure Observation :=
  let summary := repairPrefix ++ " " ++ text
  if sized : summary.length ≤ 2000 then
    .ok {
      actionId :=
        match tag with
        | some tag => "repair-" ++ tag ++ "-" ++ toString decisions
        | none => "repair-" ++ toString decisions
      kind := .decisionInvalid
      status := .failed
      summary := summary
      sized := sized }
  else
    .error .validation

def turnCounters (state : CoordinatorGraphState) : TurnCounters where
  actions := state.actions
  decisions := state.decisions
  businessQueries := state.businessQueries
  documentSearches := state.documentSearches
  restores := state.restores
  explained := state.explained
  businessQueryFailed := businessQueryFailed state.lifecycle.outcomes

section Nodes

variable (request : Request)

def nextAllowed (state : CoordinatorGraphState) : List ActionName :=
  allowedActions request.policy (turnCounters state) request.context.hasCandidates request.available

def draftFacts (state : CoordinatorGraphState) : DraftFacts where
  observations := state.observations
  outcomes := state.lifecycle.outcomes
  earlier := request.context.history
  allowed := nextAllowed request state
  unreachable := request.context.unreachable

/-- The update for the first rule the action breaks; none when it keeps them
all.  A rule sends the model back once. -/
def firstRepair {Action : Type} (action : Action) (tag : String)
    (held : Option FinishedDraft) (state : CoordinatorGraphState) :
    List (DraftRule Action) → Except Failure (Option CoordinatorGraphState)
  | [] => .ok none
  | rule :: rules =>
    match rule.check action (draftFacts request state) with
    | none => firstRepair action tag held state rules
    | some text =>
      if rule.name ∈ state.repairsUsed then
        if rule.stopsWhenRepeated then
          .ok (some (stopped .malformedResponse state))
        else
          firstRepair action tag held state rules
      else do
        let repair ← repairObservation (some tag) state.decisions text
        return some { state with
          observations := state.observations ++ [repair]
          repairsUsed := rule.name :: state.repairsUsed
          nextNode := .decide
          heldDraft := if rule.holdsDraft then held else state.heldDraft }

/-- Why the turn stops before the model is asked, if at all. -/
def preDecisionStop (answers : Answers) (state : CoordinatorGraphState) : Option StopReason :=
  if !state.lifecycle.readyForModel then
    some .actionProtocolError
  else if answers.expired then
    some .budgetExpired
  else if state.decisions ≥ request.policy.maxDecisions then
    some .decisionLimit
  else
    none

def nodeOf : ActionName → Node
  | .tool kind => .tool kind
  | .finishAnswer => .finish
  | .clarify => .clarify

/-- What a reply that is not repaired makes of the turn. -/
def settleReply (state : CoordinatorGraphState) : ModelReply → Except Failure CoordinatorGraphState
  | .action action =>
    if action.kind ∈ nextAllowed request state then
      .ok { state with
        decisions := state.decisions + 1
        allowedActions := nextAllowed request state
        lastAction := some action
        nextNode := nodeOf action.kind }
    else
      .ok (stopped (disallowedReason action.kind (turnCounters state) request.policy) state)
  | .malformed _ _ => .ok (stopped .malformedResponse state)
  | .deadlineExpired => .ok (stopped .budgetExpired state)
  | .contextBudgetExceeded => .ok (stopped .contextBudgetExceeded state)
  | .raised => .error .provider

/-- What a repair says of a malformed reply: its kind and the tool it named. -/
def malformedText (kind : MalformedKind) (tool : Option String) : String :=
  match tool with
  | none => kind.text
  | some name => if name = "" then kind.text else kind.text ++ " for " ++ name

/-- Asks the model, and once more after a malformed reply. -/
def decideNode (answers : Answers) (state : CoordinatorGraphState) :
    Except Failure CoordinatorGraphState :=
  match preDecisionStop request answers state with
  | some reason => .ok (stopped reason state)
  | none =>
    match answers.first with
    | .malformed kind tool => do
      let _ ← repairObservation none state.decisions (malformedText kind tool)
      settleReply request state answers.second
    | reply => settleReply request state reply

def maxFinishBlocks : Nat := 8

/-- The fixed sentence about the part of the message that is out of scope. -/
def outOfScopeBlock (part : ScopePart) : AnswerBlock where
  text := part.sentence
  claimType := .general
  sized := part.sentence_sized

/-- A draft without a redirect of its own ends with the fixed sentence. -/
def withRedirect (part : Option ScopePart) (action : FinishAnswer) : FinishAnswer :=
  match part with
  | none => action
  | some part =>
    if room : (action.blocks.all fun block => block.claimType != .general) ∧
        action.blocks.length < maxFinishBlocks then
      { blocks := action.blocks ++ [outOfScopeBlock part]
        sized := by
          have fewer : action.blocks.length < 8 := room.2
          simp only [List.length_append, List.length_singleton]
          omega }
    else
      action

def publishedDraft (state : CoordinatorGraphState) (action : FinishAnswer) : FinishedDraft where
  draft := withRedirect state.outOfScopePart action
  observations := state.observations
  outcomes := state.lifecycle.outcomes
  answerMode :=
    if state.lifecycle.outcomes.isEmpty then
      some .direct
    else if state.lifecycle.outcomes.all fun outcome =>
        outcome.kind == .explainSources then
      some .explanation
    else
      none
  textKind := state.draftTextKind

def finishNode (state : CoordinatorGraphState) : Except Failure CoordinatorGraphState :=
  match state.lastAction with
  | some (.finishAnswer action) => do
    let terminal := publishedDraft state action
    let repair ← firstRepair request action "draft" (some terminal) state
      (finishRules request.reading)
    return repair.getD (ended (.finished terminal) state)
  | _ => .error .assertion

def clarifyNode (state : CoordinatorGraphState) : Except Failure CoordinatorGraphState :=
  match state.lastAction with
  | some (.clarify action) => do
    let repair ← firstRepair request action "clarify" none state (clarifyRules request.reading)
    return repair.getD (ended (.clarifyRequested action.question action.choices
      state.lifecycle.outcomes) state)
  | _ => .error .assertion

def actionId (state : CoordinatorGraphState) : String :=
  "act-" ++ toString (state.actions + 1)

def outcomeOf (kind : ToolKind) (status : ActionStatus) (result : ActionResult)
    (state : CoordinatorGraphState) : ActionOutcome where
  turnId := request.context.turnId
  actionId := actionId state
  kind := kind
  status := status
  result := result

def completed (outcome : ActionOutcome) (state : CoordinatorGraphState) :
    Except Failure CoordinatorGraphState :=
  (state.lifecycle.complete outcome.actionId outcome).map fun lifecycle =>
    { state with lifecycle := lifecycle }

def observed (answers : Answers) (state : CoordinatorGraphState) :
    Except Failure CoordinatorGraphState :=
  match answers.observation with
  | none => .error .validation
  | some observation =>
    .ok { state with observations := state.observations ++ [observation] }

/-- Counts the action that ran. -/
def charged (kind : ToolKind) (state : CoordinatorGraphState) : CoordinatorGraphState :=
  match kind with
  | .queryBusiness => { state with
      actions := state.actions + 1
      businessQueries := state.businessQueries + 1 }
  | .searchDocuments => { state with
      actions := state.actions + 1
      documentSearches := state.documentSearches + 1 }
  | .explainSources => { state with
      actions := state.actions + 1
      restores := state.restores + 1 }

/-- Back to the model with the outcome observed. -/
def reported (answers : Answers) (outcome : ActionOutcome)
    (state : CoordinatorGraphState) : Except Failure CoordinatorGraphState := do
  let done ← completed outcome state
  let seen ← observed answers done
  return { charged outcome.kind seen with nextNode := .decide }

/-- The turn's time ran out while a tool ran. -/
def timedOut (kind : ToolKind) (state : CoordinatorGraphState) :
    Except Failure CoordinatorGraphState :=
  (completed (outcomeOf request kind .timedOut .nothing state) state).map (stopped .budgetExpired)

/-- A tool that raised is a result the model reads. -/
def failedAction (answers : Answers) (kind : ToolKind)
    (state : CoordinatorGraphState) : Except Failure CoordinatorGraphState :=
  reported answers (outcomeOf request kind .failed .error state) state

/-- A single table with no document evidence and no request for an explanation
is finished by its own head. -/
def finishesWithoutNarration (action : QueryBusiness)
    (outcomes : List ActionOutcome) (observations : List Observation) : Bool :=
  !(action.compound || action.outOfScopePart.isSome) && (match outcomes with
      | [outcome] =>
        outcome.kind == .queryBusiness && outcome.status == .succeeded
      | _ => false) &&
    (match observations.getLast? with
      | none => false
      | some last => !last.rows.isEmpty && last.tables ≤ 1) &&
    !request.reading.asksForExplanation request.context.question

/-- The draft the graph writes itself from a table's head. -/
def tableDraft (actionId head : String) : Except Failure FinishAnswer :=
  if sized : 1 ≤ head.length ∧ head.length ≤ 1600 then
    .ok {
      blocks := [{
        text := head, evidenceIds := [actionId], claimType := .evidence
        sized := sized, cites := by simp, fewIds := by simp }]
      sized := by simp }
  else
    .error .validation

def committedQuery (answers : Answers) (action : QueryBusiness)
    (result : BusinessResult) (state : CoordinatorGraphState) :
    Except Failure CoordinatorGraphState := do
  let outcome := outcomeOf request .queryBusiness .succeeded (.business result) state
  let done ← completed outcome state
  let seen ← observed answers done
  if finishesWithoutNarration request action seen.lifecycle.outcomes seen.observations then do
    let draft ← tableDraft (actionId state) result.head
    return { charged .queryBusiness seen with
      lastAction := some (.finishAnswer draft)
      draftTextKind := .tableFallback
      nextNode := .finish }
  else
    return { charged .queryBusiness seen with
      outOfScopePart := action.outOfScopePart <|> state.outOfScopePart
      nextNode := .decide }

/-- A clarification with choices pauses the turn; a denial ends it when the turn
holds no other evidence, and a switched-off capability always does. -/
def businessResultEndsTurn (result : BusinessResult) (outcomes : List ActionOutcome) : Bool :=
  match result.disposition with
  | .clarificationRequired => !result.choices.isEmpty
  | .denied => !outcomes.any fun outcome => outcome.status == .succeeded
  | _ => result.raiseCapabilityUnavailable

def uncommittedStatus (result : BusinessResult) : ActionStatus :=
  if result.disposition = .denied then .denied
  else if result.timedOut then .timedOut
  else .failed

def uncommittedQuery (answers : Answers) (result : BusinessResult)
    (state : CoordinatorGraphState) : Except Failure CoordinatorGraphState := do
  let outcome := outcomeOf request .queryBusiness (uncommittedStatus result)
    (.business result) state
  let done ← completed outcome state
  if businessResultEndsTurn result done.lifecycle.outcomes then
    return ended (.businessQuery result done.lifecycle.outcomes) done
  else do
    let seen ← observed answers done
    return { charged .queryBusiness seen with nextNode := .decide }

def queryBusiness (answers : Answers) (action : QueryBusiness)
    (state : CoordinatorGraphState) : Except Failure CoordinatorGraphState :=
  match answers.query with
  | .deadlineExpired => timedOut request .queryBusiness state
  | .raised => failedAction request answers .queryBusiness state
  | .committed result => committedQuery request answers action result state
  | .uncommitted result => uncommittedQuery request answers result state

def searchDocuments (answers : Answers) (state : CoordinatorGraphState) :
    Except Failure CoordinatorGraphState :=
  match answers.search with
  | .deadlineExpired => timedOut request .searchDocuments state
  | .raised => failedAction request answers .searchDocuments state
  | .found passages => reported answers (outcomeOf request .searchDocuments
      .succeeded (.documents passages) state) state
  | .failed timeout => reported answers (outcomeOf request .searchDocuments
      (if timeout then .timedOut else .failed) (.documentFailure timeout) state)
      state

def explainSources (answers : Answers) (state : CoordinatorGraphState) :
    Except Failure CoordinatorGraphState :=
  match answers.explain with
  | .deadlineExpired => timedOut request .explainSources state
  | .raised => failedAction request answers .explainSources state
  | .unavailable =>
    (completed (outcomeOf request .explainSources .failed .nothing state)
      state).map (stopped .explanationUnavailable)
  | .restored turns =>
    (reported answers (outcomeOf request .explainSources .succeeded
      (.sources turns) state) state).map fun next =>
        { next with explained := true }

/-- Runs the tool the model chose.  An action the lifecycle refuses stops the
turn. -/
def toolNode (kind : ToolKind) (answers : Answers)
    (state : CoordinatorGraphState) : Except Failure CoordinatorGraphState :=
  let run (tool : CoordinatorGraphState → Except Failure CoordinatorGraphState) :=
    match state.lifecycle.begin (actionId state) kind with
    | .error _ => .ok (stopped .actionProtocolError state)
    | .ok lifecycle => tool { state with lifecycle := lifecycle }
  match kind, state.lastAction with
  | .queryBusiness, some (.queryBusiness action) =>
    run (queryBusiness request answers action)
  | .searchDocuments, some (.searchDocuments _) =>
    run (searchDocuments request answers)
  | .explainSources, some (.explainSources _) =>
    run (explainSources request answers)
  | _, _ => .error .assertion

/-- One superstep. -/
def advance (answers : Answers) (state : CoordinatorGraphState) :
    Except Failure CoordinatorGraphState :=
  match state.nextNode with
  | .decide => decideNode request answers state
  | .finish => finishNode request state
  | .clarify => clarifyNode request state
  | .tool kind => toolNode request kind answers state
  | .done => .ok state

def initialState : CoordinatorGraphState where
  lifecycle := request.lifecycle

/-- The state after some supersteps; a finished turn stays as it is. -/
def stateAt (answers : Nat → Answers) : Nat → Except Failure CoordinatorGraphState
  | 0 => .ok (initialState request)
  | steps + 1 => stateAt answers steps >>= fun state =>
    advance request (answers steps) state

def publish (state : CoordinatorGraphState) : CoordinatorTerminal :=
  let terminal := state.terminal.getD
    (.stopped .decisionLimit state.observations state.lifecycle.outcomes)
  match terminal, state.heldDraft with
  | .stopped reason _ _, some draft =>
    if reason ≠ .cancelled then .finished draft else terminal
  | _, _ => terminal

def recursionLimit : Nat := 25

/-- Runs the graph for at most `recursionLimit` supersteps. -/
def runCoordinatorTurn (answers : Nat → Answers) : Except Failure CoordinatorTerminal :=
  stateAt request answers recursionLimit >>= fun final =>
    if final.nextNode = .done then .ok (publish final)
    else .error .recursionLimit

end Nodes

end McpAssistant.Conversation.CoordinatorGraph
