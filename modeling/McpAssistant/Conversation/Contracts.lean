import McpAssistant.BusinessQuery.SetKeys
import McpAssistant.Foundations.Fallible

/-!
# Coordinator contracts

A turn alternates between a model's decisions and the tools they run.  Actions,
outcomes and observations are what passes between the two; the lifecycle admits
one action at a time, and the policy says which actions a decision may choose.
-/

namespace McpAssistant.Conversation.Contracts

open BusinessQuery.SetKeys (strip)

/-! ## Actions -/

/-- The actions that run a tool. -/
inductive ToolKind where
  | queryBusiness
  | searchDocuments
  | explainSources
deriving DecidableEq

inductive ActionName where
  | tool (kind : ToolKind)
  | finishAnswer
  | clarify
deriving DecidableEq

inductive ActionStatus where
  | succeeded
  | denied
  | failed
  | timedOut
  | cancelled
deriving DecidableEq

inductive StopReason where
  | finished
  | clarified
  | decisionLimit
  | actionLimit
  | businessQueryLimit
  | documentSearchLimit
  | actionNotAllowed
  | malformedResponse
  | explanationUnavailable
  | contextBudgetExceeded
  | budgetExpired
  | cancelled
  | actionProtocolError
deriving DecidableEq

inductive ClaimType where
  | general
  | evidence
  | suggestion
deriving DecidableEq

/-- A paragraph of an answer.  It names evidence exactly when it claims to stand
on evidence. -/
structure AnswerBlock where
  text : String
  evidenceIds : List String := []
  claimType : ClaimType
  sized : 1 ≤ text.length ∧ text.length ≤ 1600 := by decide
  cites : claimType = .evidence ↔ evidenceIds ≠ [] := by decide
  fewIds : evidenceIds.length ≤ 8 := by decide
deriving DecidableEq

/-- The part of a message that asks for something out of scope. -/
structure ScopePart where
  text : String
  sized : 2 ≤ text.length ∧ text.length ≤ 120 := by decide
deriving DecidableEq

def outOfScopeOpening : String :=
  "I can only help with the company's records and documents, so I can't help with "

theorem outOfScopeOpening_short : outOfScopeOpening.length ≤ 100 := by
  rw [outOfScopeOpening, String.length_ofList]
  decide +kernel

def isClosing (letter : Char) : Bool :=
  letter == '.' || letter == '?' || letter == '!'

/-- The part without surrounding blanks and closing punctuation. -/
def ScopePart.trimmed (part : ScopePart) : List Char :=
  ((strip part.text.toList).reverse.dropWhile isClosing).reverse

theorem ScopePart.trimmed_short (part : ScopePart) : part.trimmed.length ≤ 120 := by
  rw [ScopePart.trimmed, List.length_reverse]
  refine (List.dropWhile_sublist _).length_le.trans ?_
  rw [List.length_reverse, strip, List.length_reverse]
  refine (List.dropWhile_sublist _).length_le.trans ?_
  rw [List.length_reverse]
  exact (List.dropWhile_sublist _).length_le.trans part.sized.2

/-- The fixed sentence about the part. -/
def ScopePart.sentence (part : ScopePart) : String :=
  outOfScopeOpening ++ String.ofList part.trimmed ++ "."

theorem ScopePart.sentence_sized (part : ScopePart) :
    1 ≤ part.sentence.length ∧ part.sentence.length ≤ 1600 := by
  have opening := outOfScopeOpening_short
  have trimmed := part.trimmed_short
  have dot : ".".length = 1 := rfl
  rw [ScopePart.sentence, String.length_append, String.length_append, String.length_ofList]
  omega

structure QueryBusiness where
  question : String
  compound : Bool := false
  outOfScopePart : Option ScopePart := none
deriving DecidableEq

structure FinishAnswer where
  blocks : List AnswerBlock
  sized : 1 ≤ blocks.length ∧ blocks.length ≤ 8 := by decide
deriving DecidableEq

/-- Its choices are two to four labels, or none. -/
structure Clarify where
  question : String
  choices : List String := []
  sized : choices = [] ∨ 2 ≤ choices.length ∧ choices.length ≤ 4 := by decide
deriving DecidableEq

inductive CoordinatorAction where
  | queryBusiness (action : QueryBusiness)
  | searchDocuments (question : String)
  | explainSources (positions : List Nat)
  | finishAnswer (action : FinishAnswer)
  | clarify (action : Clarify)
deriving DecidableEq

def CoordinatorAction.kind : CoordinatorAction → ActionName
  | queryBusiness _ => .tool .queryBusiness
  | searchDocuments _ => .tool .searchDocuments
  | explainSources _ => .tool .explainSources
  | finishAnswer _ => .finishAnswer
  | clarify _ => .clarify

inductive Disposition where
  | answered
  | clarificationRequired
  | unsupported
  | incomplete
  | denied
deriving DecidableEq

/-- A business query's result, as the coordinator reads it.  `head` is the text
a table is finished with: the head of its first table, or the answer's own
text. -/
structure BusinessResult where
  disposition : Disposition
  choices : List String := []
  raiseCapabilityUnavailable : Bool := false
  timedOut : Bool := false
  head : String := ""
deriving DecidableEq

/-- An earlier answer, with the sources it selected and the resource types of
what it cites. -/
structure RestoredTurn where
  exchangeId : String
  selected : List String
  resourceTypes : List (Option String)
deriving DecidableEq

inductive ActionResult where
  | nothing
  | error
  | business (result : BusinessResult)
  | documents (passages : List String)
  | documentFailure (timedOut : Bool)
  | sources (turns : List RestoredTurn)
deriving DecidableEq

structure ActionOutcome where
  turnId : String
  actionId : String
  kind : ToolKind
  status : ActionStatus
  result : ActionResult := .nothing
deriving DecidableEq

inductive ObservationKind where
  | action (kind : ToolKind)
  | decisionInvalid
deriving DecidableEq

structure ObservedColumn where
  key : String
  identifier : Bool := false
deriving DecidableEq

/-- What the model reads of an outcome.  A row pairs column keys with the text
of its cells. -/
structure Observation where
  actionId : String
  kind : ObservationKind
  status : ActionStatus
  evidenceIds : List String := []
  columns : List ObservedColumn := []
  rows : List (List (String × String)) := []
  tables : Nat := 0
  hasFailure : Bool := false
  summary : String := ""
  sized : summary.length ≤ 2000 := by decide
deriving DecidableEq

/-- Why a turn ends in an exception instead of a terminal. -/
inductive Failure where
  | assertion
  | validation
  | protocol
  | provider
  | recursionLimit
deriving DecidableEq

structure ActionLifecycle where
  turnId : String
  admitted : List (String × ToolKind) := []
  running : List (String × ToolKind) := []
  completed : List String := []
  outcomes : List ActionOutcome := []
deriving DecidableEq

namespace ActionLifecycle

def admitAction (lifecycle : ActionLifecycle) (actionId : String) (kind : ToolKind) :
    Except Failure ActionLifecycle :=
  if (lifecycle.admitted.lookup actionId).isSome || (lifecycle.running.lookup actionId).isSome ||
      lifecycle.completed.contains actionId then
    .error .protocol
  else
    .ok { lifecycle with admitted := (actionId, kind) :: lifecycle.admitted }

def start (lifecycle : ActionLifecycle) (actionId : String) : Except Failure ActionLifecycle :=
  match lifecycle.admitted.lookup actionId with
  | none => .error .protocol
  | some kind => .ok { lifecycle with
      admitted := lifecycle.admitted.filter fun entry => entry.1 != actionId
      running := (actionId, kind) :: lifecycle.running }

def complete (lifecycle : ActionLifecycle) (actionId : String)
    (outcome : ActionOutcome) : Except Failure ActionLifecycle :=
  match lifecycle.running.lookup actionId with
  | none => .error .protocol
  | some kind =>
    if outcome.turnId ≠ lifecycle.turnId ∨ outcome.actionId ≠ actionId then
      .error .protocol
    else if outcome.kind ≠ kind then
      .error .protocol
    else
      .ok { lifecycle with
        running := lifecycle.running.filter fun entry => entry.1 != actionId
        completed := actionId :: lifecycle.completed
        outcomes := lifecycle.outcomes ++ [outcome] }

/-- No action is pending when the model is asked. -/
def readyForModel (lifecycle : ActionLifecycle) : Bool :=
  lifecycle.admitted.isEmpty && lifecycle.running.isEmpty

def begin (lifecycle : ActionLifecycle) (actionId : String) (kind : ToolKind) :
    Except Failure ActionLifecycle :=
  lifecycle.admitAction actionId kind >>= fun admitted => admitted.start actionId

theorem begin_eq_ok {lifecycle begun : ActionLifecycle} {actionId : String}
    {kind : ToolKind} (succeeded : lifecycle.begin actionId kind = .ok begun) :
    begun.running.lookup actionId = some kind ∧ begun.turnId = lifecycle.turnId ∧
      begun.outcomes = lifecycle.outcomes := by
  rw [begin, Foundations.Fallible.bind_eq_ok] at succeeded
  obtain ⟨admitted, isAdmitted, started⟩ := succeeded
  rw [admitAction] at isAdmitted
  split at isAdmitted
  · cases isAdmitted
  · cases isAdmitted
    simp only [start, List.lookup_cons_self] at started
    cases started
    exact ⟨List.lookup_cons_self, rfl, rfl⟩

theorem complete_eq_ok {lifecycle : ActionLifecycle} {outcome : ActionOutcome}
    (runs : lifecycle.running.lookup outcome.actionId = some outcome.kind)
    (ownTurn : outcome.turnId = lifecycle.turnId) :
    ∃ completed, lifecycle.complete outcome.actionId outcome = .ok completed ∧
      completed.turnId = lifecycle.turnId ∧
      completed.outcomes = lifecycle.outcomes ++ [outcome] := by
  have accepted : lifecycle.complete outcome.actionId outcome = .ok
      { lifecycle with
        running := lifecycle.running.filter fun entry =>
          entry.1 != outcome.actionId
        completed := outcome.actionId :: lifecycle.completed
        outcomes := lifecycle.outcomes ++ [outcome] } := by
    simp only [complete, runs, ownTurn, ne_eq, not_true_eq_false, or_self, if_false]
  exact ⟨_, accepted, rfl, rfl⟩

end ActionLifecycle

structure CoordinatorPolicy where
  maxDecisions : Nat := 6
  maxActions : Nat := 4
  maxBusinessQueries : Nat := 1
  maxDocumentSearches : Nat := 2
  maxRestores : Nat := 1
deriving DecidableEq

/-- What a turn has used so far. -/
structure TurnCounters where
  actions : Nat := 0
  decisions : Nat := 0
  businessQueries : Nat := 0
  documentSearches : Nat := 0
  restores : Nat := 0
  explained : Bool := false
  businessQueryFailed : Bool := false
deriving DecidableEq

def businessQueryFailed (outcomes : List ActionOutcome) : Bool :=
  outcomes.any fun outcome =>
    outcome.kind == .queryBusiness && outcome.status != .succeeded

def allActions : List ActionName :=
  [.tool .queryBusiness, .tool .searchDocuments, .tool .explainSources, .finishAnswer, .clarify]

/-- The actions the next decision may choose.  At a ceiling only the endings
remain, and a turn whose query ran is not offered a clarification. -/
def allowedActions (policy : CoordinatorPolicy) (used : TurnCounters)
    (hasCandidates : Bool) (available : List ToolKind) : List ActionName :=
  let queried := used.businessQueryFailed || used.businessQueries > 0
  if used.actions ≥ policy.maxActions ∨ used.decisions + 1 ≥ policy.maxDecisions then
    if queried then [.finishAnswer] else [.finishAnswer, .clarify]
  else
    allActions.filter fun action =>
      match action with
      | .tool .queryBusiness =>
        available.contains .queryBusiness && used.businessQueries < policy.maxBusinessQueries
      | .tool .searchDocuments =>
        available.contains .searchDocuments && used.documentSearches < policy.maxDocumentSearches
      | .tool .explainSources =>
        available.contains .explainSources && used.restores < policy.maxRestores && hasCandidates
      | .finishAnswer => true
      | .clarify => !queried

/-- Why an action the decision chose anyway stops the turn. -/
def disallowedReason (action : ActionName) (counters : TurnCounters)
    (policy : CoordinatorPolicy) : StopReason :=
  match action with
  | .tool kind =>
    if kind = .queryBusiness ∧ counters.businessQueries ≥ policy.maxBusinessQueries then
      .businessQueryLimit
    else if kind = .searchDocuments ∧ counters.documentSearches ≥ policy.maxDocumentSearches then
      .documentSearchLimit
    else if counters.actions ≥ policy.maxActions then
      .actionLimit
    else
      .actionNotAllowed
  | _ => .actionNotAllowed

end McpAssistant.Conversation.Contracts
