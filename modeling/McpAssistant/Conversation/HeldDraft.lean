import McpAssistant.Conversation.CoordinatorGraph

/-!
# The held draft

A draft that a rule holds stays in the state until the turn ends, and is then
published in place of a stop.  Three things lose it: a repair that clears it, an
exception that leaves the graph, and the graph's limit on supersteps.
-/

namespace McpAssistant.Conversation.HeldDraft

open Contracts DraftChecks CoordinatorGraph

/-- The action a node runs is the one the model chose. -/
def ActionAtNode (state : CoordinatorGraphState) : Prop :=
  match state.nextNode with
  | .finish => ∃ action, state.lastAction = some (.finishAnswer action)
  | .clarify => ∃ action, state.lastAction = some (.clarify action)
  | .tool kind =>
    ∃ action, state.lastAction = some action ∧ action.kind = .tool kind
  | _ => True

/-- What holds of every state a turn reaches. -/
structure Consistent (request : Request) (state : CoordinatorGraphState) : Prop where
  ownTurn : state.lifecycle.turnId = request.context.turnId
  atNode : ActionAtNode state
  uncancelled : ∀ reason observations outcomes,
    state.terminal = some (.stopped reason observations outcomes) → reason ≠ .cancelled

/-- A node either fails, and only where it escapes, or goes on consistently
with the given held draft. -/
def Keeps (request : Request) (held : Option FinishedDraft) (escapes : Prop) :
    Except Failure CoordinatorGraphState → Prop
  | .ok next => Consistent request next ∧ next.heldDraft = held
  | .error _ => escapes

section Steps

variable {request : Request} {state : CoordinatorGraphState}

theorem consistent_initialState : Consistent request (initialState request) :=
  ⟨request.ownTurn, trivial, by simp [initialState]⟩

variable {reason : StopReason}

theorem consistent_stopped (consistent : Consistent request state) (own : reason ≠ .cancelled) :
    Consistent request (stopped reason state) := by
  refine ⟨consistent.ownTurn, trivial, ?_⟩
  rintro other observations outcomes equal
  cases equal
  exact own

theorem consistent_ended (consistent : Consistent request state)
    {terminal : CoordinatorTerminal} (answers : terminal.isStopped = false) :
    Consistent request (ended terminal state) := by
  refine ⟨consistent.ownTurn, trivial, ?_⟩
  rintro reason observations outcomes equal
  cases equal
  cases answers

/-- The model's exception leaves the graph: the provider's own, or the repair's,
whose observation is too long. -/
def ReplyEscapes (answers : Answers) : Prop :=
  match answers.first with
  | .raised => True
  | .malformed kind tool =>
    2000 < (repairPrefix ++ " " ++ malformedText kind tool).length ∨ answers.second = .raised
  | _ => False

theorem disallowedReason_ne_cancelled (action : ActionName)
    (counters : TurnCounters) (policy : CoordinatorPolicy) :
    disallowedReason action counters policy ≠ .cancelled := by
  unfold disallowedReason
  split
  · split_ifs <;> simp
  · simp

theorem preDecisionStop_ne_cancelled {answers : Answers}
    (stops : preDecisionStop request answers state = some reason) :
    reason ≠ .cancelled := by
  unfold preDecisionStop at stops
  split_ifs at stops
  all_goals
    cases stops
    simp

theorem settleReply_keeps (consistent : Consistent request state) (reply : ModelReply) :
    Keeps request state.heldDraft (reply = .raised) (settleReply request state reply) := by
  cases reply with
  | action action =>
    by_cases allowed : action.kind ∈ nextAllowed request state
    · rw [settleReply, if_pos allowed]
      refine ⟨⟨consistent.ownTurn, ?_, consistent.uncancelled⟩, rfl⟩
      cases action with
      | finishAnswer action => exact ⟨_, rfl⟩
      | clarify action => exact ⟨_, rfl⟩
      | _ => exact ⟨_, rfl, rfl⟩
    · rw [settleReply, if_neg allowed]
      exact ⟨consistent_stopped consistent (disallowedReason_ne_cancelled _ _ _), rfl⟩
  | raised => exact rfl
  | _ =>
    exact ⟨consistent_stopped consistent (by simp), rfl⟩

variable {held : Option FinishedDraft} {run : Except Failure CoordinatorGraphState}

/-- What a node keeps, it keeps under a weaker reason to escape. -/
theorem Keeps.imp {first second : Prop}
    (keeps : Keeps request held first run) (weaker : first → second) :
    Keeps request held second run := by
  cases run with
  | ok next => exact keeps
  | error failure => exact weaker keeps

theorem Keeps.map {escapes : Prop} {update : CoordinatorGraphState → CoordinatorGraphState}
    (keeps : Keeps request held escapes run)
    (fine : ∀ next, Consistent request next → Consistent request (update next))
    (same : ∀ next, (update next).heldDraft = next.heldDraft) :
    Keeps request held escapes (run.map update) := by
  cases run with
  | error failure => exact keeps
  | ok next => exact ⟨fine next keeps.1, (same next).trans keeps.2⟩

theorem decideNode_keeps (consistent : Consistent request state) (answers : Answers) :
    Keeps request state.heldDraft
      (preDecisionStop request answers state = none ∧ ReplyEscapes answers)
      (decideNode request answers state) := by
  rw [decideNode]
  cases stops : preDecisionStop request answers state with
  | some reason =>
    exact ⟨consistent_stopped consistent (preDecisionStop_ne_cancelled stops), rfl⟩
  | none =>
    have settled := settleReply_keeps consistent
    cases isFirst : answers.first with
    | malformed kind tool =>
      simp only [ReplyEscapes, isFirst, true_and]
      rw [repairObservation]
      by_cases short : (repairPrefix ++ " " ++ malformedText kind tool).length ≤ 2000
      · rw [dif_pos short]
        exact (settled answers.second).imp .inr
      · rw [dif_neg short]
        exact .inl (not_le.mp short)
    | action action => exact (settled (.action action)).imp nofun
    | deadlineExpired => exact (settled .deadlineExpired).imp nofun
    | contextBudgetExceeded =>
      exact (settled .contextBudgetExceeded).imp nofun
    | raised => exact ⟨rfl, by rw [ReplyEscapes, isFirst]; trivial⟩

theorem repairPrefix_short : repairPrefix.length ≤ 40 := by
  rw [repairPrefix, String.length_ofList]
  decide +kernel

theorem repairObservation_eq_ok (tag : Option String) (decisions : Nat)
    {text : String} (short : text.length ≤ 300) :
    ∃ repair, repairObservation tag decisions text = .ok repair := by
  have sized : (repairPrefix ++ " " ++ text).length ≤ 2000 := by
    have opening := repairPrefix_short
    have blank : " ".length = 1 := rfl
    rw [String.length_append, String.length_append]
    omega
  unfold repairObservation
  rw [dif_pos sized]
  exact ⟨_, rfl⟩

theorem firstRepair_spec {Action : Type} (consistent : Consistent request state)
    (action : Action) (tag : String) (held : Option FinishedDraft)
    (rules : List (DraftRule Action))
    (short : ∀ rule ∈ rules, ∀ text, rule.check action (draftFacts request state) = some text →
        text.length ≤ 300) :
    ∃ result, firstRepair request action tag held state rules = .ok result ∧
      ∀ next ∈ result, Consistent request next ∧ (next.heldDraft = state.heldDraft ∨
          next.heldDraft = held ∧ ∃ rule ∈ rules, rule.holdsDraft = true ∧
            rule.name ∉ state.repairsUsed ∧
              (rule.check action (draftFacts request state)).isSome) := by
  induction rules with
  | nil => exact ⟨none, rfl, by simp⟩
  | cons rule rules ih =>
    obtain ⟨headShort, restShort⟩ := List.forall_mem_cons.mp short
    obtain ⟨result, isResult, each⟩ := ih restShort
    have later : ∀ next ∈ result, Consistent request next ∧ (next.heldDraft = state.heldDraft ∨
          next.heldDraft = held ∧ ∃ found ∈ rule :: rules,
            found.holdsDraft = true ∧ found.name ∉ state.repairsUsed ∧
              (found.check action (draftFacts request state)).isSome) := by
      intro next isNext
      obtain ⟨fine, same | ⟨given, found, member, rest⟩⟩ := each next isNext
      · exact ⟨fine, .inl same⟩
      · exact ⟨fine, .inr ⟨given, found, List.mem_cons_of_mem _ member, rest⟩⟩
    cases checked : rule.check action (draftFacts request state) with
    | none =>
      simp only [firstRepair, checked]
      exact ⟨result, isResult, later⟩
    | some text =>
      simp only [firstRepair, checked]
      by_cases used : rule.name ∈ state.repairsUsed
      · by_cases stops : rule.stopsWhenRepeated = true
        · simp only [used, stops, if_true]
          refine ⟨_, rfl, ?_⟩
          rintro next ⟨⟩
          exact ⟨consistent_stopped consistent (by simp), .inl rfl⟩
        · simp only [used, stops, if_true]
          exact ⟨result, isResult, later⟩
      · obtain ⟨repair, isRepair⟩ := repairObservation_eq_ok (some tag)
          state.decisions (headShort text checked)
        simp only [used, if_false, isRepair]
        refine ⟨_, rfl, ?_⟩
        rintro next ⟨⟩
        refine ⟨⟨consistent.ownTurn, trivial, consistent.uncancelled⟩, ?_⟩
        by_cases holds : rule.holdsDraft = true
        · right
          refine ⟨if_pos holds, rule, List.mem_cons_self, holds, used, ?_⟩
          rw [checked]
          rfl
        · exact .inl (if_neg holds)

def Holds (request : Request) (state : CoordinatorGraphState) (loses : Prop) :
    Except Failure CoordinatorGraphState → Prop
  | .ok next => Consistent request next ∧ (state.heldDraft.isSome → next.heldDraft.isSome ∨ loses)
  | .error _ => loses

theorem Keeps.holds {loses : Prop} (keeps : Keeps request state.heldDraft loses run) :
    Holds request state loses run := by
  cases run with
  | ok next =>
    obtain ⟨consistent, same⟩ := keeps
    refine ⟨consistent, ?_⟩
    intro held
    rw [same]
    exact .inl held
  | error failure => exact keeps

theorem finishNode_holds (consistent : Consistent request state)
    (atFinish : state.nextNode = .finish) :
    Holds request state False (finishNode request state) := by
  obtain ⟨action, isAction⟩ : ∃ action, state.lastAction = some (.finishAnswer action) := by
    have atNode := consistent.atNode
    rw [ActionAtNode, atFinish] at atNode
    exact atNode
  obtain ⟨result, isResult, each⟩ := firstRepair_spec consistent action "draft"
    (some (publishedDraft state action)) (finishRules request.reading)
    (fun rule member text isText => finishRules_short member isText)
  rw [finishNode, isAction]
  simp only [isResult]
  cases result with
  | none =>
    refine ⟨consistent_ended consistent rfl, ?_⟩
    intro held
    exact .inl held
  | some next =>
    obtain ⟨fine, same | ⟨given, -⟩⟩ := each next rfl
    · refine ⟨fine, ?_⟩
      intro held
      show next.heldDraft.isSome = true ∨ False
      rw [same]
      exact .inl held
    · refine ⟨fine, ?_⟩
      intro _
      show next.heldDraft.isSome = true ∨ False
      rw [given]
      exact .inl rfl

/-- A clarification without choices is sent back for them, and the repair puts
nothing in the held draft's place. -/
def ClearsDraft (request : Request) (state : CoordinatorGraphState) : Prop :=
  ∃ action, state.lastAction = some (.clarify action) ∧ action.choices = [] ∧
    "choices" ∉ state.repairsUsed ∧
      (unreachableRecordType request.reading action (draftFacts request state) = none ∨
        "unreachable_record_type" ∈ state.repairsUsed)

theorem firstRepair_clarifyRules (action : Clarify) (held : Option FinishedDraft) :
    (unreachableRecordType request.reading action (draftFacts request state) = none ∨
        "unreachable_record_type" ∈ state.repairsUsed) ∨
      ∀ result, firstRepair request action "clarify" held state
          (clarifyRules request.reading) = .ok result →
        ∀ next ∈ result, next.heldDraft = state.heldDraft := by
  by_cases used : "unreachable_record_type" ∈ state.repairsUsed
  · exact .inl (.inr used)
  · cases checked : unreachableRecordType request.reading action (draftFacts request state) with
    | none => exact .inl (.inl rfl)
    | some text =>
      right
      intro result isResult next isNext
      have rule : ⟨"unreachable_record_type",
          unreachableRecordType request.reading, false, false⟩ ∈ clarifyRules request.reading :=
        List.mem_cons_self
      obtain ⟨repair, isRepair⟩ := repairObservation_eq_ok (some "clarify")
        state.decisions (clarifyRules_short rule checked)
      simp only [clarifyRules, firstRepair, checked, used, if_false, isRepair] at isResult
      cases isResult
      cases isNext
      rfl

theorem clarifyNode_holds (consistent : Consistent request state)
    (atClarify : state.nextNode = .clarify) :
    Holds request state (ClearsDraft request state) (clarifyNode request state) := by
  obtain ⟨action, isAction⟩ : ∃ action, state.lastAction = some (.clarify action) := by
    have atNode := consistent.atNode
    rw [ActionAtNode, atClarify] at atNode
    exact atNode
  obtain ⟨result, isResult, each⟩ := firstRepair_spec consistent action
    "clarify" none (clarifyRules request.reading)
    (fun rule member text isText => clarifyRules_short member isText)
  rw [clarifyNode, isAction]
  simp only [isResult]
  cases result with
  | none =>
    refine ⟨consistent_ended consistent rfl, ?_⟩
    intro held
    exact .inl held
  | some next =>
    have same : next.heldDraft = state.heldDraft →
        state.heldDraft.isSome → next.heldDraft.isSome ∨ ClearsDraft request state := by
      intro equal held
      rw [equal]
      exact .inl held
    obtain ⟨fine, equal | ⟨given, rule, member, holds, unused, broken⟩⟩ := each next rfl
    · exact ⟨fine, same equal⟩
    · rcases @firstRepair_clarifyRules request state action none with
        reached | kept
      · refine ⟨fine, ?_⟩
        intro _
        right
        simp only [clarifyRules, List.mem_cons, List.not_mem_nil, or_false] at member
        rcases member with rfl | rfl
        · cases holds
        · refine ⟨action, isAction, ?_, unused, reached⟩
          simp only [choices] at broken
          split_ifs at broken with noChoices
          · exact List.isEmpty_iff.mp noChoices
          · cases broken
      · exact ⟨fine, same (kept _ isResult next rfl)⟩

/-! ## Tools -/

def Runs (kind : ToolKind) (state : CoordinatorGraphState) : Prop :=
  state.lifecycle.running.lookup (actionId state) = some kind

variable {kind : ToolKind} (consistent : Consistent request state)
include consistent

theorem completed_of_runs (runs : Runs kind state) (status : ActionStatus) (result : ActionResult) :
    ∃ lifecycle, lifecycle.turnId = request.context.turnId ∧
      lifecycle.outcomes = state.lifecycle.outcomes ++
        [outcomeOf request kind status result state] ∧
      completed (outcomeOf request kind status result state) state =
        .ok { state with lifecycle := lifecycle } := by
  have completes := @ActionLifecycle.complete_eq_ok state.lifecycle
    (outcomeOf request kind status result state) runs consistent.ownTurn.symm
  obtain ⟨lifecycle, isCompleted, sameTurn, outcomes⟩ := completes
  refine ⟨lifecycle, sameTurn.trans consistent.ownTurn, outcomes, ?_⟩
  rw [completed, isCompleted]
  rfl

/-- What a tool leaves in the state: the outcome, and perhaps an observation, its
charge and a next node. -/
theorem consistent_update {next : CoordinatorGraphState}
    (ownTurn : next.lifecycle.turnId = request.context.turnId)
    (atNode : ActionAtNode next) (terminal : next.terminal = state.terminal) :
    Consistent request next := by
  refine ⟨ownTurn, atNode, ?_⟩
  rw [terminal]
  exact consistent.uncancelled

theorem reported_keeps (runs : Runs kind state) (answers : Answers)
    (status : ActionStatus) (result : ActionResult) :
    Keeps request state.heldDraft (answers.observation = none)
      (reported answers (outcomeOf request kind status result state) state) := by
  obtain ⟨lifecycle, ownTurn, -, isCompleted⟩ := completed_of_runs consistent runs status result
  simp only [reported, isCompleted]
  cases isObserved : answers.observation with
  | none =>
    simp only [observed, isObserved]
    exact trivial
  | some observation =>
    simp only [observed, isObserved]
    cases kind with
    | _ =>
      exact ⟨consistent_update consistent ownTurn trivial rfl, rfl⟩

theorem stopped_completed_keeps (runs : Runs kind state) (status : ActionStatus)
    (result : ActionResult) (own : reason ≠ .cancelled) :
    Keeps request state.heldDraft False
      ((completed (outcomeOf request kind status result state) state).map (stopped reason)) := by
  obtain ⟨lifecycle, ownTurn, -, isCompleted⟩ := completed_of_runs consistent runs status result
  rw [isCompleted]
  refine ⟨⟨ownTurn, trivial, ?_⟩, rfl⟩
  rintro other observations outcomes equal
  cases equal
  exact own

omit consistent

/-- The head of a table that would finish the turn does not fit a block. -/
def HeadRefused (request : Request) (answers : Answers)
    (result : BusinessResult) (state : CoordinatorGraphState) : Prop :=
  ∃ action observation, state.lastAction = some (.queryBusiness action) ∧
    answers.observation = some observation ∧
    finishesWithoutNarration request action
      (state.lifecycle.outcomes ++ [outcomeOf request .queryBusiness .succeeded
        (.business result) state])
      (state.observations ++ [observation]) = true ∧
    ¬(1 ≤ result.head.length ∧ result.head.length ≤ 1600)

variable {action : QueryBusiness}

theorem committedQuery_keeps (consistent : Consistent request state)
    (runs : Runs .queryBusiness state) (answers : Answers)
    (isAction : state.lastAction = some (.queryBusiness action))
    (result : BusinessResult) :
    Keeps request state.heldDraft
      (answers.observation = none ∨ HeadRefused request answers result state)
      (committedQuery request answers action result state) := by
  obtain ⟨lifecycle, ownTurn, outcomes, isCompleted⟩ :=
    completed_of_runs consistent runs .succeeded (.business result)
  simp only [committedQuery, isCompleted]
  cases isObserved : answers.observation with
  | none =>
    simp only [observed, isObserved]
    exact .inl trivial
  | some observation =>
    simp only [observed, isObserved, bind, Except.bind, outcomes]
    by_cases finishes : finishesWithoutNarration request action
        (state.lifecycle.outcomes ++ [outcomeOf request .queryBusiness
          .succeeded (.business result) state])
        (state.observations ++ [observation]) = true
    · rw [if_pos finishes, tableDraft]
      by_cases sized : 1 ≤ result.head.length ∧ result.head.length ≤ 1600
      · rw [dif_pos sized]
        exact ⟨consistent_update consistent ownTurn ⟨_, rfl⟩ rfl, rfl⟩
      · rw [dif_neg sized]
        exact .inr ⟨action, observation, isAction, isObserved, finishes, sized⟩
    · rw [if_neg finishes]
      exact ⟨consistent_update consistent ownTurn trivial rfl, rfl⟩

def MustObserve (request : Request) (result : BusinessResult)
    (state : CoordinatorGraphState) : Prop :=
  businessResultEndsTurn result (state.lifecycle.outcomes ++
    [outcomeOf request .queryBusiness (uncommittedStatus result) (.business result) state]) = false

theorem uncommittedQuery_keeps (consistent : Consistent request state)
    (runs : Runs .queryBusiness state) (answers : Answers)
    (result : BusinessResult) :
    Keeps request state.heldDraft (answers.observation = none ∧ MustObserve request result state)
      (uncommittedQuery request answers result state) := by
  obtain ⟨lifecycle, ownTurn, outcomes, isCompleted⟩ := completed_of_runs
    consistent runs (uncommittedStatus result) (.business result)
  simp only [uncommittedQuery, isCompleted, bind, Except.bind, outcomes]
  by_cases ends : businessResultEndsTurn result (state.lifecycle.outcomes ++
      [outcomeOf request .queryBusiness (uncommittedStatus result) (.business result) state]) = true
  · rw [if_pos ends]
    have fresh : Consistent request { state with lifecycle := lifecycle } :=
      consistent_update consistent ownTurn consistent.atNode rfl
    exact ⟨consistent_ended fresh rfl, rfl⟩
  · rw [if_neg ends]
    cases isObserved : answers.observation with
    | none =>
      simp only [observed, isObserved]
      exact ⟨trivial, Bool.eq_false_iff.mpr ends⟩
    | some observation =>
      simp only [observed, isObserved]
      exact ⟨consistent_update consistent ownTurn trivial rfl, rfl⟩

/-- A tool's exception leaves the graph: what it returned cannot be observed, or
its head cannot be a draft. -/
def ToolEscapes (request : Request) (kind : ToolKind) (answers : Answers)
    (state : CoordinatorGraphState) : Prop :=
  match kind with
  | .queryBusiness =>
    match answers.query with
    | .deadlineExpired => False
    | .raised => answers.observation = none
    | .committed result =>
      answers.observation = none ∨ HeadRefused request answers result state
    | .uncommitted result =>
      answers.observation = none ∧ MustObserve request result state
  | .searchDocuments =>
    match answers.search with
    | .deadlineExpired => False
    | _ => answers.observation = none
  | .explainSources =>
    match answers.explain with
    | .deadlineExpired => False
    | .unavailable => False
    | _ => answers.observation = none

variable (consistent : Consistent request state)
include consistent

theorem queryBusiness_keeps (runs : Runs .queryBusiness state) (answers : Answers)
    (isAction : state.lastAction = some (.queryBusiness action)) :
    Keeps request state.heldDraft (ToolEscapes request .queryBusiness answers state)
      (queryBusiness request answers action state) := by
  unfold ToolEscapes queryBusiness
  cases answers.query with
  | deadlineExpired =>
    exact stopped_completed_keeps consistent runs _ _ (by simp)
  | raised => exact reported_keeps consistent runs answers _ _
  | committed result =>
    exact committedQuery_keeps consistent runs answers isAction result
  | uncommitted result =>
    exact uncommittedQuery_keeps consistent runs answers result

theorem searchDocuments_keeps (runs : Runs .searchDocuments state) (answers : Answers) :
    Keeps request state.heldDraft (ToolEscapes request .searchDocuments answers state)
      (searchDocuments request answers state) := by
  unfold ToolEscapes searchDocuments
  cases answers.search with
  | deadlineExpired =>
    exact stopped_completed_keeps consistent runs _ _ (by simp)
  | _ => exact reported_keeps consistent runs answers _ _

theorem explainSources_keeps (runs : Runs .explainSources state) (answers : Answers) :
    Keeps request state.heldDraft (ToolEscapes request .explainSources answers state)
      (explainSources request answers state) := by
  unfold ToolEscapes explainSources
  cases answers.explain with
  | deadlineExpired =>
    exact stopped_completed_keeps consistent runs _ _ (by simp)
  | raised => exact reported_keeps consistent runs answers _ _
  | unavailable =>
    exact stopped_completed_keeps consistent runs _ _ (by simp)
  | restored turns =>
    apply (reported_keeps consistent runs answers .succeeded (.sources turns)).map
    · intro next fine
      exact ⟨fine.ownTurn, fine.atNode, fine.uncancelled⟩
    · intro next
      rfl

theorem toolNode_keeps (atTool : state.nextNode = .tool kind) (answers : Answers) :
    Keeps request state.heldDraft
      (∃ lifecycle, state.lifecycle.begin (actionId state) kind = .ok lifecycle ∧
        ToolEscapes request kind answers { state with lifecycle := lifecycle })
      (toolNode request kind answers state) := by
  obtain ⟨action, isAction, isKind⟩ : ∃ action,
      state.lastAction = some action ∧ action.kind = .tool kind := by
    have atNode := consistent.atNode
    rw [ActionAtNode, atTool] at atNode
    exact atNode
  cases begun : state.lifecycle.begin (actionId state) kind with
  | error failure =>
    have stops : toolNode request kind answers state =
        .ok (stopped .actionProtocolError state) := by
      cases action <;> cases isKind <;> simp only [toolNode, isAction, begun]
    rw [stops]
    exact ⟨consistent_stopped consistent (by simp), rfl⟩
  | ok lifecycle =>
    obtain ⟨runs, sameTurn, -⟩ := ActionLifecycle.begin_eq_ok begun
    have fresh : Consistent request { state with lifecycle := lifecycle } :=
      consistent_update consistent (sameTurn.trans consistent.ownTurn) consistent.atNode rfl
    cases action with
    | queryBusiness action =>
      cases isKind
      have isRun : toolNode request .queryBusiness answers state =
          queryBusiness request answers action { state with lifecycle := lifecycle } := by
        simp only [toolNode, isAction, begun]
      rw [isRun]
      exact (queryBusiness_keeps fresh runs answers isAction).imp
        fun escapes => ⟨lifecycle, rfl, escapes⟩
    | searchDocuments question =>
      cases isKind
      have isRun : toolNode request .searchDocuments answers state =
          searchDocuments request answers { state with lifecycle := lifecycle } := by
        simp only [toolNode, isAction, begun]
      rw [isRun]
      exact (searchDocuments_keeps fresh runs answers).imp fun escapes => ⟨lifecycle, rfl, escapes⟩
    | explainSources positions =>
      cases isKind
      have isRun : toolNode request .explainSources answers state =
          explainSources request answers { state with lifecycle := lifecycle } := by
        simp only [toolNode, isAction, begun]
      rw [isRun]
      exact (explainSources_keeps fresh runs answers).imp fun escapes => ⟨lifecycle, rfl, escapes⟩
    | finishAnswer action => cases isKind
    | clarify action => cases isKind

omit consistent

/-- A superstep that gives up what is held, or that an exception ends. -/
def LosesDraft (request : Request) (answers : Answers) (state : CoordinatorGraphState) : Prop :=
  match state.nextNode with
  | .decide =>
    preDecisionStop request answers state = none ∧ ReplyEscapes answers
  | .clarify => ClearsDraft request state
  | .tool kind =>
    ∃ lifecycle, state.lifecycle.begin (actionId state) kind = .ok lifecycle ∧
      ToolEscapes request kind answers { state with lifecycle := lifecycle }
  | _ => False

theorem advance_holds (consistent : Consistent request state) (answers : Answers) :
    Holds request state (LosesDraft request answers state) (advance request answers state) := by
  cases node : state.nextNode with
  | decide =>
    simp only [advance, LosesDraft, node]
    exact (decideNode_keeps consistent answers).holds
  | finish =>
    simp only [advance, LosesDraft, node]
    exact finishNode_holds consistent node
  | clarify =>
    simp only [advance, LosesDraft, node]
    exact clarifyNode_holds consistent node
  | tool kind =>
    simp only [advance, LosesDraft, node]
    exact (toolNode_keeps consistent node answers).holds
  | done =>
    simp only [advance, LosesDraft, node]
    exact ⟨consistent, .inl⟩

end Steps

section Turns

variable (request : Request) (answers : Nat → Answers) {steps : Nat} {state : CoordinatorGraphState}

theorem consistent_stateAt (reached : stateAt request answers steps = .ok state) :
    Consistent request state := by
  induction steps generalizing state with
  | zero =>
    cases reached
    exact consistent_initialState
  | succ steps ih =>
    rw [stateAt, Foundations.Fallible.bind_eq_ok] at reached
    obtain ⟨before, isBefore, stepped⟩ := reached
    have holds := advance_holds (ih isBefore) (answers steps)
    rw [stepped] at holds
    exact holds.1

theorem stateAt_succ_of_ok (reached : stateAt request answers steps = .ok state) :
    stateAt request answers (steps + 1) = advance request (answers steps) state := by
  rw [stateAt, reached]
  rfl

/-- A finished turn stays as it is. -/
theorem stateAt_of_done (reached : stateAt request answers steps = .ok state)
    (done : state.nextNode = .done) (more : Nat) :
    stateAt request answers (steps + more) = .ok state := by
  induction more with
  | zero => exact reached
  | succ more ih =>
    rw [← Nat.add_assoc, stateAt_succ_of_ok request answers ih, advance, done]

/-- No superstep taken while a draft is held loses it, and each is within the
graph's limit. -/
def NeverLoses : Prop :=
  ∀ steps state, stateAt request answers steps = .ok state →
    state.heldDraft.isSome → state.nextNode ≠ .done →
      steps < recursionLimit ∧ ¬LosesDraft request (answers steps) state

variable {request answers}

theorem stays_held (never : NeverLoses request answers)
    (reached : stateAt request answers steps = .ok state)
    (held : state.heldDraft.isSome) (more : Nat) :
    ∃ later, stateAt request answers (steps + more) = .ok later ∧ later.heldDraft.isSome := by
  induction more with
  | zero => exact ⟨state, reached, held⟩
  | succ more ih =>
    obtain ⟨before, isBefore, stillHeld⟩ := ih
    have step : stateAt request answers (steps + (more + 1)) =
        advance request (answers (steps + more)) before := by
      rw [← Nat.add_assoc, stateAt, isBefore]
      rfl
    by_cases done : before.nextNode = .done
    · refine ⟨before, ?_, stillHeld⟩
      rw [step, advance, done]
    · have safe := (never _ before isBefore stillHeld done).2
      have holds := advance_holds (consistent_stateAt request answers isBefore)
        (answers (steps + more))
      rw [step]
      cases stepped : advance request (answers (steps + more)) before with
      | error failure =>
        rw [stepped] at holds
        exact absurd holds safe
      | ok next =>
        rw [stepped] at holds
        exact ⟨next, rfl, (holds.2 stillHeld).resolve_right safe⟩

theorem publish_of_held (consistent : Consistent request state) (held : state.heldDraft.isSome) :
    (state.terminal = some (publish state) ∧ (publish state).isStopped = false) ∨
      ∃ draft, state.heldDraft = some draft ∧ publish state = .finished draft := by
  obtain ⟨draft, isHeld⟩ := Option.isSome_iff_exists.mp held
  cases isTerminal : state.terminal with
  | none =>
    right
    refine ⟨draft, isHeld, ?_⟩
    simp only [publish, isTerminal, isHeld, Option.getD_none]
    rfl
  | some terminal =>
    cases terminal with
    | stopped reason observations outcomes =>
      right
      refine ⟨draft, isHeld, ?_⟩
      have own := consistent.uncancelled _ _ _ isTerminal
      simp only [publish, isTerminal, isHeld, Option.getD_some, if_pos own]
    | _ =>
      left
      simp only [publish, isTerminal, Option.getD_some]
      exact ⟨trivial, rfl⟩

end Turns

/-- Texts without amounts, placeholders or record types. -/
def plainReading : TextReading where
  amounts _ := []
  figure _ := none
  notANextQuestion _ := false
  namesARecordType _ _ := false
  asksForExplanation _ := false

def greeting : Request where
  context := { turnId := "t1", question := "Hello" }
  available := []
  reading := plainReading

theorem general_uncited : ClaimType.general = .evidence ↔ ([] : List String) ≠ [] := by
  decide

theorem uncited_few : ([] : List String).length ≤ 8 := by decide

/-- An answer that asks the person a question. -/
def whichOne : FinishAnswer where
  blocks := [{
    text := "Which?", claimType := .general, cites := general_uncited, fewIds := uncited_few }]

def malformedReply : Answers where
  first := .malformed .toolCallCount none
  second := .malformed .toolCallCount none

/-- The model asks back, then replies with no valid action. -/
def asksBackTurn : Nat → Answers
  | 0 => { first := .action (.finishAnswer whichOne) }
  | _ => malformedReply

/-- A turn whose model replies with no valid action twice ends at that decision. -/
theorem advance_malformed {request : Request} {state : CoordinatorGraphState}
    (node : state.nextNode = .decide)
    (ready : preDecisionStop request malformedReply state = none) :
    advance request malformedReply state = .ok (stopped .malformedResponse state) := by
  have kind : (malformedText .toolCallCount none).length = 15 := rfl
  rcases repairObservation_eq_ok none state.decisions (kind.trans_le (by decide)) with
    ⟨repair, isRepair⟩
  rw [advance, node]
  dsimp only
  rw [decideNode, ready]
  show (repairObservation none state.decisions (malformedText .toolCallCount none) >>= fun _ =>
    settleReply request state (.malformed .toolCallCount none)) = _
  rw [isRepair]
  rfl

theorem firstRepair_second {Action : Type} {request : Request} {state : CoordinatorGraphState}
    {action : Action} {first second : DraftRule Action} {text : String}
    (passes : first.check action (draftFacts request state) = none)
    (breaks : second.check action (draftFacts request state) = some text)
    (short : text.length ≤ 300) (unused : second.name ∉ state.repairsUsed) (tag : String)
    (held : Option FinishedDraft) (rules : List (DraftRule Action)) :
    ∃ repair, firstRepair request action tag held state (first :: second :: rules) =
      .ok (some { state with
        observations := state.observations ++ [repair]
        repairsUsed := second.name :: state.repairsUsed
        nextNode := .decide
        heldDraft := if second.holdsDraft then held else state.heldDraft }) := by
  rcases repairObservation_eq_ok (some tag) state.decisions short with ⟨repair, isRepair⟩
  refine ⟨repair, ?_⟩
  rw [firstRepair, passes]
  dsimp only
  rw [firstRepair, breaks]
  dsimp only
  rw [if_neg unused, isRepair]
  rfl

/-- The greeted turn after the model asked back. -/
def askedBack : CoordinatorGraphState :=
  { initialState greeting with
    decisions := 1
    allowedActions := nextAllowed greeting (initialState greeting)
    lastAction := some (.finishAnswer whichOne)
    nextNode := .finish }

def holdingBack (repair : Observation) : CoordinatorGraphState :=
  { askedBack with
    observations := [repair]
    repairsUsed := ["asks_back"]
    nextNode := .decide
    heldDraft := some (publishedDraft askedBack whichOne) }

theorem stateAt_askedBack {answers : Nat → Answers}
    (asks : answers 0 = { first := .action (.finishAnswer whichOne) }) :
    stateAt greeting answers 1 = .ok askedBack := by
  show decideNode greeting (answers 0) (initialState greeting) = _
  rw [asks]
  rfl

theorem stateAt_holdingBack {answers : Nat → Answers}
    (asks : answers 0 = { first := .action (.finishAnswer whichOne) }) :
    ∃ repair, stateAt greeting answers 2 = .ok (holdingBack repair) := by
  have asksPerson : (askedBack.allowedActions.contains .clarify && asksThePerson whichOne) = true := by
    decide +kernel
  have evident : evidence plainReading whichOne (draftFacts greeting askedBack) = none := by
    decide +kernel
  have asked : (⟨"asks_back", asksBack, true, false⟩ : DraftRule FinishAnswer).check whichOne
    (draftFacts greeting askedBack) = some _ :=
      (if_pos asksPerson : asksBack whichOne (draftFacts greeting askedBack) = _)
  let draft := publishedDraft askedBack whichOne
  rcases @firstRepair_second _ greeting askedBack whichOne
    ⟨"evidence", evidence plainReading, false, true⟩ _ _ evident asked
    (@finishRules_short plainReading _ _ _ _ (List.mem_cons_of_mem _ (.head _)) asked)
    List.not_mem_nil "draft" (some draft) _ with ⟨repair, sent⟩
  have finishes : advance greeting (answers 1) askedBack =
    (firstRepair greeting whichOne "draft" (some draft) askedBack (finishRules plainReading) >>=
      fun repair => .ok (repair.getD (ended (.finished draft) askedBack))) := rfl
  refine ⟨repair, ?_⟩
  rw [stateAt_succ_of_ok greeting answers (stateAt_askedBack asks), finishes, finishRules, sent]
  rfl

/-- What the state shows of a turn: where it goes next and whether a draft is
held. -/
def progress (run : Except Failure CoordinatorGraphState) : Option (Node × Bool) :=
  run.toOption.map fun state => (state.nextNode, state.heldDraft.isSome)

theorem progress_eq_some {run : Except Failure CoordinatorGraphState}
    {node : Node} {held : Bool} (seen : progress run = some (node, held)) :
    ∃ state, run = .ok state ∧ state.nextNode = node ∧ state.heldDraft.isSome = held := by
  cases run with
  | error failure => cases seen
  | ok state =>
    have both := Option.some.inj seen
    exact ⟨state, rfl, congrArg Prod.fst both, congrArg Prod.snd both⟩

theorem progress_asksBackTurn : progress (stateAt greeting asksBackTurn 1) = some (.finish, false) ∧
      progress (stateAt greeting asksBackTurn 2) = some (.decide, true) ∧
      progress (stateAt greeting asksBackTurn 3) = some (.done, true) := by
  rcases stateAt_holdingBack (show asksBackTurn 0 = _ from rfl) with ⟨repair, second⟩
  have third : stateAt greeting asksBackTurn 3 =
      .ok (stopped .malformedResponse (holdingBack repair)) := by
    rw [stateAt_succ_of_ok greeting asksBackTurn second]
    exact @advance_malformed greeting (holdingBack repair) rfl rfl
  rw [stateAt_askedBack rfl, second, third]
  exact ⟨rfl, rfl, rfl⟩

theorem not_replyEscapes_malformedReply : ¬ReplyEscapes malformedReply := by
  rintro (long | raised)
  · have opening := repairPrefix_short
    have blank : " ".length = 1 := rfl
    have kind : (malformedText .toolCallCount none).length = 15 := rfl
    rw [String.length_append, String.length_append] at long
    omega
  · cases raised

theorem neverLoses_asksBackTurn : NeverLoses greeting asksBackTurn := by
  intro steps state reached held running
  obtain ⟨asked, repaired, stops⟩ := progress_asksBackTurn
  rcases steps with _ | _ | _ | steps
  · cases reached
    cases held
  · rw [reached] at asked
    have unheld := congrArg Prod.snd (Option.some.inj asked)
    exact absurd (held.symm.trans unheld) (by simp)
  · rw [reached] at repaired
    have atDecide : state.nextNode = .decide := congrArg Prod.fst (Option.some.inj repaired)
    refine ⟨by decide, ?_⟩
    rw [LosesDraft, atDecide]
    exact fun loses => not_replyEscapes_malformedReply loses.2
  · obtain ⟨final, isFinal, done, -⟩ := progress_eq_some stops
    have stays := stateAt_of_done greeting asksBackTurn isFinal done steps
    rw [Nat.add_comm] at stays
    rw [stays] at reached
    cases reached
    exact absurd done running

/-- The model asks back, then asks for a clarification without choices, then
replies with no valid action. -/
def clarifiesTurn : Nat → Answers
  | 0 => { first := .action (.finishAnswer whichOne) }
  | 2 => { first := .action (.clarify { question := "Which?" }) }
  | _ => malformedReply

end McpAssistant.Conversation.HeldDraft
