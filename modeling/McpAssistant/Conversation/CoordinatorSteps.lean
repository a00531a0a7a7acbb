import McpAssistant.Conversation.HeldDraft

/-!
# Supersteps

Everything one superstep of the graph can do, said once: a turn rests, stops,
takes a decision, is repaired, publishes, asks, or runs one tool.  The only
exceptions that leave a superstep come from outside the graph.
-/

namespace McpAssistant.Conversation.CoordinatorSteps

open Contracts DraftChecks CoordinatorGraph HeldDraft Foundations.Fallible

/-- A failure of the model's provider, or an observation or a draft that fails
its own validation. -/
def FromOutside (failure : Failure) : Prop :=
  failure = .provider ∨ failure = .validation

def used : ToolKind → CoordinatorGraphState → Nat
  | .queryBusiness, state => state.businessQueries
  | .searchDocuments, state => state.documentSearches
  | .explainSources, state => state.restores

def maximum (policy : CoordinatorPolicy) : ToolKind → Nat
  | .queryBusiness => policy.maxBusinessQueries
  | .searchDocuments => policy.maxDocumentSearches
  | .explainSources => policy.maxRestores

/-- An action that ran has one outcome, and leaves no other trace. -/
structure Ran (kind : ToolKind) (state next : CoordinatorGraphState) : Prop where
  outcome : ∃ outcome, outcome.kind = kind ∧
    next.lifecycle.outcomes = state.lifecycle.outcomes ++ [outcome]
  settled : state.lifecycle.readyForModel = true →
    next.lifecycle.readyForModel = true
  decisions : next.decisions = state.decisions
  repairs : next.repairsUsed = state.repairsUsed
  held : next.heldDraft = state.heldDraft

/-- An action whose outcome the model reads. -/
structure Reports (answers : Answers) (kind : ToolKind)
    (state next : CoordinatorGraphState) : Prop extends Ran kind state next where
  seen : ∃ observation, answers.observation = some observation ∧
    next.observations = state.observations ++ [observation]
  charged : used kind next = used kind state + 1
  uncharged : ∀ other, other ≠ kind → used other next = used other state
  terminal : next.terminal = state.terminal
  route : next.nextNode = .decide ∧ next.draftTextKind = state.draftTextKind ∨
    next.nextNode = .finish ∧ next.draftTextKind = .tableFallback ∧
      next.lifecycle.outcomes.length = 1

/-- An action that ends the turn without a draft. -/
structure Closes (kind : ToolKind) (state next : CoordinatorGraphState) : Prop
    extends Ran kind state next where
  done : next.nextNode = .done
  terminal : ∃ terminal, next.terminal = some terminal ∧ ∀ draft, terminal ≠ .finished draft
  observations : next.observations = state.observations
  uncharged : ∀ other, used other next = used other state

/-- A draft the graph may hold: what is held already, none, or the action's own
where all it cites was observed. -/
inductive MayHold (request : Request) (state : CoordinatorGraphState) :
    Option FinishedDraft → Prop where
  | same : MayHold request state state.heldDraft
  | none : MayHold request state none
  | draft (action : FinishAnswer)
      (cited : citationProblem action (draftFacts request state) = .none) :
      MayHold request state (some (publishedDraft state action))

inductive Superstep (request : Request) (answers : Answers)
    (state : CoordinatorGraphState) : CoordinatorGraphState → Prop where
  | rests (done : state.nextNode = .done) : Superstep request answers state state
  | stops (reason : StopReason) (running : state.nextNode ≠ .done) :
      Superstep request answers state (stopped reason state)
  | decides (action : CoordinatorAction) (node : state.nextNode = .decide)
      (asked : preDecisionStop request answers state = none)
      (allowed : action.kind ∈ nextAllowed request state) :
      Superstep request answers state { state with
        decisions := state.decisions + 1
        allowedActions := nextAllowed request state
        lastAction := some action
        nextNode := nodeOf action.kind }
  | repairs (name : String) (repair : Observation) (held : Option FinishedDraft)
      (node : state.nextNode = .finish ∨ state.nextNode = .clarify)
      (unused : name ∉ state.repairsUsed) (uncited : repair.evidenceIds = [])
      (mayHold : MayHold request state held) :
      Superstep request answers state { state with
        observations := state.observations ++ [repair]
        repairsUsed := name :: state.repairsUsed
        nextNode := .decide
        heldDraft := held }
  | publishes (action : FinishAnswer) (node : state.nextNode = .finish)
      (cited : citationProblem action (draftFacts request state) = none) :
      Superstep request answers state (ended (.finished (publishedDraft state action)) state)
  | asks (action : Clarify) (node : state.nextNode = .clarify) :
      Superstep request answers state (ended (.clarifyRequested action.question
        action.choices state.lifecycle.outcomes) state)
  | reports (kind : ToolKind) (next : CoordinatorGraphState) (node : state.nextNode = .tool kind)
      (reported : Reports answers kind state next) :
      Superstep request answers state next
  | closes (kind : ToolKind) (next : CoordinatorGraphState)
      (node : state.nextNode = .tool kind) (closed : Closes kind state next) :
      Superstep request answers state next

def StepsOrFails (request : Request) (answers : Answers) (state : CoordinatorGraphState) :
    Except Failure CoordinatorGraphState → Prop
  | .ok next => Superstep request answers state next
  | .error failure => FromOutside failure

section Steps

variable {request : Request} {answers : Answers} {state : CoordinatorGraphState}

theorem repairObservation_spec (tag : Option String) (decisions : Nat) (text : String) :
    (∃ repair, repairObservation tag decisions text = .ok repair ∧ repair.evidenceIds = []) ∨
      repairObservation tag decisions text = .error .validation := by
  unfold repairObservation
  dsimp only
  split
  · exact .inl ⟨_, rfl, rfl⟩
  · exact .inr rfl

theorem settleReply_steps (node : state.nextNode = .decide)
    (asked : preDecisionStop request answers state = none) (reply : ModelReply) :
    StepsOrFails request answers state (settleReply request state reply) := by
  have running : state.nextNode ≠ .done := by
    rw [node]
    exact nofun
  cases reply with
  | action action =>
    by_cases allowed : action.kind ∈ nextAllowed request state
    · rw [settleReply, if_pos allowed]
      exact .decides action node asked allowed
    · rw [settleReply, if_neg allowed]
      exact .stops _ running
  | raised => exact .inl rfl
  | _ => exact .stops _ running

theorem decideNode_steps (node : state.nextNode = .decide) :
    StepsOrFails request answers state (decideNode request answers state) := by
  rw [decideNode]
  cases stops : preDecisionStop request answers state with
  | some reason =>
    apply Superstep.stops
    rw [node]
    rintro ⟨⟩
  | none =>
    have settled := settleReply_steps node stops
    cases isFirst : answers.first with
    | malformed kind tool =>
      rcases repairObservation_spec none state.decisions
        (malformedText kind tool) with ⟨repair, isRepair, _⟩ | refused
      · simp only [isRepair]
        exact settled answers.second
      · simp only [refused]
        exact .inr rfl
    | action action => exact settled (.action action)
    | deadlineExpired => exact settled .deadlineExpired
    | contextBudgetExceeded => exact settled .contextBudgetExceeded
    | raised => exact settled .raised

/-- What a broken rule makes of the state. -/
def repairedBy {Action : Type} (rule : DraftRule Action) (repair : Observation)
    (held : Option FinishedDraft) (state : CoordinatorGraphState) :
    CoordinatorGraphState :=
  { state with
    observations := state.observations ++ [repair]
    repairsUsed := rule.name :: state.repairsUsed
    nextNode := .decide
    heldDraft := if rule.holdsDraft then held else state.heldDraft }

/-- The rules keep an action, stop the turn, or repair it by a rule not used
yet. -/
def RepairSpec {Action : Type} (held : Option FinishedDraft) (state : CoordinatorGraphState) :
    Except Failure (Option CoordinatorGraphState) → Prop
  | .ok none => True
  | .ok (some next) => next = stopped .malformedResponse state ∨
      ∃ (rule : DraftRule Action) (repair : Observation),
        rule.name ∉ state.repairsUsed ∧ repair.evidenceIds = [] ∧
          next = repairedBy rule repair held state
  | .error failure => failure = .validation

theorem firstRepair_repairs {Action : Type} (action : Action) (tag : String)
    (held : Option FinishedDraft) (rules : List (DraftRule Action)) :
    @RepairSpec Action held state (firstRepair request action tag held state rules) := by
  induction rules with
  | nil => trivial
  | cons rule rules ih =>
    cases checked : rule.check action (draftFacts request state) with
    | none =>
      simp only [firstRepair, checked]
      exact ih
    | some text =>
      simp only [firstRepair, checked]
      by_cases used : rule.name ∈ state.repairsUsed
      · by_cases stops : rule.stopsWhenRepeated = true
        · simp only [used, stops, if_true]
          exact .inl rfl
        · simp only [used, stops, if_true]
          exact ih
      · simp only [used, if_false]
        rcases repairObservation_spec (some tag) state.decisions text with
          ⟨repair, isRepair, uncited⟩ | refused
        · simp only [isRepair]
          exact .inr ⟨rule, repair, used, uncited, rfl⟩
        · simp only [refused]
          exact rfl

/-- What the rules make of an action that ends the turn otherwise. -/
theorem repaired_steps {Action : Type} {held : Option FinishedDraft}
    {ending : CoordinatorGraphState}
    {result : Except Failure (Option CoordinatorGraphState)}
    (node : state.nextNode = .finish ∨ state.nextNode = .clarify)
    (spec : @RepairSpec Action held state result)
    (mayHold : MayHold request state held)
    (ends : Superstep request answers state ending) :
    StepsOrFails request answers state (result >>= fun repair => .ok (repair.getD ending)) := by
  cases result with
  | error failure => exact .inr spec
  | ok repair =>
    cases repair with
    | none => exact ends
    | some next =>
      rcases spec with rfl | ⟨rule, repair, unused, uncited, rfl⟩
      · apply Superstep.stops
        rcases node with finish | clarify
        · rw [finish]
          exact nofun
        · rw [clarify]
          exact nofun
      · apply Superstep.repairs _ _ _ node unused uncited
        cases rule.holdsDraft with
        | true => exact mayHold
        | false => exact .same

theorem citationProblem_of_evidence {reading : TextReading}
    {draft : FinishAnswer} {facts : DraftFacts}
    (kept : evidence reading draft facts = none) :
    citationProblem draft facts = none := by
  rw [evidence, draftProblems] at kept
  cases cited : citationProblem draft facts with
  | none => rfl
  | some text =>
    rw [cited] at kept
    cases kept

theorem finishNode_steps (consistent : Consistent request state) (node : state.nextNode = .finish) :
    StepsOrFails request answers state (finishNode request state) := by
  have atNode := consistent.atNode
  rw [ActionAtNode, node] at atNode
  rcases atNode with ⟨action, isAction⟩
  unfold finishNode
  rw [isAction]
  have running : state.nextNode ≠ .done := by
    rw [node]
    rintro ⟨⟩
  cases checked : evidence request.reading action (draftFacts request state) with
  | none =>
    have cited := citationProblem_of_evidence checked
    have rest : firstRepair request action "draft"
        (some (publishedDraft state action)) state
        (finishRules request.reading) =
      firstRepair request action "draft" (some (publishedDraft state action))
        state (finishRules request.reading).tail := by
      rw [finishRules, firstRepair]
      dsimp only
      rw [checked]
      rfl
    dsimp only
    rw [rest]
    exact repaired_steps (.inl node) (firstRepair_repairs action "draft" _ _)
      (.draft action cited) (.publishes action node cited)
  | some text =>
    dsimp only
    rw [finishRules, firstRepair]
    dsimp only
    rw [checked]
    dsimp only
    by_cases used : "evidence" ∈ state.repairsUsed
    · rw [if_pos used, if_pos rfl]
      exact .stops _ running
    · rw [if_neg used]
      rcases repairObservation_spec (some "draft") state.decisions text with
        ⟨repair, isRepair, uncited⟩ | refused
      · rw [isRepair]
        exact .repairs "evidence" repair _ (.inl node) used uncited .same
      · rw [refused]
        exact .inr rfl

theorem clarifyNode_steps (consistent : Consistent request state)
    (node : state.nextNode = .clarify) :
    StepsOrFails request answers state (clarifyNode request state) := by
  have atNode := consistent.atNode
  rw [ActionAtNode, node] at atNode
  rcases atNode with ⟨action, isAction⟩
  unfold clarifyNode
  rw [isAction]
  exact repaired_steps (.inr node) (firstRepair_repairs action "clarify" _ _)
    .none (.asks action node)

variable {lifecycle : ActionLifecycle}

theorem readyForModel_iff : lifecycle.readyForModel = true ↔
      lifecycle.admitted = [] ∧ lifecycle.running = [] := by
  rw [ActionLifecycle.readyForModel, Bool.and_eq_true, List.isEmpty_iff, List.isEmpty_iff]

theorem pending_of_begin {kind : ToolKind} {name : String}
    {begun : ActionLifecycle} (ready : lifecycle.readyForModel = true)
    (begins : lifecycle.begin name kind = .ok begun) :
    begun.admitted = [] ∧ begun.running = [(name, kind)] := by
  rcases readyForModel_iff.mp ready with ⟨admitted, running⟩
  rw [ActionLifecycle.begin, bind_eq_ok] at begins
  rcases begins with ⟨between, isAdmitted, started⟩
  rw [ActionLifecycle.admitAction] at isAdmitted
  split at isAdmitted
  · cases isAdmitted
  · cases isAdmitted
    simp only [ActionLifecycle.start, List.lookup_cons_self] at started
    cases started
    constructor
    · dsimp only
      rw [admitted]
      simp
    · dsimp only
      rw [running]

theorem complete_pending {outcome : ActionOutcome} {done : ActionLifecycle}
    (completes : lifecycle.complete outcome.actionId outcome = .ok done) :
    done.admitted = lifecycle.admitted ∧ done.running = lifecycle.running.filter fun entry =>
        entry.1 != outcome.actionId := by
  unfold ActionLifecycle.complete at completes
  split at completes
  · cases completes
  · split at completes
    · cases completes
    · split at completes
      · cases completes
      · cases completes
        exact ⟨rfl, rfl⟩

variable {kind : ToolKind} {lifecycle : ActionLifecycle}

theorem completed_of_begin (consistent : Consistent request state)
    (begun : state.lifecycle.begin (actionId state) kind = .ok lifecycle)
    (status : ActionStatus) (result : ActionResult) :
    ∃ after, completed (outcomeOf request kind status result state)
        { state with lifecycle := lifecycle } = .ok { state with lifecycle := after } ∧
      after.outcomes = state.lifecycle.outcomes ++ [outcomeOf request kind status result state] ∧
      (state.lifecycle.readyForModel = true → after.readyForModel = true) := by
  rcases ActionLifecycle.begin_eq_ok begun with ⟨runs, sameTurn, sameOutcomes⟩
  have ownTurn : (outcomeOf request kind status result state).turnId =
      lifecycle.turnId := (sameTurn.trans consistent.ownTurn).symm
  rcases @ActionLifecycle.complete_eq_ok lifecycle
    (outcomeOf request kind status result state) runs ownTurn with
    ⟨after, completes, -, outcomes⟩
  refine ⟨after, ?_, outcomes.trans (by rw [sameOutcomes]), ?_⟩
  · rw [completed]
    dsimp only
    rw [completes]
    rfl
  · intro ready
    rcases pending_of_begin ready begun with ⟨admitted, running⟩
    rcases complete_pending completes with ⟨sameAdmitted, left⟩
    apply readyForModel_iff.mpr
    constructor
    · rw [sameAdmitted, admitted]
    · rw [left, running]
      show [(actionId state, kind)].filter (fun entry => entry.1 != actionId state) = []
      simp

theorem used_charged (kind : ToolKind) (state : CoordinatorGraphState) :
    used kind (charged kind state) = used kind state + 1 := by
  cases kind with
  | _ => rfl

theorem used_charged_of_ne {kind other : ToolKind} (apart : other ≠ kind)
    (state : CoordinatorGraphState) :
    used other (charged kind state) = used other state := by
  cases kind with
  | queryBusiness =>
    cases other with
    | queryBusiness => exact absurd rfl apart
    | searchDocuments => rfl
    | explainSources => rfl
  | searchDocuments =>
    cases other with
    | queryBusiness => rfl
    | searchDocuments => exact absurd rfl apart
    | explainSources => rfl
  | explainSources =>
    cases other with
    | queryBusiness => rfl
    | searchDocuments => rfl
    | explainSources => exact absurd rfl apart

theorem used_congr {first second : CoordinatorGraphState}
    (queries : first.businessQueries = second.businessQueries)
    (searches : first.documentSearches = second.documentSearches)
    (restores : first.restores = second.restores) (kind : ToolKind) :
    used kind first = used kind second := by
  cases kind with
  | queryBusiness => exact queries
  | searchDocuments => exact searches
  | explainSources => exact restores

/-- What completing and observing an action leaves, before its charge. -/
def observedState (after : ActionLifecycle) (observation : Observation)
    (state : CoordinatorGraphState) : CoordinatorGraphState :=
  { state with
    lifecycle := after
    observations := state.observations ++ [observation] }

section Reported

variable {after : ActionLifecycle} {observation : Observation}
  {status : ActionStatus} {result : ActionResult}

theorem reports_of_charged {next : CoordinatorGraphState}
    (outcomes : after.outcomes = state.lifecycle.outcomes ++
      [outcomeOf request kind status result state])
    (settled : state.lifecycle.readyForModel = true → after.readyForModel = true)
    (isSeen : answers.observation = some observation)
    (same : { next with
        nextNode := state.nextNode, lastAction := state.lastAction
        draftTextKind := state.draftTextKind, explained := state.explained
        outOfScopePart := state.outOfScopePart } =
      charged kind (observedState after observation state))
    (route : next.nextNode = .decide ∧
        next.draftTextKind = state.draftTextKind ∨
      next.nextNode = .finish ∧ next.draftTextKind = .tableFallback ∧ after.outcomes.length = 1) :
    Reports answers kind state next := by
  have lifecycle : next.lifecycle = after := by
    have := congrArg CoordinatorGraphState.lifecycle same
    cases kind <;> exact this
  have decisions : next.decisions = state.decisions := by
    have := congrArg CoordinatorGraphState.decisions same
    cases kind <;> exact this
  have repairs : next.repairsUsed = state.repairsUsed := by
    have := congrArg CoordinatorGraphState.repairsUsed same
    cases kind <;> exact this
  have held : next.heldDraft = state.heldDraft := by
    have := congrArg CoordinatorGraphState.heldDraft same
    cases kind <;> exact this
  have observations : next.observations = state.observations ++ [observation] := by
    have := congrArg CoordinatorGraphState.observations same
    cases kind <;> exact this
  have terminal : next.terminal = state.terminal := by
    have := congrArg CoordinatorGraphState.terminal same
    cases kind <;> exact this
  have counted : ∀ other, used other next =
      used other (charged kind (observedState after observation state)) := by
    intro other
    rw [← same]
    apply used_congr
    · rfl
    · rfl
    · rfl
  have uncounted : ∀ other,
      used other (observedState after observation state) = used other state := by
    intro other
    apply used_congr
    · rfl
    · rfl
    · rfl
  exact {
    outcome := ⟨_, rfl, by rw [lifecycle, outcomes]⟩
    settled := by
      rw [lifecycle]
      exact settled
    decisions := decisions
    repairs := repairs
    held := held
    seen := ⟨observation, isSeen, observations⟩
    charged := by
      rw [counted, used_charged, uncounted]
    uncharged := by
      intro other apart
      rw [counted, used_charged_of_ne apart, uncounted]
    terminal := terminal
    route := by
      rw [lifecycle]
      exact route }

theorem closes_of_ended {terminal : CoordinatorTerminal}
    (outcomes : after.outcomes = state.lifecycle.outcomes ++
      [outcomeOf request kind status result state])
    (settled : state.lifecycle.readyForModel = true → after.readyForModel = true)
    (undrafted : ∀ draft, terminal ≠ .finished draft) :
    Closes kind state (ended terminal { state with lifecycle := after }) where
  outcome := ⟨_, rfl, outcomes⟩
  settled := settled
  decisions := rfl
  repairs := rfl
  held := rfl
  done := rfl
  terminal := ⟨terminal, rfl, undrafted⟩
  observations := rfl
  uncharged := used_congr rfl rfl rfl

end Reported

/-- A tool's step reports its action, or fails from outside. -/
def ReportsOrFails (answers : Answers) (kind : ToolKind) (state : CoordinatorGraphState) :
    Except Failure CoordinatorGraphState → Prop
  | .ok next => Reports answers kind state next
  | .error failure => FromOutside failure

variable {run : Except Failure CoordinatorGraphState}

theorem ReportsOrFails.steps (reports : ReportsOrFails answers kind state run)
    (node : state.nextNode = .tool kind) :
    StepsOrFails request answers state run := by
  cases run with
  | error failure => exact reports
  | ok next => exact .reports kind next node reports

theorem ReportsOrFails.explained (reports : ReportsOrFails answers kind state run) :
    ReportsOrFails answers kind state (run.map fun next => { next with explained := true }) := by
  cases run with
  | error failure => exact reports
  | ok next =>
    have counted : ∀ other, used other { next with explained := true } = used other next := by
      intro other
      apply used_congr
      · rfl
      · rfl
      · rfl
    exact {
      outcome := reports.outcome
      settled := reports.settled
      decisions := reports.decisions
      repairs := reports.repairs
      held := reports.held
      seen := reports.seen
      charged := (counted kind).trans reports.charged
      uncharged := by
        intro other apart
        exact (counted other).trans (reports.uncharged other apart)
      terminal := reports.terminal
      route := reports.route }

theorem reported_reports (consistent : Consistent request state)
    (begun : state.lifecycle.begin (actionId state) kind = .ok lifecycle)
    (status : ActionStatus) (result : ActionResult) :
    ReportsOrFails answers kind state (reported answers (outcomeOf request kind status result state)
      { state with lifecycle := lifecycle }) := by
  rcases completed_of_begin consistent begun status result with ⟨after, isDone, outcomes, settled⟩
  simp only [reported, isDone]
  cases isSeen : answers.observation with
  | none =>
    simp only [observed, isSeen]
    exact .inr rfl
  | some observation =>
    simp only [observed, isSeen]
    apply reports_of_charged outcomes settled isSeen
    · cases kind with
      | _ => rfl
    · left
      constructor
      · rfl
      · cases kind with
        | _ => rfl

theorem stopped_steps (consistent : Consistent request state) (node : state.nextNode = .tool kind)
    (begun : state.lifecycle.begin (actionId state) kind = .ok lifecycle)
    (status : ActionStatus) (result : ActionResult) (reason : StopReason) :
    StepsOrFails request answers state ((completed (outcomeOf request kind status result state)
        { state with lifecycle := lifecycle }).map (stopped reason)) := by
  rcases completed_of_begin consistent begun status result with ⟨after, isDone, outcomes, settled⟩
  rw [isDone]
  exact .closes kind _ node (closes_of_ended outcomes settled nofun)

theorem committedQuery_steps (consistent : Consistent request state)
    (node : state.nextNode = .tool .queryBusiness)
    (begun : state.lifecycle.begin (actionId state) .queryBusiness =
      .ok lifecycle) (action : QueryBusiness) (result : BusinessResult) :
    StepsOrFails request answers state (committedQuery request answers action
      result { state with lifecycle := lifecycle }) := by
  rcases completed_of_begin consistent begun .succeeded (.business result) with
    ⟨after, isDone, outcomes, settled⟩
  have isDone' : completed (outcomeOf request .queryBusiness .succeeded
      (.business result) { state with lifecycle := lifecycle })
        { state with lifecycle := lifecycle } =
      .ok { state with lifecycle := after } := isDone
  simp only [committedQuery, isDone']
  cases isSeen : answers.observation with
  | none =>
    simp only [observed, isSeen]
    exact .inr rfl
  | some observation =>
    simp only [observed, isSeen, bind, Except.bind]
    by_cases finishes : finishesWithoutNarration request action
        after.outcomes (state.observations ++ [observation]) = true
    · rw [if_pos finishes, tableDraft]
      by_cases sized : 1 ≤ result.head.length ∧ result.head.length ≤ 1600
      · rw [dif_pos sized]
        apply Superstep.reports .queryBusiness _ node
        apply reports_of_charged outcomes settled isSeen
        · rfl
        · right
          refine ⟨rfl, rfl, ?_⟩
          simp only [finishesWithoutNarration, Bool.and_eq_true] at finishes
          have single := finishes.1.1.2
          split at single
          · rename_i isSingle
            rw [isSingle]
            rfl
          · cases single
      · rw [dif_neg sized]
        exact .inr rfl
    · rw [if_neg finishes]
      apply Superstep.reports .queryBusiness _ node
      apply reports_of_charged outcomes settled isSeen
      · rfl
      · exact .inl ⟨rfl, rfl⟩

theorem uncommittedQuery_steps (consistent : Consistent request state)
    (node : state.nextNode = .tool .queryBusiness)
    (begun : state.lifecycle.begin (actionId state) .queryBusiness =
      .ok lifecycle) (result : BusinessResult) :
    StepsOrFails request answers state (uncommittedQuery request answers result
      { state with lifecycle := lifecycle }) := by
  rcases completed_of_begin consistent begun (uncommittedStatus result)
    (.business result) with ⟨after, isDone, outcomes, settled⟩
  have isDone' : completed (outcomeOf request .queryBusiness
      (uncommittedStatus result) (.business result) { state with lifecycle := lifecycle })
        { state with lifecycle := lifecycle } =
      .ok { state with lifecycle := after } := isDone
  simp only [uncommittedQuery, isDone', bind, Except.bind]
  by_cases ends : businessResultEndsTurn result after.outcomes = true
  · rw [if_pos ends]
    apply Superstep.closes .queryBusiness _ node
    apply closes_of_ended outcomes settled
    rintro _ ⟨⟩
  · rw [if_neg ends]
    cases isSeen : answers.observation with
    | none =>
      simp only [observed, isSeen]
      exact .inr rfl
    | some observation =>
      simp only [observed, isSeen]
      apply Superstep.reports .queryBusiness _ node
      apply reports_of_charged outcomes settled isSeen
      · rfl
      · exact .inl ⟨rfl, rfl⟩

theorem toolNode_steps (consistent : Consistent request state)
    (node : state.nextNode = .tool kind) :
    StepsOrFails request answers state (toolNode request kind answers state) := by
  have atNode := consistent.atNode
  rw [ActionAtNode, node] at atNode
  rcases atNode with ⟨action, isAction, isKind⟩
  cases begun : state.lifecycle.begin (actionId state) kind with
  | error failure =>
    have stops : toolNode request kind answers state =
        .ok (stopped .actionProtocolError state) := by
      cases action <;> cases isKind <;> simp only [toolNode, isAction, begun]
    rw [stops]
    apply Superstep.stops
    rw [node]
    rintro ⟨⟩
  | ok lifecycle =>
    have reports := @reported_reports request answers state kind lifecycle consistent begun
    have stops := @stopped_steps request answers state kind lifecycle consistent node begun
    cases action with
    | queryBusiness action =>
      cases isKind
      have isRun : toolNode request .queryBusiness answers state =
          queryBusiness request answers action { state with lifecycle := lifecycle } := by
        simp only [toolNode, isAction, begun]
      rw [isRun, queryBusiness]
      cases answers.query with
      | deadlineExpired => exact stops .timedOut .nothing .budgetExpired
      | raised => exact (reports .failed .error).steps node
      | committed result =>
        exact committedQuery_steps consistent node begun action result
      | uncommitted result =>
        exact uncommittedQuery_steps consistent node begun result
    | searchDocuments question =>
      cases isKind
      have isRun : toolNode request .searchDocuments answers state =
          searchDocuments request answers { state with lifecycle := lifecycle } := by
        simp only [toolNode, isAction, begun]
      rw [isRun, searchDocuments]
      cases answers.search with
      | deadlineExpired => exact stops .timedOut .nothing .budgetExpired
      | raised => exact (reports .failed .error).steps node
      | found passages =>
        exact (reports .succeeded (.documents passages)).steps node
      | failed timeout =>
        exact (reports (if timeout then .timedOut else .failed)
          (.documentFailure timeout)).steps node
    | explainSources positions =>
      cases isKind
      have isRun : toolNode request .explainSources answers state =
          explainSources request answers { state with lifecycle := lifecycle } := by
        simp only [toolNode, isAction, begun]
      rw [isRun, explainSources]
      cases answers.explain with
      | deadlineExpired => exact stops .timedOut .nothing .budgetExpired
      | raised => exact (reports .failed .error).steps node
      | unavailable => exact stops .failed .nothing .explanationUnavailable
      | restored turns =>
        exact (reports .succeeded (.sources turns)).explained.steps node
    | finishAnswer action => cases isKind
    | clarify action => cases isKind

/-- Whatever a superstep does, it is one of these. -/
theorem advance_steps (consistent : Consistent request state) :
    StepsOrFails request answers state (advance request answers state) := by
  unfold advance
  cases node : state.nextNode with
  | decide => exact decideNode_steps node
  | finish => exact finishNode_steps consistent node
  | clarify => exact clarifyNode_steps consistent node
  | tool kind => exact toolNode_steps consistent node
  | done => exact .rests node

end Steps

end McpAssistant.Conversation.CoordinatorSteps
