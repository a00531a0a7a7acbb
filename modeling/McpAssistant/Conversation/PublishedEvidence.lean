import McpAssistant.Conversation.CoordinatorSteps

/-!
# Published evidence

A draft that ends a turn, or that the turn holds, cites only evidence that an
observation carries, and only a tool's outcome puts evidence into an
observation.  So whatever a turn publishes cites evidence its own tools
returned.
-/

namespace McpAssistant.Conversation.PublishedEvidence

open Contracts DraftChecks CoordinatorGraph HeldDraft CoordinatorSteps Foundations.Fallible

/-- Everything the draft cites is carried by some observation. -/
def Cites (draft : FinishAnswer) (observations : List Observation) : Prop :=
  ∀ id ∈ citedIds draft, ∃ observation ∈ observations, id ∈ observation.evidenceIds

variable {draft : FinishAnswer}

theorem cites_of_citationProblem {facts : DraftFacts} (kept : citationProblem draft facts = none) :
    Cites draft facts.observations := by
  intro id cited
  rw [← List.mem_flatMap]
  by_contra unknown
  have invented : id ∈ (citedIds draft).filter fun id =>
      !(facts.observations.flatMap Observation.evidenceIds).contains id := by
    apply List.mem_filter.mpr
    refine ⟨cited, ?_⟩
    rw [Bool.not_eq_true', ← Bool.not_eq_true, List.contains_iff_mem]
    exact unknown
  unfold citationProblem at kept
  dsimp only at kept
  split at kept
  · cases kept
  · split at kept
    · cases kept
    · rename_i filled
      rw [Bool.not_eq_true, Bool.not_eq_false', List.isEmpty_iff] at filled
      rw [filled] at invented
      cases invented

theorem Cites.mono {observations : List Observation}
    (cites : Cites draft observations) (later : List Observation) :
    Cites draft (observations ++ later) := by
  intro id cited
  rcases cites id cited with ⟨observation, seen, carries⟩
  exact ⟨observation, List.mem_append_left _ seen, carries⟩

theorem citedIds_withRedirect (part : Option ScopePart) (draft : FinishAnswer) :
    citedIds (withRedirect part draft) = citedIds draft := by
  unfold withRedirect
  split
  · rfl
  · split
    · rw [citedIds, List.flatMap_append]
      exact List.append_nil _
    · rfl

/-- The draft a turn holds, or ends with, cites what was observed. -/
structure Grounded (state : CoordinatorGraphState) : Prop where
  held : ∀ draft, state.heldDraft = some draft → Cites draft.draft state.observations
  terminal : ∀ draft, state.terminal = some (.finished draft) → Cites draft.draft state.observations

section Steps

variable {request : Request} {answers : Answers} {state next : CoordinatorGraphState}

theorem cites_publishedDraft {action : FinishAnswer}
    (cited : citationProblem action (draftFacts request state) = none) :
    Cites (publishedDraft state action).draft state.observations := by
  intro id listed
  rw [publishedDraft, citedIds_withRedirect] at listed
  exact cites_of_citationProblem cited id listed

theorem cites_of_mayHold {held : Option FinishedDraft}
    (mayHold : MayHold request state held) (grounded : Grounded state) :
    ∀ draft, held = some draft → Cites draft.draft state.observations := by
  intro draft isHeld
  cases mayHold with
  | same => exact grounded.held draft isHeld
  | none => cases isHeld
  | draft action cited =>
    cases isHeld
    exact cites_publishedDraft cited

theorem grounded_step (grounded : Grounded state)
    (step : Superstep request answers state next) : Grounded next := by
  cases step with
  | rests done => exact grounded
  | stops reason running => exact ⟨grounded.held, nofun⟩
  | decides action node asked allowed => exact ⟨grounded.held, grounded.terminal⟩
  | repairs name repair held node unused uncited mayHold =>
    constructor
    · intro draft isHeld
      exact (cites_of_mayHold mayHold grounded draft isHeld).mono [repair]
    · intro draft ends
      exact (grounded.terminal draft ends).mono [repair]
  | publishes action node cited =>
    constructor
    · exact grounded.held
    · intro draft ends
      cases ends
      exact cites_publishedDraft cited
  | asks action node => exact ⟨grounded.held, nofun⟩
  | reports kind next node reported =>
    rcases reported.seen with ⟨observation, _, observations⟩
    constructor
    · intro draft isHeld
      rw [reported.held] at isHeld
      rw [observations]
      exact (grounded.held draft isHeld).mono [observation]
    · intro draft ends
      rw [reported.terminal] at ends
      rw [observations]
      exact (grounded.terminal draft ends).mono [observation]
  | closes kind next node closed =>
    constructor
    · intro draft isHeld
      rw [closed.held] at isHeld
      rw [closed.observations]
      exact grounded.held draft isHeld
    · intro draft ends
      rcases closed.terminal with ⟨terminal, isTerminal, undrafted⟩
      rw [isTerminal] at ends
      cases ends
      exact absurd rfl (undrafted draft)

end Steps

section Turns

variable (request : Request) (answers : Nat → Answers)

/-- At this superstep a tool of the turn ran, and the observation is what the
model reads of its outcome. -/
def Returned (step : Nat) (observation : Observation) : Prop :=
  ∃ state next kind, stateAt request answers step = .ok state ∧ state.nextNode = .tool kind ∧
    stateAt request answers (step + 1) = .ok next ∧
    (answers step).observation = some observation ∧
    next.observations = state.observations ++ [observation]

variable {request answers} {step : Nat}

theorem superstep_of_stateAt {next : CoordinatorGraphState}
    (reached : stateAt request answers (step + 1) = .ok next) :
    ∃ state, stateAt request answers step = .ok state ∧ Consistent request state ∧
      Superstep request (answers step) state next := by
  rw [stateAt, bind_eq_ok] at reached
  rcases reached with ⟨state, before, stepped⟩
  have consistent := consistent_stateAt request answers before
  have steps := @advance_steps request (answers step) state consistent
  rw [stepped] at steps
  exact ⟨state, before, consistent, steps⟩

variable {state : CoordinatorGraphState}

theorem grounded_stateAt (reached : stateAt request answers step = .ok state) : Grounded state := by
  induction step generalizing state with
  | zero =>
    cases reached
    exact ⟨nofun, nofun⟩
  | succ step ih =>
    rcases superstep_of_stateAt reached with ⟨before, isBefore, _, stepped⟩
    exact grounded_step (ih isBefore) stepped

theorem returned_of_observed (reached : stateAt request answers step = .ok state)
    {observation : Observation} (seen : observation ∈ state.observations)
    {id : String} (carries : id ∈ observation.evidenceIds) :
    ∃ earlier < step, Returned request answers earlier observation := by
  induction step generalizing state with
  | zero =>
    cases reached
    cases seen
  | succ step ih =>
    rcases superstep_of_stateAt reached with ⟨before, isBefore, _, stepped⟩
    have earlier : observation ∈ before.observations →
        ∃ earlier < step + 1, Returned request answers earlier observation := by
      intro old
      rcases ih isBefore old with ⟨earlier, isEarlier, returned⟩
      exact ⟨earlier, Nat.lt_succ_of_lt isEarlier, returned⟩
    cases stepped with
    | repairs name repair held node unused uncited mayHold =>
      rcases List.mem_append.mp seen with old | new
      · exact earlier old
      · cases List.mem_singleton.mp new
        rw [uncited] at carries
        cases carries
    | reports kind next node reported =>
      rcases reported.seen with ⟨own, isSeen, observations⟩
      rw [observations] at seen
      rcases List.mem_append.mp seen with old | new
      · exact earlier old
      · cases List.mem_singleton.mp new
        exact ⟨step, Nat.lt_succ_self step, before, state, kind, isBefore,
          node, reached, isSeen, observations⟩
    | closes kind next node closed =>
      rw [closed.observations] at seen
      exact earlier seen
    | _ => exact earlier seen

theorem publish_eq_finished {draft : FinishedDraft} (published : publish state = .finished draft) :
    state.terminal = some (.finished draft) ∨ state.heldDraft = some draft := by
  cases isTerminal : state.terminal with
  | none =>
    simp only [publish, isTerminal, Option.getD_none] at published
    cases isHeld : state.heldDraft with
    | none =>
      rw [isHeld] at published
      cases published
    | some held =>
      rw [isHeld] at published
      cases published
      exact .inr rfl
  | some terminal =>
    simp only [publish, isTerminal, Option.getD_some] at published
    split at published
    · split at published
      · rename_i isHeld _
        cases published
        exact .inr isHeld
      · cases published
    · rw [published]
      exact .inl rfl

/-- Whatever draft a turn publishes cites only evidence that the tools of the
same turn returned. -/
theorem published_evidence_returned (request : Request)
    (answers : Nat → Answers) (published : FinishedDraft)
    (publishes : runCoordinatorTurn request answers = .ok (.finished published)) :
    ∀ id ∈ citedIds published.draft, ∃ step < recursionLimit,
      ∃ observation, Returned request answers step observation ∧ id ∈ observation.evidenceIds := by
  intro id cited
  rcases bind_eq_ok.mp publishes with ⟨final, reached, ends⟩
  split at ends
  · have grounded := grounded_stateAt reached
    have cites : Cites published.draft final.observations := by
      rcases publish_eq_finished (Except.ok.inj ends) with accepted | held
      · exact grounded.terminal published accepted
      · exact grounded.held published held
    rcases cites id cited with ⟨observation, seen, carries⟩
    rcases returned_of_observed reached seen carries with
      ⟨step, isStep, returned⟩
    exact ⟨step, isStep, observation, returned, carries⟩
  · cases ends

end Turns

def salesQuestion : Request where
  context := { turnId := "t1", question := "How are sales?" }
  available := [.queryBusiness]
  reading := plainReading

def salesRose : FinishAnswer where
  blocks := [{
    text := "Sales rose.", evidenceIds := ["act-1"], claimType := .evidence }]

def salesObservation : Observation where
  actionId := "act-1"
  kind := .action .queryBusiness
  status := .succeeded
  evidenceIds := ["act-1"]

/-- The model asks for the sales, and answers from them. -/
def salesTurn : Nat → Answers
  | 0 => { first := .action (.queryBusiness { question := "Sales", compound := true }) }
  | 1 => {
      query := .committed { disposition := .answered }
      observation := some salesObservation }
  | _ => { first := .action (.finishAnswer salesRose) }

def salesDraft : FinishedDraft where
  draft := salesRose
  observations := [salesObservation]
  outcomes := [{
    turnId := "t1", actionId := "act-1", kind := .queryBusiness
    status := .succeeded, result := .business { disposition := .answered } }]
  answerMode := none

theorem eq_ok_of_toOption {Failure Value : Type} {run : Except Failure Value}
    {value : Value} (found : run.toOption = some value) : run = .ok value := by
  cases run with
  | error failure => cases found
  | ok other =>
    cases found
    rfl

theorem salesTurn_publishes : runCoordinatorTurn salesQuestion salesTurn =
    .ok (.finished salesDraft) := by
  apply eq_ok_of_toOption
  decide +kernel

theorem published_evidence_returned_salesTurn :
    "act-1" ∈ citedIds salesDraft.draft ∧ ∃ step < recursionLimit,
      ∃ observation, Returned salesQuestion salesTurn step observation ∧
        "act-1" ∈ observation.evidenceIds := by
  have cited : "act-1" ∈ citedIds salesDraft.draft := by decide
  exact ⟨cited, published_evidence_returned salesQuestion salesTurn salesDraft
    salesTurn_publishes "act-1" cited⟩

end McpAssistant.Conversation.PublishedEvidence
