import McpAssistant.Conversation.PublishedEvidence
import Mathlib.Data.Nat.Count

/-!
# Bounds on a turn

A decision takes at most one node more, and one table's draft one node beyond
that, so the decisions bound the supersteps.  Each tool and each repair has a
count of its own.  A turn that ends leaves no action pending.
-/

namespace McpAssistant.Conversation.TurnBounds

open Contracts CoordinatorGraph HeldDraft CoordinatorSteps PublishedEvidence
  List

/-- The policy's limits hold, no action is pending, and a turn that is done has
its terminal. -/
structure Within (request : Request) (state : CoordinatorGraphState) : Prop where
  decisions : state.decisions ≤ request.policy.maxDecisions
  tools : ∀ kind, used kind state ≤ maximum request.policy kind
  atTool : ∀ kind, state.nextNode = .tool kind → used kind state < maximum request.policy kind
  repairs : state.repairsUsed.Nodup
  ready : state.lifecycle.readyForModel = true
  ends : state.nextNode = .done → state.terminal.isSome = true
  tableDraft : state.draftTextKind = .tableFallback → state.lifecycle.outcomes ≠ []

section Steps

variable {request : Request} {answers : Answers} {state next : CoordinatorGraphState}

theorem decisions_of_asked (asked : preDecisionStop request answers state = none) :
    state.decisions < request.policy.maxDecisions := by
  unfold preDecisionStop at asked
  split at asked
  · cases asked
  · split at asked
    · cases asked
    · split at asked
      · cases asked
      · rename_i within
        exact not_le.mp within

/-- A tool is offered only below its own maximum. -/
theorem used_of_allowed {kind : ToolKind}
    (allowed : ActionName.tool kind ∈ nextAllowed request state) :
    used kind state < maximum request.policy kind := by
  unfold nextAllowed allowedActions at allowed
  dsimp only at allowed
  split at allowed
  · split at allowed
    · simp at allowed
    · simp at allowed
  · have offered := (List.mem_filter.mp allowed).2
    cases kind with
    | queryBusiness =>
      simp only [Bool.and_eq_true, decide_eq_true_eq] at offered
      exact offered.2
    | searchDocuments =>
      simp only [Bool.and_eq_true, decide_eq_true_eq] at offered
      exact offered.2
    | explainSources =>
      simp only [Bool.and_eq_true, decide_eq_true_eq] at offered
      exact offered.1.2

theorem nodeOf_tool {name : ActionName} {kind : ToolKind}
    (node : nodeOf name = .tool kind) : name = .tool kind := by
  cases name with
  | tool other =>
    cases node
    rfl
  | finishAnswer => cases node
  | clarify => cases node

theorem within_ended (within : Within request state)
    (terminal : CoordinatorTerminal) : Within request (ended terminal state) :=
  { within with
    tools := by
      intro kind
      cases kind with
      | queryBusiness => exact within.tools .queryBusiness
      | searchDocuments => exact within.tools .searchDocuments
      | explainSources => exact within.tools .explainSources
    atTool := nofun
    ends := fun _ => rfl }

theorem within_step (within : Within request state)
    (step : Superstep request answers state next) : Within request next := by
  cases step with
  | rests done => exact within
  | decides action node asked allowed =>
    constructor
    · exact decisions_of_asked asked
    · intro kind
      cases kind with
      | queryBusiness => exact within.tools .queryBusiness
      | searchDocuments => exact within.tools .searchDocuments
      | explainSources => exact within.tools .explainSources
    · intro kind isTool
      rw [nodeOf_tool isTool] at allowed
      have below := used_of_allowed allowed
      cases kind with
      | _ => exact below
    · exact within.repairs
    · exact within.ready
    · intro isDone
      cases action with
      | _ => cases isDone
    · exact within.tableDraft
  | repairs name repair held node unused uncited mayHold =>
    constructor
    · exact within.decisions
    · intro kind
      cases kind with
      | queryBusiness => exact within.tools .queryBusiness
      | searchDocuments => exact within.tools .searchDocuments
      | explainSources => exact within.tools .explainSources
    · exact nofun
    · exact List.nodup_cons.mpr ⟨unused, within.repairs⟩
    · exact within.ready
    · exact nofun
    · exact within.tableDraft
  | reports kind next node reported =>
    have below := within.atTool kind node
    have notTool : ∀ other, next.nextNode ≠ .tool other := by
      intro other isTool
      rcases reported.route with ⟨decide, _⟩ | ⟨finish, _⟩
      · rw [decide] at isTool
        cases isTool
      · rw [finish] at isTool
        cases isTool
    constructor
    · rw [reported.decisions]
      exact within.decisions
    · intro other
      by_cases same : other = kind
      · rw [same, reported.charged]
        exact below
      · rw [reported.uncharged other same]
        exact within.tools other
    · intro other isTool
      exact absurd isTool (notTool other)
    · rw [reported.repairs]
      exact within.repairs
    · exact reported.settled within.ready
    · intro isDone
      rcases reported.route with ⟨decide, _⟩ | ⟨finish, _⟩
      · rw [decide] at isDone
        cases isDone
      · rw [finish] at isDone
        cases isDone
    · intro _ none
      rcases reported.outcome with ⟨outcome, _, outcomes⟩
      rw [outcomes] at none
      exact append_ne_nil_of_right_ne_nil _ (cons_ne_nil _ _) none
  | closes kind next node closed =>
    have notTool : ∀ other, next.nextNode ≠ .tool other := by
      intro other isTool
      rw [closed.done] at isTool
      cases isTool
    constructor
    · rw [closed.decisions]
      exact within.decisions
    · intro other
      rw [closed.uncharged]
      exact within.tools other
    · intro other isTool
      exact absurd isTool (notTool other)
    · rw [closed.repairs]
      exact within.repairs
    · exact closed.settled within.ready
    · intro _
      rcases closed.terminal with ⟨terminal, isTerminal, _⟩
      rw [isTerminal]
      rfl
    · intro _ none
      rcases closed.outcome with ⟨outcome, _, outcomes⟩
      rw [outcomes] at none
      exact append_ne_nil_of_right_ne_nil _ (cons_ne_nil _ _) none
  | _ => exact within_ended within _

/-- One for the draft a table made, which no decision did. -/
def tableDrafts (state : CoordinatorGraphState) : Nat :=
  if state.draftTextKind = .tableFallback then 1 else 0

/-- While a turn runs, its decisions and its table's draft say how many
supersteps it has taken. -/
def Clocked (steps : Nat) (state : CoordinatorGraphState) : Prop :=
  (state.nextNode = .decide → steps = 2 * state.decisions + tableDrafts state) ∧
    (state.nextNode ≠ .decide → state.nextNode ≠ .done →
      steps + 1 = 2 * state.decisions + tableDrafts state)

variable {steps : Nat}

theorem clocked_of_done (done : state.nextNode = .done) : Clocked steps state := by
  constructor
  · intro isDecide
    rw [done] at isDecide
    cases isDecide
  · intro _ running
    exact absurd done running

theorem clocked_step (within : Within request state) (clocked : Clocked steps state)
    (step : Superstep request answers state next) :
    Clocked (steps + 1) next := by
  cases step with
  | rests done => exact clocked_of_done done
  | decides action node asked allowed =>
    have before := clocked.1 node
    constructor
    · intro isDecide
      cases action with
      | _ => cases isDecide
    · intro _ _
      show steps + 1 + 1 = 2 * (state.decisions + 1) + tableDrafts state
      omega
  | repairs name repair held node unused uncited mayHold =>
    constructor
    · intro _
      show steps + 1 = 2 * state.decisions + tableDrafts state
      rcases node with finish | clarify
      · apply clocked.2
        · rw [finish]
          exact nofun
        · rw [finish]
          exact nofun
      · apply clocked.2
        · rw [clarify]
          exact nofun
        · rw [clarify]
          exact nofun
    · intro notDecide
      exact absurd rfl notDecide
  | reports kind next node reported =>
    have before : steps + 1 = 2 * state.decisions + tableDrafts state := by
      apply clocked.2
      · rw [node]
        exact nofun
      · rw [node]
        exact nofun
    rcases reported.route with ⟨decide, sameText⟩ | ⟨finish, isTable, single⟩
    · constructor
      · intro _
        rw [reported.decisions, tableDrafts, sameText]
        exact before
      · intro notDecide
        exact absurd decide notDecide
    · -- the table's draft comes from the turn's first outcome
      have first : state.draftTextKind ≠ .tableFallback := by
        intro drafted
        rcases reported.outcome with ⟨outcome, _, outcomes⟩
        rw [outcomes, length_append, length_singleton] at single
        apply within.tableDraft drafted
        exact eq_nil_of_length_eq_zero (Nat.succ.inj single)
      constructor
      · intro isDecide
        rw [finish] at isDecide
        cases isDecide
      · intro _ _
        rw [tableDrafts, if_neg first] at before
        rw [reported.decisions, tableDrafts, if_pos isTable, before]
  | closes kind next node closed => exact clocked_of_done closed.done
  | _ => exact clocked_of_done rfl

/-- A turn that still runs has taken at most two supersteps a decision and one
more. -/
theorem steps_of_clocked (within : Within request state)
    (clocked : Clocked steps state) (running : state.nextNode ≠ .done) :
    steps ≤ 2 * request.policy.maxDecisions + 1 := by
  have decisions := within.decisions
  have drafts : tableDrafts state ≤ 1 := by
    unfold tableDrafts
    split
    · exact le_refl 1
    · exact Nat.zero_le 1
  by_cases isDecide : state.nextNode = .decide
  · have counted := clocked.1 isDecide
    omega
  · have counted := clocked.2 isDecide running
    omega

end Steps

section Turns

variable (request : Request) (answers : Nat → Answers)

def asksModel (step : Nat) : Bool :=
  match stateAt request answers step with
  | .ok state => state.nextNode == .decide && (preDecisionStop request (answers step) state).isNone
  | .error _ => false

def runsTool (kind : ToolKind) (step : Nat) : Bool :=
  match stateAt request answers step with
  | .ok state => state.nextNode == .tool kind
  | .error _ => false

/-- The superstep sends the model back for the rule. -/
def repairsRule (name : String) (step : Nat) : Bool :=
  match stateAt request answers step, stateAt request answers (step + 1) with
  | .ok state, .ok next => next.repairsUsed == name :: state.repairsUsed
  | _, _ => false

variable {request answers} {steps : Nat} {state : CoordinatorGraphState}

theorem within_stateAt (ready : request.lifecycle.readyForModel = true)
    (reached : stateAt request answers steps = .ok state) :
    Within request state := by
  induction steps generalizing state with
  | zero =>
    cases reached
    constructor
    · exact Nat.zero_le _
    · intro kind
      cases kind with
      | _ => exact Nat.zero_le _
    · exact nofun
    · exact nodup_nil
    · exact ready
    · exact nofun
    · exact nofun
  | succ steps ih =>
    rcases superstep_of_stateAt reached with ⟨before, isBefore, _, stepped⟩
    exact within_step (ih isBefore) stepped

theorem clocked_stateAt (ready : request.lifecycle.readyForModel = true)
    (reached : stateAt request answers steps = .ok state) :
    Clocked steps state := by
  induction steps generalizing state with
  | zero =>
    cases reached
    exact ⟨fun _ => rfl, fun notDecide => absurd rfl notDecide⟩
  | succ steps ih =>
    rcases superstep_of_stateAt reached with ⟨before, isBefore, _, stepped⟩
    exact clocked_step (within_stateAt ready isBefore) (ih isBefore) stepped

structure Counts (counted : Nat → Bool) (bound : Nat)
    (measure : CoordinatorGraphState → Nat) : Prop where
  starts : measure (initialState request) = 0
  failed : ∀ step failure, stateAt request answers step = .error failure → counted step = false
  done : ∀ step state, stateAt request answers step = .ok state →
    state.nextNode = .done → counted step = false
  below : ∀ step state, stateAt request answers step = .ok state →
    counted step = true → measure state < bound
  follows : ∀ step state next, stateAt request answers step = .ok state →
    stateAt request answers (step + 1) = .ok next → next.nextNode ≠ .done →
      measure next = measure state + if counted step = true then 1 else 0

theorem Counts.count_le {counted : Nat → Bool} {bound : Nat} {measure : CoordinatorGraphState → Nat}
    (counts : @Counts request answers counted bound measure) (steps : Nat) :
    Nat.count (fun step => counted step = true) steps ≤ bound ∧
      ∀ state, stateAt request answers steps = .ok state → state.nextNode ≠ .done →
          Nat.count (fun step => counted step = true) steps = measure state := by
  induction steps with
  | zero =>
    rw [Nat.count_zero]
    refine ⟨Nat.zero_le _, ?_⟩
    intro state reached _
    cases reached
    exact counts.starts.symm
  | succ steps ih =>
    rw [Nat.count_succ]
    cases before : stateAt request answers steps with
    | error failure =>
      have uncounted := counts.failed steps failure before
      rw [if_neg (by rw [uncounted]; exact Bool.false_ne_true)]
      refine ⟨ih.1, ?_⟩
      intro state reached
      rw [stateAt, before] at reached
      cases reached
    | ok state =>
      by_cases done : state.nextNode = .done
      · have uncounted := counts.done steps state before done
        rw [if_neg (by rw [uncounted]; exact Bool.false_ne_true)]
        refine ⟨ih.1, ?_⟩
        intro next reached running
        rw [stateAt_succ_of_ok request answers before, advance, done] at reached
        cases reached
        exact absurd done running
      · have measured := ih.2 state before done
        constructor
        · split
          · rename_i isCounted
            rw [measured]
            exact counts.below steps state before isCounted
          · exact ih.1
        · intro next reached running
          rw [measured]
          exact (counts.follows steps state next before reached running).symm

theorem counts_asksModel : @Counts request answers (asksModel request answers)
      request.policy.maxDecisions CoordinatorGraphState.decisions where
  starts := rfl
  failed := by
    intro step failure reached
    rw [asksModel, reached]
  done := by
    intro step state reached done
    rw [asksModel, reached]
    dsimp only
    rw [done]
    rfl
  below := by
    intro step state reached asked
    rw [asksModel, reached] at asked
    dsimp only at asked
    rw [Bool.and_eq_true, Option.isNone_iff_eq_none] at asked
    exact decisions_of_asked asked.2
  follows := by
    intro step state next reached after running
    have asksAt : asksModel request answers step = (state.nextNode == .decide &&
          (preDecisionStop request (answers step) state).isNone) := by
      rw [asksModel, reached]
    rcases superstep_of_stateAt after with ⟨before, isBefore, _, stepped⟩
    rw [reached] at isBefore
    cases isBefore
    rw [asksAt]
    cases stepped with
    | rests done => exact absurd done running
    | decides action node asked allowed =>
      rw [node, asked]
      rfl
    | repairs name repair held node unused uncited mayHold =>
      rcases node with finish | clarify
      · rw [finish]
        rfl
      · rw [clarify]
        rfl
    | reports kind next node reported =>
      rw [node, reported.decisions]
      rfl
    | closes kind next node closed => exact absurd closed.done running
    | _ => exact absurd rfl running

theorem counts_runsTool (ready : request.lifecycle.readyForModel = true) (kind : ToolKind) :
    @Counts request answers (runsTool request answers kind)
      (maximum request.policy kind) (used kind) where
  starts := by
    cases kind with
    | _ => rfl
  failed := by
    intro step failure reached
    rw [runsTool, reached]
  done := by
    intro step state reached done
    rw [runsTool, reached]
    dsimp only
    rw [done]
    rfl
  below := by
    intro step state reached runs
    rw [runsTool, reached] at runs
    exact (within_stateAt ready reached).atTool kind (beq_iff_eq.mp runs)
  follows := by
    intro step state next reached after running
    have runsAt : runsTool request answers kind step = (state.nextNode == .tool kind) := by
      rw [runsTool, reached]
    rcases superstep_of_stateAt after with ⟨before, isBefore, _, stepped⟩
    rw [reached] at isBefore
    cases isBefore
    rw [runsAt]
    cases stepped with
    | rests done => exact absurd done running
    | decides action node asked allowed =>
      rw [node]
      cases kind with
      | _ => rfl
    | repairs name repair held node unused uncited mayHold =>
      have idle : (state.nextNode == .tool kind) = false := by
        rcases node with finish | clarify
        · rw [finish]
          rfl
        · rw [clarify]
          rfl
      rw [idle]
      cases kind with
      | _ => rfl
    | reports other next node reported =>
      rw [node]
      by_cases same : kind = other
      · rw [same, beq_self_eq_true, if_pos rfl]
        exact reported.charged
      · have apart : ((Node.tool other) == .tool kind) = false := by
          apply beq_false_of_ne
          intro equal
          cases equal
          exact same rfl
        rw [apart, if_neg Bool.false_ne_true]
        exact reported.uncharged kind same
    | closes other next node closed => exact absurd closed.done running
    | _ => exact absurd rfl running

theorem counts_repairsRule (ready : request.lifecycle.readyForModel = true) (name : String) :
    @Counts request answers (repairsRule request answers name) 1
      (fun state => state.repairsUsed.count name) where
  starts := rfl
  failed := by
    intro step failure reached
    rw [repairsRule, reached]
  done := by
    intro step state reached done
    rw [repairsRule, stateAt_succ_of_ok request answers reached, advance, done, reached]
    exact beq_false_of_ne (cons_ne_self name _).symm
  below := by
    intro step state reached repairs
    rw [repairsRule, reached] at repairs
    cases after : stateAt request answers (step + 1) with
    | error failure =>
      rw [after] at repairs
      cases repairs
    | ok next =>
      rw [after] at repairs
      have used := (within_stateAt ready after).repairs
      rw [beq_iff_eq.mp repairs, nodup_cons] at used
      show state.repairsUsed.count name < 1
      rw [count_eq_zero_of_not_mem used.1]
      exact Nat.zero_lt_one
  follows := by
    intro step state next reached after running
    have repairsAt : repairsRule request answers name step =
        (next.repairsUsed == name :: state.repairsUsed) := by
      rw [repairsRule, reached, after]
    have unrepaired : next.repairsUsed = state.repairsUsed →
        next.repairsUsed.count name = state.repairsUsed.count name +
          if repairsRule request answers name step = true then 1 else 0 := by
      intro same
      have none : (next.repairsUsed == name :: state.repairsUsed) = false := by
        rw [same]
        exact beq_false_of_ne (cons_ne_self name _).symm
      rw [repairsAt, none, same]
      rfl
    rcases superstep_of_stateAt after with ⟨before, isBefore, _, stepped⟩
    rw [reached] at isBefore
    cases isBefore
    cases stepped with
    | rests done => exact absurd done running
    | decides action node asked allowed => exact unrepaired rfl
    | repairs other repair held node unused uncited mayHold =>
      dsimp only
      rw [repairsAt, count_cons]
      dsimp only
      by_cases same : other = name
      · rw [same]
        simp
      · rw [if_neg (by simpa using same), if_neg]
        simpa using same
    | reports kind next node reported => exact unrepaired reported.repairs
    | closes kind next node closed => exact absurd closed.done running
    | _ => exact absurd rfl running

/-- No failure comes from the graph itself. -/
theorem fromOutside_of_stateAt {failure : Failure}
    (failed : stateAt request answers steps = .error failure) :
    FromOutside failure := by
  induction steps with
  | zero => cases failed
  | succ steps ih =>
    cases before : stateAt request answers steps with
    | error earlier =>
      rw [stateAt, before] at failed
      cases failed
      exact ih before
    | ok state =>
      rw [stateAt_succ_of_ok request answers before] at failed
      have consistent := consistent_stateAt request answers before
      have steps := @advance_steps request (answers steps) state consistent
      rw [failed] at steps
      exact steps

/-- How a turn ends: with a terminal and no pending action, with a failure from
outside, or past the graph's limit where its decisions may need more. -/
def EndsWell (request : Request) (answers : Nat → Answers) :
    Except Failure CoordinatorTerminal → Prop
  | .ok terminal => ∃ final, stateAt request answers recursionLimit = .ok final ∧
        final.terminal.isSome = true ∧ terminal = publish final ∧
        final.lifecycle.readyForModel = true
  | .error failure => FromOutside failure ∨ failure = .recursionLimit ∧
        recursionLimit < 2 * request.policy.maxDecisions + 2

theorem endsWell_runCoordinatorTurn (ready : request.lifecycle.readyForModel = true) :
    EndsWell request answers (runCoordinatorTurn request answers) := by
  unfold runCoordinatorTurn
  cases reached : stateAt request answers recursionLimit with
  | error failure => exact .inl (fromOutside_of_stateAt reached)
  | ok final =>
    have within := within_stateAt ready reached
    show EndsWell request answers (if final.nextNode = .done then
      .ok (publish final) else .error .recursionLimit)
    by_cases done : final.nextNode = .done
    · rw [if_pos done]
      exact ⟨final, reached, within.ends done, rfl, within.ready⟩
    · rw [if_neg done]
      have steps := steps_of_clocked within (clocked_stateAt ready reached) done
      exact .inr ⟨rfl, by omega⟩

/-- A turn that starts with nothing pending keeps the limits of its policy, and
ends well. -/
theorem coordinator_turn_bounded (request : Request) (answers : Nat → Answers)
    (ready : request.lifecycle.readyForModel = true) :
    (∀ steps, Nat.count (fun step => asksModel request answers step = true)
        steps ≤ request.policy.maxDecisions) ∧
      (∀ kind steps, Nat.count (fun step => runsTool request answers kind step =
        true) steps ≤ maximum request.policy kind) ∧
      (∀ name steps, Nat.count (fun step => repairsRule request answers name
        step = true) steps ≤ 1) ∧
      EndsWell request answers (runCoordinatorTurn request answers) := by
  refine ⟨?_, ?_, ?_, endsWell_runCoordinatorTurn ready⟩
  · intro steps
    exact (counts_asksModel.count_le steps).1
  · intro kind steps
    exact ((counts_runsTool ready kind).count_le steps).1
  · intro name steps
    exact ((counts_repairsRule ready name).count_le steps).1

theorem coordinator_turn_bounded_salesTurn :
    (∀ steps, Nat.count (fun step => asksModel salesQuestion salesTurn step = true) steps ≤ 6) ∧
      (∀ kind steps, Nat.count (fun step => runsTool salesQuestion salesTurn
        kind step = true) steps ≤ maximum {} kind) ∧
      (∀ name steps, Nat.count (fun step => repairsRule salesQuestion salesTurn
        name step = true) steps ≤ 1) ∧
      EndsWell salesQuestion salesTurn (runCoordinatorTurn salesQuestion salesTurn) :=
  coordinator_turn_bounded salesQuestion salesTurn rfl

end Turns

def patientRequest : Request where
  context := { turnId := "t1", question := "Search on" }
  policy := { maxDecisions := 30, maxActions := 30, maxDocumentSearches := 30 }
  available := [.searchDocuments]
  reading := plainReading

/-- The model searches, and searches again. -/
def searchingTurn (step : Nat) : Answers where
  first := .action (.searchDocuments "manuals")
  search := .found []
  observation := some {
    actionId := "act-" ++ toString (step / 2 + 1)
    kind := .action .searchDocuments
    status := .succeeded
    sized := salesObservation.sized }

/-- The policy's limits are finite, and the turn reaches no terminal. -/
theorem searchingTurn_exceeds_recursionLimit :
    runCoordinatorTurn patientRequest searchingTurn = .error .recursionLimit ∧
      ¬∃ terminal, runCoordinatorTurn patientRequest searchingTurn = .ok terminal := by
  have failed : runCoordinatorTurn patientRequest searchingTurn = .error .recursionLimit := rfl
  refine ⟨failed, ?_⟩
  rintro ⟨terminal, reached⟩
  rw [failed] at reached
  cases reached

end McpAssistant.Conversation.TurnBounds
