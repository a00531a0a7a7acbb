import Mathlib.Logic.Function.Basic

/-!
# Interleaved runs

A system takes one choice at a time.  A run is orderly when every choice meets
a condition on the state before it; an invariant that orderly choices keep
holds of every state an orderly run reaches.
-/

namespace McpAssistant.Foundations.Interleaving

variable {State Choice : Type}

inductive Reaches (step : Choice → State → State)
    (orderly : State → Choice → Prop) (start : State) : State → Prop where
  | start : Reaches step orderly start start
  | next {state : State} (choice : Choice) (reached : Reaches step orderly start state)
      (allowed : orderly state choice) :
      Reaches step orderly start (step choice state)

theorem Reaches.invariant {step : Choice → State → State}
    {orderly : State → Choice → Prop} {start state : State}
    {holds : State → Prop} (reached : Reaches step orderly start state)
    (initially : holds start)
    (keeps : ∀ state choice, holds state → orderly state choice →
      holds (step choice state)) : holds state := by
  induction reached with
  | start => exact initially
  | next choice _ allowed ih => exact keeps _ choice ih allowed

def runFrom (step : Choice → State → State) (start : State) (choices : List Choice) : State :=
  choices.foldl (fun state choice => step choice state) start

theorem runFrom_nil (step : Choice → State → State) (start : State) :
    runFrom step start [] = start := rfl

theorem runFrom_cons (step : Choice → State → State) (start : State) (choice : Choice)
    (choices : List Choice) :
    runFrom step start (choice :: choices) = runFrom step (step choice start) choices := rfl

/-- Every choice of a list meets the condition where it is taken. -/
def OrderlyRun (step : Choice → State → State)
    (orderly : State → Choice → Prop) : State → List Choice → Prop
  | _, [] => True
  | state, choice :: choices =>
    orderly state choice ∧ OrderlyRun step orderly (step choice state) choices

variable {step : Choice → State → State} {orderly : State → Choice → Prop}
  {choices : List Choice}

theorem reaches_runFrom {start state : State} (reached : Reaches step orderly start state)
    (allowed : OrderlyRun step orderly state choices) :
    Reaches step orderly start (runFrom step state choices) := by
  induction choices generalizing state with
  | nil => exact reached
  | cons choice choices ih =>
    exact ih (reached.next choice allowed.1) allowed.2

/-- Every state of a run has a property, its start too. -/
def Throughout (step : Choice → State → State) (holds : State → Prop) : State → List Choice → Prop
  | state, [] => holds state
  | state, choice :: choices =>
    holds state ∧ Throughout step holds (step choice state) choices

variable {holds : State → Prop}

theorem Throughout.start {state : State}
    (throughout : Throughout step holds state choices) : holds state := by
  cases choices with
  | nil => exact throughout
  | cons choice choices => exact throughout.1

theorem Throughout.imp {first second : State → Prop}
    (implies : ∀ state, first state → second state) {start : State}
    (throughout : Throughout step first start choices) :
    Throughout step second start choices := by
  induction choices generalizing start with
  | nil => exact implies start throughout
  | cons choice choices ih => exact ⟨implies start throughout.1, ih throughout.2⟩

theorem OrderlyRun.throughout {start : State} (run : OrderlyRun step orderly start choices)
    (initially : holds start)
    (keeps : ∀ state choice, holds state → orderly state choice →
      holds (step choice state)) : Throughout step holds start choices := by
  induction choices generalizing start with
  | nil => exact initially
  | cons choice choices ih =>
    exact ⟨initially, ih run.2 (keeps start choice initially run.1)⟩

theorem throughout_iff_of_invariant {step : Choice → State → State}
    {orderly : State → Choice → Prop} {always holds : State → Prop}
    (invariant : ∀ state choice, always state → always (step choice state))
    (keeps : ∀ state choice, always state → holds state →
      (holds (step choice state) ↔ orderly state choice))
    {start : State} (initially : always start) (holdsInitially : holds start)
    (choices : List Choice) :
    Throughout step holds start choices ↔ OrderlyRun step orderly start choices := by
  induction choices generalizing start with
  | nil => exact iff_of_true holdsInitially trivial
  | cons choice choices ih =>
    have next := invariant start choice initially
    constructor
    · rintro ⟨_, later⟩
      have kept := later.start
      exact ⟨(keeps start choice initially holdsInitially).mp kept, (ih next kept).mp later⟩
    · rintro ⟨allowed, later⟩
      have kept := (keeps start choice initially holdsInitially).mpr allowed
      exact ⟨holdsInitially, (ih next kept).mpr later⟩

/-- The same where the property itself is invariant enough. -/
theorem throughout_iff
    (keeps : ∀ state choice, holds state → (holds (step choice state) ↔ orderly state choice))
    {start : State} (initially : holds start) (choices : List Choice) :
    Throughout step holds start choices ↔ OrderlyRun step orderly start choices :=
  @throughout_iff_of_invariant _ _ step orderly (fun _ => True) holds
    (fun _ _ _ => trivial) (fun state choice _ => keeps state choice) start trivial
    initially choices

theorem OrderlyRun.imp {first second : State → Choice → Prop}
    (implies : ∀ state choice, first state choice → second state choice)
    {start : State}
    (run : OrderlyRun step first start choices) :
    OrderlyRun step second start choices := by
  induction choices generalizing start with
  | nil => trivial
  | cons choice choices ih => exact ⟨implies start choice run.1, ih run.2⟩

theorem runFrom_invariant (keeps : ∀ state choice, holds state → holds (step choice state))
    {start : State} (initially : holds start) (choices : List Choice) :
    holds (runFrom step start choices) := by
  induction choices generalizing start with
  | nil => exact initially
  | cons choice choices ih => exact ih (keeps start choice initially)

theorem orderlyRun_iff_of_invariant {first second : State → Choice → Prop}
    (keeps : ∀ state choice, holds state → holds (step choice state))
    (agree : ∀ state choice, holds state → (first state choice ↔ second state choice))
    {start : State} (initially : holds start) (choices : List Choice) :
    OrderlyRun step first start choices ↔ OrderlyRun step second start choices := by
  induction choices generalizing start with
  | nil => exact Iff.rfl
  | cons choice choices ih =>
    exact and_congr (agree start choice initially) (ih (keeps start choice initially))

end McpAssistant.Foundations.Interleaving
