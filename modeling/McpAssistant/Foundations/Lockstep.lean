import Mathlib.Logic.Basic

/-!
# Machines in lockstep

Two machines take the same inputs, each from its own state.  Where a relation
between their states makes them answer an input alike and is kept by it, they
answer every list of inputs alike.
-/

namespace McpAssistant.Foundations.Lockstep

variable {State Other Input Output : Type}

/-- What a machine answers, input after input. -/
def outputs (step : Input → State → State × Output) : State → List Input → List Output
  | _, [] => []
  | state, input :: inputs =>
    (step input state).2 :: outputs step (step input state).1 inputs

def after (step : Input → State → State × Output) : State → List Input → State
  | state, [] => state
  | state, input :: inputs => after step (step input state).1 inputs

/-- Every input meets a condition on the machine's state before it. -/
def Met (step : Input → State → State × Output)
    (allowed : State → Input → Prop) : State → List Input → Prop
  | _, [] => True
  | state, input :: inputs =>
    allowed state input ∧ Met step allowed (step input state).1 inputs

/-- Both machines answer alike and stay related. -/
structure Alike (related : State → Other → Prop)
    (first : State × Output) (second : Other × Output) : Prop where
  output : first.2 = second.2
  related : related first.1 second.1

section Runs

variable {first : Input → State → State × Output} {second : Input → Other → Other × Output}
  {related : State → Other → Prop} {allowed : Other → Input → Prop}

theorem alike_runs (alike : ∀ state other input, related state other → allowed other input →
      Alike related (first input state) (second input other))
    {state : State} {other : Other} (start : related state other)
    {inputs : List Input} (met : Met second allowed other inputs) :
    outputs first state inputs = outputs second other inputs ∧
      related (after first state inputs) (after second other inputs) := by
  induction inputs generalizing state other with
  | nil => exact ⟨rfl, start⟩
  | cons input inputs ih =>
    have answered := alike state other input start met.1
    have rest := ih answered.related met.2
    constructor
    · rw [outputs, outputs, answered.output, rest.1]
    · exact rest.2

end Runs

end McpAssistant.Foundations.Lockstep
