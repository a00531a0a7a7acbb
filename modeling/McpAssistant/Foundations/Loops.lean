import Mathlib.Tactic.Common
import Mathlib.Data.Nat.Init

/-!
# Loops

A loop repeats a step until there is none to take.  Every step makes the state smaller,
so a loop ends.  What it does is recorded: the state before each step and the step's note.
-/

namespace McpAssistant.Foundations.Loops

/-- A step that ends, by the size of the state it is taken in. -/
structure Loop (State Note : Type) where
  step : State → Option (State × Note)
  size : State → Nat
  decreases : ∀ {state next note}, step state = some (next, note) → size next < size state

namespace Loop

variable {State Note : Type} (loop : Loop State Note)

/-- The steps taken, at most so many, and the state they lead to. -/
def runFor : Nat → State → List (State × Note) × State
  | 0, state => ([], state)
  | fuel + 1, state =>
    match loop.step state with
    | none => ([], state)
    | some (next, note) =>
      ((state, note) :: (runFor fuel next).1, (runFor fuel next).2)

/-- The steps taken until there is no more, and the state they lead to. -/
def run (state : State) : List (State × Note) × State :=
  loop.runFor (loop.size state) state

def final (state : State) : State :=
  (loop.run state).2

/-- The notes of the steps taken. -/
def notes (state : State) : List Note :=
  (loop.run state).1.map Prod.snd

variable {loop} {state : State}

/-- No more steps are taken than the size of the state allows. -/
theorem runFor_eq {fuel : Nat} (enough : loop.size state ≤ fuel) :
    loop.runFor fuel state = loop.run state := by
  suffices independent : ∀ fuel other state, loop.size state ≤ fuel →
      loop.size state ≤ other → loop.runFor fuel state = loop.runFor other state from
    independent _ _ _ enough (Nat.le_refl _)
  intro fuel
  induction fuel with
  | zero =>
    intro other state small _
    have stopped : loop.step state = none := by
      cases stepped : loop.step state with
      | none => rfl
      | some taken => exact absurd (loop.decreases stepped) (by omega)
    cases other with
    | zero => rfl
    | succ other => rw [runFor, runFor, stopped]
  | succ fuel ih =>
    intro other state small small'
    cases stepped : loop.step state with
    | none =>
      cases other with
      | zero => rw [runFor, runFor, stepped]
      | succ other => rw [runFor, runFor, stepped]
    | some taken =>
      have smaller := loop.decreases stepped
      cases other with
      | zero => exact absurd smaller (by omega)
      | succ other =>
        rw [runFor, runFor, stepped]
        dsimp only
        rw [ih other taken.1 (by omega) (by omega)]

theorem run_of_none (stopped : loop.step state = none) : loop.run state = ([], state) := by
  rw [← runFor_eq (Nat.le_succ _), runFor, stopped]

variable {note : Note} {next : State}

theorem run_of_some (stepped : loop.step state = some (next, note)) :
    loop.run state = ((state, note) :: (loop.run next).1, (loop.run next).2) := by
  have enough : loop.size next ≤ loop.size state := Nat.le_of_lt (loop.decreases stepped)
  rw [← runFor_eq (Nat.le_succ _), runFor, stepped]
  dsimp only
  rw [runFor_eq enough]

/-- What holds where the loop stops, and before a step whenever after it, holds. -/
theorem induction {motive : State → Prop} (stop : ∀ state, loop.step state = none → motive state)
    (step : ∀ state next note, loop.step state = some (next, note) →
      motive next → motive state) (state : State) : motive state := by
  induction size : loop.size state using Nat.strong_induction_on generalizing state with
  | _ bound ih =>
    cases stepped : loop.step state with
    | none => exact stop state stepped
    | some taken =>
      have smaller := loop.decreases stepped
      exact step state taken.1 taken.2 stepped (ih _ (size ▸ smaller) _ rfl)

theorem final_of_none (stopped : loop.step state = none) : loop.final state = state := by
  rw [final, run_of_none stopped]

theorem final_of_some (stepped : loop.step state = some (next, note)) :
    loop.final state = loop.final next := by
  rw [final, run_of_some stepped, final]

theorem notes_of_none (stopped : loop.step state = none) : loop.notes state = [] := by
  rw [notes, run_of_none stopped, List.map_nil]

theorem notes_of_some (stepped : loop.step state = some (next, note)) :
    loop.notes state = note :: loop.notes next := by
  rw [notes, run_of_some stepped, List.map_cons, notes]

theorem step_final (state : State) : loop.step (loop.final state) = none := by
  induction state using loop.induction with
  | stop state stopped => rw [final_of_none stopped, stopped]
  | step state next note stepped ih => rw [final_of_some stepped, ih]

theorem step_of_mem_run {before : State} (recorded : (before, note) ∈ (loop.run state).1) :
    ∃ next, loop.step before = some (next, note) := by
  induction state using loop.induction with
  | stop state stopped =>
    rw [run_of_none stopped] at recorded
    cases recorded
  | step state next first stepped ih =>
    rw [run_of_some stepped] at recorded
    rcases List.mem_cons.mp recorded with same | later
    · cases same
      exact ⟨next, stepped⟩
    · exact ih later

end Loop

end McpAssistant.Foundations.Loops
