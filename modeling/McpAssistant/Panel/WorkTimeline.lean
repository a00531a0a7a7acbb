import McpAssistant.Panel.TurnStore

/-!
# The work timeline

One list of steps per turn.  An activity frame of a kind the panel can name
opens a step or rewrites it; the end of the turn closes the steps that run, and
a second end changes nothing.
-/

namespace McpAssistant.Panel.WorkTimeline

open Foundations.JsonReading
open TurnStore (Status)

inductive StepState where
  | running
  | completed
  | failed
deriving DecidableEq

inductive TimelineState where
  | running
  | completed
  | declined
  | clarification
  | stopped
  | failed
deriving DecidableEq

/-- An activity frame; a missing state means running. -/
structure Activity where
  id : String
  kind : String
  subject : Option String := none
  state : Option StepState := none
  ordinal : Option Int := none
  total : Option Int := none

def Activity.stepState (activity : Activity) : StepState :=
  activity.state.getD .running

/-- The kinds that have words; others are not rows. -/
def stepLabels : List String :=
  ["thinking", "planning", "authorize", "finding_record", "querying",
    "searching_documents", "sealing", "answering"]

def Activity.isNamed (activity : Activity) : Bool :=
  stepLabels.contains activity.kind

structure Step where
  kind : String
  subject : Option String := none
  state : StepState
  ordinal : Option Int := none
  total : Option Int := none

def openStep (activity : Activity) : Step where
  kind := activity.kind
  state := activity.stepState

/-- A step keeps the kind it was opened with, and its place unless a new one
comes with a total. -/
def Step.rewrite (step : Step) (activity : Activity) : Step :=
  { step with
    subject := activity.subject
    state := activity.stepState
    ordinal := if activity.total.isSome then activity.ordinal else step.ordinal
    total := if activity.total.isSome then activity.total else step.total }

/-- The steps of a turn by their activity, each once. -/
structure Timeline where
  steps : List (String × Step) := []
  distinct : (steps.map Prod.fst).Nodup := by exact List.nodup_nil
  state : TimelineState := .running
  durationMs : Option Int := none

def timelineState : Status → TimelineState
  | .done => .completed
  | .declined => .declined
  | .clarification => .clarification
  | .stopped => .stopped
  | _ => .failed

/-- A turn that has ended before its timeline was made shows an ended one. -/
def endedTimeline (status : Status) (durationMs : Option Int) : Timeline where
  state := timelineState status
  durationMs := durationMs

/-- The step an activity leaves behind. -/
def observed (steps : List (String × Step)) (activity : Activity) : Step :=
  ((steps.lookup activity.id).getD (openStep activity)).rewrite activity

def Timeline.observe (timeline : Timeline) (activity : Activity) : Timeline :=
  if activity.isNamed then
    { timeline with
      steps := putKey activity.id (observed timeline.steps activity) timeline.steps
      distinct := nodup_keys_putKey timeline.distinct }
  else timeline

/-- A running step of an ended turn is completed, or failed with the turn. -/
def closedState : TimelineState → StepState
  | .failed => .failed
  | .stopped => .failed
  | _ => .completed

def Step.close (ended : TimelineState) (step : Step) : Step :=
  match step.state with
  | .running => { step with state := closedState ended }
  | _ => step

def Timeline.finish (timeline : Timeline) (ended : TimelineState)
    (durationMs : Option Int) : Timeline :=
  match timeline.state with
  | .running =>
    { steps := timeline.steps.map fun entry => (entry.1, entry.2.close ended)
      distinct := by
        rw [List.map_map]
        exact timeline.distinct
      state := ended
      durationMs := durationMs }
  | _ => timeline

def Timeline.Settled (timeline : Timeline) : Prop :=
  ∀ entry ∈ timeline.steps, entry.2.state ≠ .running

section Steps

variable {timeline : Timeline} {activity : Activity} {id : String}

def Timeline.shown (timeline : Timeline) (id : String) : Option StepState :=
  (timeline.steps.lookup id).map Step.state

theorem settled_iff : timeline.Settled ↔ ∀ id, timeline.shown id ≠ some .running := by
  constructor
  · intro settled id shown
    rw [Timeline.shown, Option.map_eq_some_iff] at shown
    obtain ⟨step, held, running⟩ := shown
    exact settled _ (mem_of_lookup_eq_some held) running
  · intro hidden entry member running
    apply hidden entry.1
    rw [Timeline.shown, lookup_of_mem timeline.distinct member, Option.map_some, running]

theorem state_observe : (timeline.observe activity).state = timeline.state := by
  rw [Timeline.observe]
  split
  · rfl
  · rfl

theorem shown_observe_of_ne (apart : id ≠ activity.id) :
    (timeline.observe activity).shown id = timeline.shown id := by
  rw [Timeline.observe]
  split
  · rw [Timeline.shown, lookup_putKey_of_ne apart]
    rfl
  · rfl

theorem shown_observe_self (named : activity.isNamed = true) :
    (timeline.observe activity).shown activity.id = some activity.stepState := by
  rw [Timeline.observe, if_pos named, Timeline.shown, lookup_putKey_self]
  rfl

theorem observe_of_unnamed (unnamed : activity.isNamed = false) :
    timeline.observe activity = timeline := by
  rw [Timeline.observe, unnamed]
  rfl

theorem close_state_ne (ended : TimelineState) (step : Step) :
    (step.close ended).state ≠ .running := by
  rw [Step.close]
  split
  · show closedState ended ≠ .running
    cases ended with
    | _ => nofun
  · assumption

theorem shown_finish (running : timeline.state = .running)
    (ended : TimelineState) (durationMs : Option Int) (id : String) :
    (timeline.finish ended durationMs).shown id ≠ some .running := by
  rw [Timeline.finish, running, Timeline.shown]
  dsimp only
  rw [lookup_map_values, Option.map_map]
  intro shown
  rw [Option.map_eq_some_iff] at shown
  obtain ⟨step, -, isRunning⟩ := shown
  exact close_state_ne ended step isRunning

end Steps

end McpAssistant.Panel.WorkTimeline
