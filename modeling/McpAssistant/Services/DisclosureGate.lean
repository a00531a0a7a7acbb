import McpAssistant.Services.SinkMoves

/-!
# Nothing is shown before it was authorized

A table frame, or an activity that names a part of the plan, is put on the queue
only once the authorized stage was reported to the sink.
-/

namespace McpAssistant.Services.DisclosureGate

open Foundations.Procedures
open AskEvents AskQueue AskStream ProgressSinks SinkMoves
open Relation

def newSink (kind : SinkKind) (resumedFrom : List Nat) (turnStarted : Int) : SinkState :=
  { kind
    turnStarted
    paintedOrdinals := resumedFrom
    streamAuthorizedEmitted := !resumedFrom.isEmpty }

def sinkOver (queue : ByteBoundedAskQueue) (sequence : TurnSequence)
    (sink : SinkState) : TurnStream :=
  { queue, sequence, sink }

/-- At every point of the steps, what the queue took since their start shows
part of an answer only if a step before that point reported authorization. -/
def ShownOnceAuthorized (wire : Wire) (runId : RunId) (start : TurnStream)
    (steps : List Step) : Prop :=
  ∀ earlier later, steps = earlier ++ later →
    ∃ shown,
      (stateAfter (runSteps wire runId earlier) start).enqueued = start.enqueued ++ shown ∧
      ∀ event ∈ shown, event.content.needsAuthorization = true →
        ∃ step ∈ earlier, Step.reportsAuthorized step = true

structure Gated (reports : Prop) (start stream : TurnStream) : Prop where
  opened : stream.sink.authorizedSeen = true → reports
  since : ∃ shown, stream.enqueued = start.enqueued ++ shown ∧
    ∀ event ∈ shown, event.content.needsAuthorization = true → reports

variable {wire : Wire} {reports : Prop} {start before after : TurnStream}

theorem Gated.fresh (closed : start.sink.authorizedSeen = false) : Gated reports start start where
  opened seen := by
    rw [closed] at seen
    cases seen
  since := ⟨[], (List.append_nil _).symm, fun _ member =>
    absurd member List.not_mem_nil⟩

theorem Gated.move (gated : Gated reports start before)
    (move : Move wire reports before after) : Gated reports start after := by
  rcases gated.since with ⟨shown, sinceStart, each⟩
  cases move with
  | turned sameQueue sameDelivered _ sameGate =>
    constructor
    · rw [sameGate]
      exact gated.opened
    · refine ⟨shown, ?_, each⟩
      rw [TurnStream.enqueued, sameQueue, sameDelivered]
      exact sinceStart
  | authorized reported =>
    exact ⟨fun _ => reported, shown, sinceStart, each⟩
  | received got =>
    constructor
    · exact gated.opened
    · exact ⟨shown, (enqueued_received got).trans sinceStart, each⟩
  | @sent event queue accepted numbered goesOn shows =>
    constructor
    · exact gated.opened
    · refine ⟨shown ++ [event], ?_, ?_⟩
      · rw [enqueued_sent accepted, sinceStart, List.append_assoc]
      · intro other member
        rcases List.mem_append.mp member with earlier | last
        · exact each other earlier
        · rw [List.mem_singleton.mp last]
          exact fun needed => gated.opened (shows needed)

/-- For every order of calls on a new sink of either kind, with the reader
taking frames at any time, nothing that needs authorization is enqueued before
the authorized stage was reported. -/
theorem shown_once_authorized (wire : Wire) (runId : RunId) (kind : SinkKind)
    (resumedFrom : List Nat) (turnStarted : Int) (queue : ByteBoundedAskQueue)
    (sequence : TurnSequence) (steps : List Step) :
    ShownOnceAuthorized wire runId
      (sinkOver queue sequence (newSink kind resumedFrom turnStarted)) steps := by
  intro earlier later _
  have moved : Follows
      (Move wire (∃ step ∈ earlier, Step.reportsAuthorized step = true)) Raises
      (runSteps wire runId earlier)
      (sinkOver queue sequence (newSink kind resumedFrom turnStarted)) :=
    follows_runSteps fun step member reported => ⟨step, member, reported⟩
  have gated := keeps_of_moves moved.moved (fun _ _ move gated =>
    Gated.move gated move) (Gated.fresh rfl)
  exact gated.since

end McpAssistant.Services.DisclosureGate
