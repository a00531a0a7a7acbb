import McpAssistant.Services.ProgressSinks

/-!
# What sink calls do to a stream

Every sink call changes the stream by moves alone.  Activities and thoughts are
never worth a failure; a table fails only by what it raises.  A call lets the
gate open only when it reports the authorized stage.
-/

namespace McpAssistant.Services.SinkMoves

open Foundations.Procedures
open AskEvents AskQueue AskStream AskTables ProgressSinks
open Relation

variable {wire : Wire} {runId : RunId} {reports : Prop}
  {fails : Failure → Prop} {state : TurnStream}

/-- A refused frame is dropped without a failure. -/
theorem follows_enqueue {content : EventContent} (goesOn : content.isTerminal = false)
    (shown : content.needsAuthorization = true → state.sink.authorizedSeen = true) :
    Follows (Move wire reports) fails (AskV2ProgressSink.enqueue wire runId content) state := by
  apply follows_get_bind
  have put : Follows (Move wire reports)
      (fun failure => (∃ message, failure = .queueBufferExceeded message) ∨
        ∃ message, failure = .runtimeError message)
      (putNumbered wire ⟨runId, state.sequence.peek, content⟩) state := by
    apply follows_putNumbered rfl goesOn shown
    exact fun _ refused => ByteBoundedAskQueue.putNowait_error refused
  apply Follows.tryCatch (put.bind fun _ _ _ => follows_pure true)
  rintro failure after (⟨message, rfl⟩ | ⟨message, rfl⟩) moved
  · exact follows_pure false
  · exact follows_pure false

theorem follows_nextActivityId (kind : ActivityKind) (ordinal : Option Nat) :
    Follows (Move wire reports) fails
      (AskV2ProgressSink.nextActivityId runId kind ordinal) state := by
  apply follows_get_bind
  apply Follows.bind (follows_modifySink rfl)
  exact fun _ _ _ => follows_pure _

/-- A step of one part is shown only behind the gate. -/
theorem follows_putStep (step : ActiveStep) (shownAs : ActivityState) (elapsedMs : Nat) :
    Follows (Move wire reports) fails
      (AskV2ProgressSink.putStep wire runId step shownAs elapsedMs) state := by
  apply follows_get_bind
  split
  · exact follows_modifySink rfl
  · rename_i passes
    apply Follows.bind
    · apply follows_enqueue rfl
      intro needed
      have named : step.ordinal.isSome = true := needed
      simpa [named] using passes
    · exact fun _ _ _ => follows_pure _

theorem follows_finishThought : Follows (Move wire reports) fails
      (AskV2ProgressSink.finishThought wire runId) state := by
  apply follows_get_bind
  split
  · exact follows_pure _
  · apply Follows.bind (follows_modifySink rfl)
    intro _ _ _
    apply Follows.bind (follows_msSince _)
    intro _ _ _
    apply Follows.bind (follows_enqueue rfl (shown_of_free rfl))
    exact fun _ _ _ => follows_pure _

theorem follows_closeStep (shownAs : ActivityState) : Follows (Move wire reports) fails
      (AskV2ProgressSink.closeStep wire runId shownAs) state := by
  apply follows_get_bind
  split
  · exact follows_pure _
  · apply Follows.bind follows_finishThought
    intro _ _ _
    apply Follows.bind (follows_modifySink rfl)
    intro _ _ _
    apply Follows.bind (follows_msSince _)
    intro _ _ _
    exact follows_putStep _ _ _

variable {kind : ActivityKind}

theorem follows_noteAuthorized (reported : kind = .stage .authorized → reports) :
    Follows (Move wire reports) fails (AskV2ProgressSink.noteAuthorized kind) state := by
  unfold AskV2ProgressSink.noteAuthorized
  split
  · rename_i isAuthorized
    apply follows_modify
    exact ReflTransGen.single (.authorized state (reported isAuthorized))
  · exact follows_pure _

/-- Opening a step closes the one before it first, while the gate is as it
was. -/
theorem follows_openStep {ordinal : Option Nat} {parts : Option PartCount} {subject : Option String}
    (reported : kind = .stage .authorized → reports) :
    Follows (Move wire reports) fails
      (AskV2ProgressSink.openStep wire runId kind ordinal parts subject)
      state := by
  apply Follows.bind (follows_closeStep _)
  intro _ _ _
  apply Follows.bind (follows_noteAuthorized reported)
  intro _ _ _
  apply Follows.bind (follows_nextActivityId _ _)
  intro _ _ _
  apply Follows.bind follows_readClock
  intro _ _ _
  apply Follows.bind (follows_modifySink rfl)
  intro _ _ _
  exact follows_putStep _ _ _

theorem askStageKind_ne_authorized {reported : AskStage}
    (shownAs : AskV2ProgressSink.askStageKind reported = some kind) :
    kind ≠ .stage .authorized := by
  rintro rfl
  cases reported <;> cases shownAs

theorem follows_stage (reported : AskStage) : Follows (Move wire reports) fails
      (AskV2ProgressSink.stage wire runId reported) state := by
  unfold AskV2ProgressSink.stage
  split
  · rename_i kind shownAs
    apply follows_openStep
    exact fun isAuthorized =>
      absurd isAuthorized (askStageKind_ne_authorized shownAs)
  · exact follows_pure _

theorem follows_announceResults : Follows (Move wire reports) fails
      (AskV2ProgressSink.announceResults wire runId) state := by
  apply follows_get_bind
  split
  · exact follows_pure _
  · apply Follows.bind (follows_enqueue rfl (shown_of_free rfl))
    intro _ _ _
    apply Follows.bind (follows_modifySink rfl)
    exact fun _ _ _ => follows_pure _

theorem follows_paint {part : CommittedTable} (seen : state.sink.authorizedSeen = true) :
    Follows (Move wire reports) Raises (AskV2ProgressSink.paint wire runId part) state := by
  apply Follows.bind (follows_liftResult fun _ => nofun)
  intro columns typed moved
  apply Follows.bind (follows_paintCommittedTable (gate_stays moved seen))
  exact fun _ _ _ => follows_modifySink rfl

/-- A table is painted only behind the gate. -/
theorem follows_table (part : CommittedTable) : Follows (Move wire reports) Raises
      (AskV2ProgressSink.table wire runId part) state := by
  apply follows_get_bind
  split
  · rename_i seen
    split
    · exact follows_pure _
    · apply Follows.bind follows_announceResults
      intro announced after moved
      split
      · exact follows_paint (gate_stays moved seen)
      · exact follows_pure _
  · exact follows_modifySink rfl

theorem follows_emitThoughtDelta (chunk : String) : Follows (Move wire reports) fails
      (AskV2ProgressSink.emitThoughtDelta wire runId chunk) state := by
  apply follows_get_bind
  split
  · exact follows_pure _
  · split
    · apply Follows.bind (follows_enqueue rfl (shown_of_free rfl))
      exact fun _ _ _ => follows_pure _
    · split
      · apply Follows.bind (follows_enqueue rfl (shown_of_free rfl))
        intro accepted _ _
        split
        · apply Follows.bind follows_readClock
          intro _ _ _
          apply Follows.bind (follows_modifySink rfl)
          intro _ _ _
          apply Follows.bind (follows_enqueue rfl (shown_of_free rfl))
          exact fun _ _ _ => follows_pure _
        · exact follows_pure _
      · exact follows_pure _
    · exact follows_pure _

theorem follows_askV2Settle (shownAs : ActivityState) : Follows (Move wire reports) fails
      (AskV2ProgressSink.settle wire runId shownAs) state := by
  apply Follows.bind follows_finishThought
  intro _ _ _
  apply Follows.bind (follows_closeStep _)
  intro _ _ _
  apply follows_get_bind
  exact follows_msSince _

theorem follows_nullTable (part : CommittedTable) : Follows (Move wire reports) Raises
      (NullProgressSink.table wire runId part) state := by
  apply follows_get_bind
  split
  · rename_i seen
    split
    · exact follows_pure _
    · have announced : Follows (Move wire reports) Raises
          (NullProgressSink.announceResults wire runId) state := by
        apply follows_get_bind
        split
        · exact follows_pure _
        · apply Follows.bind (follows_sendFrame rfl (shown_of_free rfl))
          exact fun _ _ _ => follows_modifySink rfl
      apply Follows.bind announced
      exact fun _ _ moved => follows_paint (gate_stays moved seen)
  · exact follows_modifySink rfl

theorem follows_nullFinish :
    Follows (Move wire reports) fails (NullProgressSink.finish wire) state := by
  apply follows_get_bind
  exact follows_msSince _

theorem follows_settle (shownAs : ActivityState) :
    Follows (Move wire reports) fails (settle wire runId shownAs) state := by
  apply follows_get_bind
  split
  · exact follows_askV2Settle _
  · exact follows_nullFinish

theorem follows_paintTable (part : CommittedTable) :
    Follows (Move wire reports) Raises (paintTable wire runId part) state := by
  apply follows_get_bind
  split
  · exact follows_table part
  · exact follows_nullTable part
  · exact follows_pure _

theorem follows_sinkFinishThought : Follows (Move wire reports) fails
      (ProgressSinks.finishThought wire runId) state := by
  apply follows_get_bind
  split
  · exact follows_finishThought
  · exact follows_pure _

/-- A call changes the stream by moves, and opens the gate only when it reports
the authorized stage. -/
theorem follows_perform {call : SinkCall} (reported : call.reportsAuthorized = true → reports) :
    Follows (Move wire reports) Raises (perform wire runId call) state := by
  have emits {stage : ProgressStage} {ordinal : Option Nat}
      {parts : Option PartCount} {subject : Option String}
      (made : call = .emit stage ordinal parts subject) :
      ActivityKind.stage stage = .stage .authorized → reports := by
    intro isAuthorized
    cases isAuthorized
    exact reported (by rw [made]; rfl)
  apply follows_get_bind
  split
  · exact follows_stage _
  · exact follows_openStep (emits rfl)
  · exact follows_emitThoughtDelta _
  · exact follows_pure _
  · exact follows_noteAuthorized (emits rfl)
  · exact follows_pure _
  · exact follows_paintTable _
  · exact follows_sinkFinishThought
  · exact (follows_settle _).bind fun _ _ _ => follows_pure _
  · exact (follows_settle _).bind fun _ _ _ => follows_pure _

def Step.reportsAuthorized : Step → Bool
  | .call made => made.reportsAuthorized
  | .receive => false

theorem follows_takeStep {step : Step} (reported : Step.reportsAuthorized step = true → reports) :
    Follows (Move wire reports) fails (takeStep wire runId step) state := by
  cases step with
  | call made =>
    apply Follows.tryCatch (follows_perform reported)
    exact fun _ _ _ _ => follows_pure _
  | receive => exact follows_receive

/-- Whatever happens while a turn waits is made of moves. -/
theorem follows_runSteps {steps : List Step}
    (reported : ∀ step ∈ steps, Step.reportsAuthorized step = true → reports) :
    Follows (Move wire reports) fails (runSteps wire runId steps) state := by
  apply Follows.forM
  intro step member _ _
  exact follows_takeStep (reported step member)

end McpAssistant.Services.SinkMoves
