import McpAssistant.Panel.DrainOrder

/-!
# Publications in order, and no step left running

The end of a run closes the steps its timeline shows.  An activity that still
waits is painted afterwards, so a run ends settled when the last activity that
waits for each step has finished it.
-/

namespace McpAssistant.Panel.ProjectionQueues

open Foundations.JsonReading
open Foundations.Interleaving
open TurnStore
open WorkTimeline

section Panels

variable {panel : Projection} {runId : String}

/-- The turn of a run as its end leaves it. -/
def endedTurn (turn : Turn) (status : Status) (durationMs : Option Int) : Turn :=
  { turn with status := some status, durationMs }

theorem shown_endedTimeline (status : Status) (durationMs : Option Int)
    (ended : TimelineState) (total : Option Int) (id : String) :
    ((endedTimeline status durationMs).finish ended total).shown id = none := by
  rw [Timeline.finish]
  split
  · rfl
  · rfl

variable {durationMs : Option Int}

theorem shown_endTurn (behind : Behind panel) {turn : Turn} {status : Status}
    (ends : status.isTerminal = true)
    (held : panel.store.turnAt turn.msgId = turn)
    (unfinished : turn.isTerminal = false) (id : String) :
    ((panel.timelineOf (endedTurn turn status durationMs)).finish
      (timelineState status) durationMs).shown id ≠ some .running := by
  unfold Projection.timelineOf
  split
  · rename_i timeline found
    apply shown_finish
    apply behind.running turn.msgId timeline found
    rw [held]
    exact unfinished
  · show (Timeline.finish (if status.isTerminal then
      endedTimeline status durationMs else {}) _ _).shown id ≠ some .running
    rw [if_pos ends, shown_endedTimeline]
    nofun

theorem endRun_cases (runId : String) (status : Status) (durationMs : Option Int) :
    panel.endRun runId status durationMs = panel ∨ ∃ turn, panel.store.byRun runId = some turn ∧
        status.isTerminal = true ∧ turn.isTerminal = false ∧
        panel.endRun runId status durationMs =
          { panel with
            store := panel.store.put (endedTurn turn status durationMs)
            timelines := putKey turn.msgId
              ((panel.timelineOf (endedTurn turn status durationMs)).finish
                (timelineState status) durationMs) panel.timelines } := by
  unfold Projection.endRun
  split
  · rename_i turn found
    split
    · rename_i ends
      rw [Bool.and_eq_true, Bool.not_eq_true'] at ends
      right
      refine ⟨turn, found, ends.1, ends.2, ?_⟩
      have written : TurnStore.endRun panel.store runId (some status)
          durationMs = panel.store.put (endedTurn turn status durationMs) := by
        unfold TurnStore.endRun
        rw [found]
        dsimp only
        rw [ends.1, ends.2]
        rfl
      rw [written]
      rfl
    · exact .inl rfl
  · exact .inl rfl

theorem pending_endRun (runId : String) (status : Status) (durationMs : Option Int) :
    (panel.endRun runId status durationMs).pending = panel.pending := by
  rcases endRun_cases runId status durationMs with same | ⟨turn, -, -, -, same⟩
  · rw [same]
  · rw [same]
    rfl

theorem Behind.endRun (behind : Behind panel) (runId : String)
    (status : Status) (durationMs : Option Int) :
    Behind (panel.endRun runId status durationMs) := by
  rcases endRun_cases runId status durationMs with
    same | ⟨turn, found, ends, unfinished, same⟩
  · rw [same]
    exact behind
  · rw [same]
    have held := behind.indexed.turnAt_of_byRun found
    have carries := behind.indexed.runId_of_byRun found
    constructor
    · apply behind.indexed.put
      · show turn.runId = (panel.store.turnAt turn.msgId).runId
        rw [held]
      · intro free
        change turn.runId = none at free
        rw [carries] at free
        cases free
    · intro msgId timeline shown opened
      rw [turnAt_put] at opened
      split at opened
      · change status.isTerminal = false at opened
        rw [ends] at opened
        cases opened
      · rename_i apart
        have elsewhere : msgId ≠ turn.msgId := apart
        change (putKey turn.msgId _ panel.timelines).lookup msgId = _ at shown
        rw [lookup_putKey_of_ne elsewhere] at shown
        exact behind.running msgId timeline shown opened

theorem ended_endRun (behind : Behind panel) {runId other : String} {status : Status} {turn : Turn}
    (after : (panel.endRun runId status durationMs).store.byRun other =
      some turn) (terminal : turn.isTerminal = true) :
    (panel.store.byRun other = some turn ∧
      shownIn (panel.endRun runId status durationMs).timelines turn.msgId =
        shownIn panel.timelines turn.msgId) ∨
      (other = runId ∧ (∃ open_, panel.store.byRun runId = some open_ ∧ open_.isTerminal = false) ∧
        ∀ id, shownIn (panel.endRun runId status durationMs).timelines
          turn.msgId id ≠ some .running) := by
  rcases endRun_cases runId status durationMs with
    same | ⟨own, found, ends, unfinished, same⟩
  · rw [same] at after ⊢
    exact .inl ⟨after, rfl⟩
  · rw [same] at after ⊢
    have held := behind.indexed.turnAt_of_byRun found
    have carries := behind.indexed.runId_of_byRun found
    have sameRun : (endedTurn own status durationMs).runId =
        (panel.store.turnAt (endedTurn own status durationMs).msgId).runId := by
      show own.runId = (panel.store.turnAt own.msgId).runId
      rw [held]
    have blank : (endedTurn own status durationMs).runId = none →
        (endedTurn own status durationMs).status = none := by
      intro free
      change own.runId = none at free
      rw [carries] at free
      cases free
    rcases behind.indexed.byRun_put sameRun blank after with ⟨rfl, before⟩ | ⟨apart, before⟩
    · change panel.store.byRun other = some (panel.store.turnAt own.msgId) at before
      rw [held] at before
      right
      refine ⟨behind.indexed.runId_eq before found rfl, ⟨own, found, unfinished⟩, ?_⟩
      intro id
      show ((putKey own.msgId _ panel.timelines).lookup own.msgId).bind _ ≠ _
      rw [lookup_putKey_self]
      exact shown_endTurn behind ends held unfinished id
    · left
      refine ⟨before, ?_⟩
      funext id
      have elsewhere : turn.msgId ≠ own.msgId := apart
      show ((putKey own.msgId _ panel.timelines).lookup turn.msgId).bind _ = _
      rw [lookup_putKey_of_ne elsewhere]
      rfl

/-- Ending the run finds no activity waiting that would leave a step running. -/
def EndsSettled (panel : Projection) (runId : String) : Prop :=
  ∀ turn, panel.store.byRun runId = some turn → turn.isTerminal = false →
    ∀ id, lastState id (panel.pending runId) ≠ some .running

theorem Painting.endRun (painting : Painting panel) {runId : String}
    (settles : EndsSettled panel runId) (status : Status)
    (durationMs : Option Int) :
    Painting (panel.endRun runId status durationMs) := by
  have pending := @pending_endRun panel runId status durationMs
  constructor
  · exact painting.behind.endRun runId status durationMs
  · intro other turn after terminal
    rw [pending]
    rcases ended_endRun painting.behind after terminal with
      ⟨before, shown⟩ | ⟨rfl, ⟨own, found, unfinished⟩, closed⟩
    · rw [shown]
      exact painting.settled other turn before terminal
    · exact leavesNone_of_settled closed (settles own found unfinished)
  · intro other otherRun
    rw [pending]
    rcases endRun_cases runId status durationMs with same | ⟨_, _, _, _, same⟩
    · rw [same]
      exact painting.ordered other otherRun
    · rw [same]
      exact painting.ordered other otherRun
  · rw [pending]
    exact painting.terminalLast
  · rcases endRun_cases runId status durationMs with same | ⟨_, _, _, _, same⟩
    · rw [same]
      exact painting.named
    · rw [same]
      exact painting.named

/-- Every run that has ended shows no step running. -/
structure Closed (panel : Projection) : Prop where
  behind : Behind panel
  closed : ∀ runId turn, panel.store.byRun runId = some turn → turn.isTerminal = true →
      ∀ id, shownIn panel.timelines turn.msgId id ≠ some .running

theorem Closed.stopRunning (closed : Closed panel) (msgId : String) :
    Closed (panel.stopRunning msgId) := by
  unfold Projection.stopRunning
  split
  · split
    · constructor
      · exact closed.behind.endRun _ _ _
      · intro other turn after terminal
        rcases ended_endRun closed.behind after terminal with ⟨before, shown⟩ | ⟨-, -, settled⟩
        · rw [shown]
          exact closed.closed other turn before terminal
        · exact settled
    · exact closed
  · exact closed

theorem Closed.resetProjectionQueues (closed : Closed panel) :
    Closed panel.resetProjectionQueues := by
  have stopped : ∀ msgIds : List String, ∀ other : Projection, Closed other →
      Closed (msgIds.foldl Projection.stopRunning other) := by
    intro msgIds
    induction msgIds with
    | nil => exact fun _ => id
    | cons msgId msgIds ih =>
      exact fun other isClosed => ih _ (isClosed.stopRunning msgId)
  have last := stopped (panel.store.turns.map Prod.fst) panel closed
  exact ⟨⟨last.behind.indexed, last.behind.running⟩, last.closed⟩

theorem Painting.reset (closed : Closed panel) : Painting panel.resetProjectionQueues where
  behind := closed.resetProjectionQueues.behind
  settled := closed.resetProjectionQueues.closed
  ordered := fun _ _ => rfl
  terminalLast := fun _ => trivial
  named := rfl

theorem Painting.onTurnStarted (painting : Painting panel)
    (drained : ∀ runId, panel.pending runId = []) (msgId runId : String) :
    Painting (panel.onTurnStarted msgId runId) := by
  rw [Projection.onTurnStarted]
  split
  · exact painting
  · have bound := painting.calm (calm_bind painting.behind.indexed msgId runId)
    constructor
    · constructor
      · exact bound.behind.indexed
      · intro other timeline shown opened
        by_cases here : other = msgId
        · change (putKey msgId {} panel.timelines).lookup other = _ at shown
          rw [here, lookup_putKey_self] at shown
          cases shown
          rfl
        · change (putKey msgId {} panel.timelines).lookup other = _ at shown
          rw [lookup_putKey_of_ne here] at shown
          exact bound.behind.running other timeline shown opened
    · intro other turn found terminal
      show LeavesNone _ (panel.pending other)
      rw [drained, leavesNone_nil]
      intro id
      show ((putKey msgId {} panel.timelines).lookup turn.msgId).bind _ ≠ _
      by_cases here : turn.msgId = msgId
      · rw [here, lookup_putKey_self]
        rintro ⟨⟩
      · rw [lookup_putKey_of_ne here]
        have settled := bound.settled other turn found terminal
        change LeavesNone _ (panel.pending other) at settled
        rw [drained, leavesNone_nil] at settled
        exact settled id
    · exact painting.ordered
    · exact painting.terminalLast
    · exact painting.named

/-- Noting a reference changes no status. -/
theorem status_noteRestoreRef (indexed : Indexed panel.store) (restoreRef other : String) :
    ((TurnStore.noteRestoreRef panel.store runId restoreRef).byRun other).bind
        Turn.status = (panel.store.byRun other).bind Turn.status := by
  unfold TurnStore.noteRestoreRef
  split
  · rename_i turn found
    have held := (indexed.byRun_iff.mp found).2
    split
    · rw [Store.byRun, Store.byRun, TurnStore.messageByRun_put]
      cases panel.store.messageByRun.lookup other with
      | none => rfl
      | some msgId =>
        rw [Option.bind_some, Option.bind_some, lookup_put]
        split
        · rename_i here
          rw [here, held]
          rfl
        · rfl
    · rfl
  · rfl

theorem Painting.noted (painting : Painting panel) (runId : String)
    (frame : Frame) : Painting (panel.noted runId frame) := by
  unfold Projection.noted
  split
  · exact painting.calm (calm_noteRestoreRef painting.behind.indexed _ _)
  · exact ⟨⟨painting.behind.indexed, painting.behind.running⟩, painting.settled,
      painting.ordered, painting.terminalLast, painting.named⟩
  · exact ⟨⟨painting.behind.indexed, painting.behind.running⟩, painting.settled,
      painting.ordered, painting.terminalLast, painting.named⟩
  · exact painting

theorem pending_noted (frame : Frame) : (panel.noted runId frame).pending = panel.pending := by
  unfold Projection.noted
  split
  · rfl
  · rfl
  · rfl
  · rfl

theorem isTerminal_noted (indexed : Indexed panel.store) (frame : Frame) :
    (panel.noted runId frame).isTerminal runId = panel.isTerminal runId := by
  unfold Projection.noted
  split
  · rw [Projection.isTerminal, Projection.status, status_noteRestoreRef indexed]
    rfl
  · rfl
  · rfl
  · rfl

/-- Queueing something that is no activity leaves the end of a run as settled
as it was. -/
theorem EndsSettled.enqueue (settles : EndsSettled panel runId)
    (run : runId ≠ "") {type : PublicationType} {detail : Json} :
    EndsSettled (panel.enqueue runId (.other type detail)) runId := by
  intro turn found unfinished id running
  rw [store_enqueue run] at found
  apply settles turn found unfinished id
  rcases pending_enqueue run (.other type detail) with ⟨before, whole⟩ | same
  · have last := lastState_append id before
      ((panel.enqueue runId (.other type detail)).pending runId)
    rw [whole, running, Option.some_or, lastState_append] at last
    exact last
  · rw [← same]
    exact running

/-- The frame arrives behind no terminal frame that still waits, and if it ends
the run, no waiting activity would leave a step running. -/
structure OrderlyFrame (panel : Projection) (runId : String) (frame : Frame) : Prop where
  run : runId ≠ ""
  plain : (panel.publicationOf frame).isSome = true → panel.isTerminal runId = false →
      ∀ earlier ∈ panel.pending runId, earlier.isTerminal = false
  settles : (panel.endingOf runId frame).isSome = true → EndsSettled panel runId

variable {frame : Frame}

theorem publicationOf_of_ending (ends : (panel.endingOf runId frame).isSome = true) :
    ∃ type detail, panel.publicationOf frame = some (.other type detail) := by
  cases frame with
  | turnOutcome outcomeType malformed durationMs detail =>
    exact ⟨.turnOutcome, detail, rfl⟩
  | streamError detail => exact ⟨.streamError, detail, rfl⟩
  | _ => cases ends

theorem store_noted_of_ending (ends : (panel.endingOf runId frame).isSome = true) :
    (panel.noted runId frame).store = panel.store := by
  cases frame with
  | turnOutcome outcomeType malformed durationMs detail =>
    unfold Projection.noted
    split
    · contradiction
    · contradiction
    · rfl
    · rfl
  | streamError detail => rfl
  | _ => cases ends

theorem Painting.receive (painting : Painting panel) (orderly : OrderlyFrame panel runId frame) :
    Painting (panel.receive runId frame) := by
  have noted := painting.noted runId frame
  have queued : ∀ item, panel.publicationOf frame = some item →
      Painting ((panel.noted runId frame).enqueue runId item) := by
    intro item publishes
    apply noted.enqueue orderly.run
    intro unfinished
    rw [isTerminal_noted painting.behind.indexed] at unfinished
    rw [pending_noted]
    exact orderly.plain (by rw [publishes]; rfl) unfinished
  rw [Projection.receive]
  cases ending : panel.endingOf runId frame with
  | none =>
    dsimp only
    split
    · rename_i item publishes
      exact queued item publishes
    · exact noted
  | some ended =>
    have ends : (panel.endingOf runId frame).isSome = true := by
      rw [ending]
      rfl
    obtain ⟨type, detail, publishes⟩ := publicationOf_of_ending ends
    have settles : EndsSettled (panel.noted runId frame) runId := by
      intro turn found unfinished
      rw [store_noted_of_ending ends] at found
      rw [pending_noted]
      exact orderly.settles ends turn found unfinished
    rw [publishes]
    exact (queued _ publishes).endRun (settles.enqueue orderly.run) ended.1 ended.2

def ShownClosed (panel : Projection) : Prop :=
  ∀ runId turn, panel.store.byRun runId = some turn → turn.isTerminal = true →
    ∀ id, shownIn panel.timelines turn.msgId id ≠ some .running

/-- An event meets no activity whose step it would leave running: none waits
when a run ends, and no ended run shows one when the queues are dropped. -/
def Orderly (panel : Projection) : Event → Prop
  | .frame runId frame => OrderlyFrame panel runId frame
  | .turnStopped runId => EndsSettled panel runId
  | .turnStarted _ _ => ShownClosed panel
  | _ => True

theorem Painting.step (painting : Painting panel) {event : Event} (orderly : Orderly panel event) :
    Painting (ProjectionQueues.step event panel) := by
  cases event with
  | frame runId frame => exact painting.receive orderly
  | callback runId => exact painting.fire runId
  | visibilityChange hidden => exact painting.visibilityChange hidden
  | turnStopped runId => exact painting.endRun orderly .stopped none
  | turnStarted msgId runId =>
    have closed : Closed panel := ⟨painting.behind, orderly⟩
    exact (Painting.reset closed).onTurnStarted (fun _ => rfl) msgId runId
  | resolve runId => exact painting.resolve runId
  | activate msgId =>
    exact ⟨⟨painting.behind.indexed, painting.behind.running⟩,
      painting.settled, painting.ordered, painting.terminalLast,
      painting.named⟩

/-- What was published and what waits are what arrived since the queues were
last dropped, in its order; and once a run is terminal and its queue is drained,
no step of its timeline runs. -/
structure PaintsInOrder (panel : Projection) : Prop where
  ordered : ∀ runId, runId ≠ "" →
    ofRun runId panel.published ++ panel.pending runId = ofRun runId panel.arrived
  settled : ∀ runId turn timeline, panel.store.byRun runId = some turn →
    turn.isTerminal = true → panel.pending runId = [] →
      panel.timelines.lookup turn.msgId = some timeline → timeline.Settled

theorem Painting.paintsInOrder (painting : Painting panel) : PaintsInOrder panel where
  ordered := painting.ordered
  settled := by
    intro runId turn timeline found terminal drained held
    have settled := painting.settled runId turn found terminal
    rw [drained, leavesNone_nil] at settled
    apply settled_iff.mpr
    intro id
    have shown := settled id
    rw [shownIn, held] at shown
    exact shown

/-- In a run whose events are all orderly, the panel paints in order and leaves
nothing running. -/
theorem paintsInOrder_of_orderly (reached : Reaches ProjectionQueues.step Orderly {} panel) :
    PaintsInOrder panel :=
  (reached.invariant Painting.empty fun _ _ painting orderly =>
    painting.step orderly).paintsInOrder

end Panels

def searching (state : StepState) : Frame :=
  .activity { id := "a1", kind := "querying", state := some state }

/-- The answer arrives once the search has been painted to its end. -/
theorem paintsInOrder_of_orderly_search : PaintsInOrder (runFrom step {}
      [.turnStarted "m1" "r1", .frame "r1" (searching .running), .callback "r1",
        .frame "r1" (searching .completed), .callback "r1",
        .frame "r1" (.turnOutcome "answered" false (some 5) .null)]) := by
  have nothing : ∀ (panel : Projection) (frame : Frame),
      panel.pending "r1" = [] → OrderlyFrame panel "r1" frame := by
    intro panel frame drained
    constructor
    · decide
    · intro _ _
      rw [drained]
      exact fun _ member => absurd member List.not_mem_nil
    · intro _ _ _ _ id
      rw [drained]
      nofun
  apply paintsInOrder_of_orderly
  apply reaches_runFrom .start
  have fresh : ShownClosed {} := fun _ _ found => nomatch found
  exact ⟨fresh, nothing _ _ rfl, trivial, nothing _ _ rfl, trivial, nothing _ _ rfl, trivial⟩

def OfRuns (_ : Projection) : Event → Prop
  | .frame runId _ => runId ≠ ""
  | _ => True

/-- The answer arrives before the search has had its frame: the timeline ends,
and then the search is painted as running. -/
theorem not_paintsInOrder_search :
    ¬ ∀ panel, Reaches step OfRuns {} panel → PaintsInOrder panel := by
  intro always
  have reached : Reaches step OfRuns {} (runFrom step {}
      [.turnStarted "m1" "r1", .frame "r1" (searching .running),
        .frame "r1" (.turnOutcome "answered" false (some 5) .null),
        .callback "r1"]) :=
    have named : "r1" ≠ "" := by decide
    reaches_runFrom .start ⟨trivial, named, named, trivial, trivial⟩
  have settled := (always _ reached).settled "r1" _ _ rfl rfl rfl rfl
  exact settled ("a1", _) List.mem_cons_self rfl

end McpAssistant.Panel.ProjectionQueues
