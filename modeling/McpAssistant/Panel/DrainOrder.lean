import McpAssistant.Panel.CalmStore
import McpAssistant.Panel.ProjectionQueues

/-!
# Draining in order

What a run publishes and what still waits are together what arrived.  A run
ends before its queue drains, so the steps it leaves are those of the timeline
as the waiting activities will rewrite them.
-/

namespace McpAssistant.Panel.ProjectionQueues

open Foundations.JsonReading
open TurnStore
open WorkTimeline List

def lastState (id : String) : List Publication → Option StepState
  | [] => none
  | .activity activity :: items =>
    (lastState id items).or (if activity.isNamed && activity.id = id then some activity.stepState
      else none)
  | .other _ _ :: items => lastState id items

theorem lastState_append (id : String) (first second : List Publication) :
    lastState id (first ++ second) = (lastState id second).or (lastState id first) := by
  induction first with
  | nil => exact Option.or_none.symm
  | cons item items ih =>
    cases item with
    | activity activity =>
      rw [cons_append, lastState, lastState, ih, Option.or_assoc]
    | other type detail => exact ih

/-- Once what waits is published, no step runs. -/
def LeavesNone (shown : String → Option StepState) (items : List Publication) : Prop :=
  ∀ id, (lastState id items).or (shown id) ≠ some .running

variable {shown : String → Option StepState}

theorem leavesNone_nil : LeavesNone shown [] ↔ ∀ id, shown id ≠ some .running := Iff.rfl

variable {items : List Publication}

theorem leavesNone_other {type : PublicationType} {detail : Json} :
    LeavesNone shown (.other type detail :: items) ↔ LeavesNone shown items :=
  Iff.rfl

/-- Publishing an activity does to the timeline what waiting for it promised. -/
theorem leavesNone_observe {timeline : Timeline} {activity : Activity} :
    LeavesNone timeline.shown (.activity activity :: items) ↔
      LeavesNone (timeline.observe activity).shown items := by
  apply forall_congr'
  intro id
  rw [lastState, Option.or_assoc]
  cases named : activity.isNamed with
  | false =>
    rw [observe_of_unnamed named]
    rfl
  | true =>
    by_cases same : activity.id = id
    · subst same
      rw [shown_observe_self named]
      simp
    · rw [shown_observe_of_ne (Ne.symm same)]
      simp [same]

theorem leavesNone_of_settled (settled : ∀ id, shown id ≠ some .running)
    (finishing : ∀ id, lastState id items ≠ some .running) :
    LeavesNone shown items := by
  intro id
  cases last : lastState id items with
  | none => exact settled id
  | some state =>
    rw [Option.some_or, ← last]
    exact finishing id

/-- A terminal frame waits behind everything else. -/
def TerminalLast : List Publication → Prop
  | [] => True
  | item :: items => (item.isTerminal = true → items = []) ∧ TerminalLast items

theorem terminalLast_append {item : Publication}
    (plain : ∀ earlier ∈ items, earlier.isTerminal = false) :
    TerminalLast (items ++ [item]) := by
  induction items with
  | nil => exact ⟨fun _ => rfl, trivial⟩
  | cons first items ih =>
    constructor
    · intro terminal
      rw [plain first mem_cons_self] at terminal
      cases terminal
    · exact ih fun earlier member => plain earlier (mem_cons_of_mem _ member)
/-- What a message's timeline shows for an activity. -/
def shownIn (timelines : List (String × Timeline)) (msgId id : String) : Option StepState :=
  (timelines.lookup msgId).bind fun timeline => timeline.shown id

def ofRun (runId : String) (log : List (String × Publication)) : List Publication :=
  (log.filter fun entry => entry.1 = runId).map Prod.snd

theorem ofRun_append (runId : String) (log : List (String × Publication))
    (entry : String × Publication) :
    ofRun runId (log ++ [entry]) =
      ofRun runId log ++ (if entry.1 = runId then [entry.2] else []) := by
  rw [ofRun, filter_append, map_append]
  congr 1
  by_cases same : entry.1 = runId
  · simp [same]
  · simp [same]

/-- The turns behind the panel: a timeline runs until its turn has ended. -/
structure Behind (panel : Projection) : Prop where
  indexed : Indexed panel.store
  running : ∀ msgId timeline, panel.timelines.lookup msgId = some timeline →
    (panel.store.turnAt msgId).isTerminal = false → timeline.state = .running

/-- A panel that paints in order: what it published and what waits are what
arrived, and the waiting activities of an ended run leave no step running. -/
structure Painting (panel : Projection) : Prop where
  behind : Behind panel
  settled : ∀ runId turn, panel.store.byRun runId = some turn → turn.isTerminal = true →
      LeavesNone (shownIn panel.timelines turn.msgId) (panel.pending runId)
  ordered : ∀ runId, runId ≠ "" →
    ofRun runId panel.published ++ panel.pending runId = ofRun runId panel.arrived
  terminalLast : ∀ runId, TerminalLast (panel.pending runId)
  named : panel.queues.lookup "" = none

theorem Painting.empty : Painting {} where
  behind :=
    { indexed :=
        { keyed := fun _ _ held => nomatch held
          carried := fun _ _ held => nomatch held
          known := fun _ _ _ held => nomatch held
          blank := fun _ _ held => nomatch held }
      running := fun _ _ held => nomatch held }
  settled := fun _ _ found => nomatch found
  ordered := fun _ _ => rfl
  terminalLast := fun _ => trivial
  named := rfl

section Panels

variable {panel : Projection} {runId : String}

theorem pending_setQueue (queue : Queue) (other : String) :
    (panel.setQueue runId queue).pending other =
      if other = runId then queue.items else panel.pending other := by
  rw [Projection.pending, Projection.setQueue]
  split
  · rename_i same
    rw [same, lookup_putKey_self]
    rfl
  · rename_i apart
    rw [lookup_putKey_of_ne apart]
    rfl

theorem pending_dropQueue (other : String) : (panel.dropQueue runId).pending other =
      if other = runId then [] else panel.pending other := by
  rw [Projection.pending, Projection.dropQueue]
  split
  · rename_i same
    rw [same, lookup_eraseKey_self]
    rfl
  · rename_i apart
    rw [lookup_eraseKey_of_ne apart]
    rfl

variable {store : Store}

theorem Behind.calm (behind : Behind panel)
    (calm : Calm panel.store store) : Behind { panel with store } where
  indexed := calm.indexed
  running := fun msgId timeline held opened =>
    behind.running msgId timeline held (calm.opened msgId opened)

theorem Painting.calm (painting : Painting panel)
    (calm : Calm panel.store store) : Painting { panel with store } where
  behind := painting.behind.calm calm
  settled := by
    intro other turn found terminal
    obtain ⟨earlier, before, ended, same⟩ := calm.ended other turn found terminal
    rw [← same]
    exact painting.settled other earlier before ended
  ordered := painting.ordered
  terminalLast := painting.terminalLast
  named := painting.named

variable {queue : Queue}

theorem Painting.sameItems (painting : Painting panel) (run : runId ≠ "")
    (same : queue.items = panel.pending runId) :
    Painting (panel.setQueue runId queue) := by
  have kept : ∀ other, (panel.setQueue runId queue).pending other = panel.pending other := by
    intro other
    rw [pending_setQueue]
    split
    · rename_i here
      rw [here, same]
    · rfl
  constructor
  · exact ⟨painting.behind.indexed, painting.behind.running⟩
  · intro other turn found terminal
    rw [kept]
    exact painting.settled other turn found terminal
  · intro other otherRun
    rw [kept]
    exact painting.ordered other otherRun
  · intro other
    rw [kept]
    exact painting.terminalLast other
  · exact (lookup_putKey_of_ne run.symm).trans painting.named

theorem Painting.dropEmpty (painting : Painting panel)
    (drained : panel.pending runId = []) : Painting (panel.dropQueue runId) := by
  have kept : ∀ other, (panel.dropQueue runId).pending other = panel.pending other := by
    intro other
    rw [pending_dropQueue]
    split
    · rename_i here
      rw [here, drained]
    · rfl
  constructor
  · exact ⟨painting.behind.indexed, painting.behind.running⟩
  · intro other turn found terminal
    rw [kept]
    exact painting.settled other turn found terminal
  · intro other otherRun
    rw [kept]
    exact painting.ordered other otherRun
  · intro other
    rw [kept]
    exact painting.terminalLast other
  · by_cases here : runId = ""
    · rw [here]
      exact lookup_eraseKey_self
    · exact (lookup_eraseKey_of_ne (Ne.symm here)).trans painting.named

variable {item : Publication} {items : List Publication}

theorem Painting.advance (painting : Painting panel) (run : runId ≠ "")
    (waits : panel.pending runId = item :: items)
    {timelines : List (String × Timeline)}
    (running : ∀ msgId timeline, timelines.lookup msgId = some timeline →
      (panel.store.turnAt msgId).isTerminal = false → timeline.state = .running)
    (elsewhere : ∀ msgId, (∀ turn, panel.store.byRun runId = some turn → turn.msgId ≠ msgId) →
        timelines.lookup msgId = panel.timelines.lookup msgId)
    (here : ∀ turn, panel.store.byRun runId = some turn →
      turn.isTerminal = true → LeavesNone (shownIn timelines turn.msgId) items) :
    Painting { panel.setQueue runId { items } with
      timelines, published := panel.published ++ [(runId, item)] } where
  behind :=
    { indexed := painting.behind.indexed
      running := running }
  settled := by
    intro other turn found terminal
    show LeavesNone _ ((panel.setQueue runId { items }).pending other)
    rw [pending_setQueue]
    split
    · rename_i same
      subst same
      exact here turn found terminal
    · rename_i apart
      have same : timelines.lookup turn.msgId = panel.timelines.lookup turn.msgId := by
        apply elsewhere
        intro own ownFound meet
        exact apart (painting.behind.indexed.runId_eq ownFound found meet).symm
      intro id
      show (lastState id _).or ((timelines.lookup turn.msgId).bind _) ≠ _
      rw [same]
      exact painting.settled other turn found terminal id
  ordered := by
    intro other otherRun
    show _ ++ (panel.setQueue runId { items }).pending other = _
    have before := painting.ordered other otherRun
    rw [pending_setQueue, ofRun_append]
    split
    · rename_i same
      subst same
      rw [waits] at before
      rw [if_pos rfl, append_assoc]
      exact before
    · rename_i apart
      rw [if_neg (Ne.symm apart), append_nil]
      exact before
  terminalLast := by
    intro other
    show TerminalLast ((panel.setQueue runId { items }).pending other)
    rw [pending_setQueue]
    split
    · have before := painting.terminalLast runId
      rw [waits] at before
      exact before.2
    · exact painting.terminalLast other
  named := (lookup_putKey_of_ne run.symm).trans painting.named

theorem Painting.resolve (painting : Painting panel) (runId : String) :
    Painting (panel.resolve runId) :=
  painting.calm (calm_resolve painting.behind.indexed runId panel.activeMessage)

theorem byRun_of_unknown (unknown : hasKey store.messageByRun runId = false) :
    store.byRun runId = none := by
  rw [Store.byRun]
  rw [hasKey, Option.isSome_eq_false_iff, Option.isNone_iff_eq_none] at unknown
  rw [unknown]
  rfl

theorem resolvedTurn_eq (indexed : Indexed panel.store) (run : runId ≠ "") :
    panel.resolvedTurn runId = (panel.resolve runId).store.byRun runId := by
  rw [Projection.resolvedTurn, Projection.resolve]
  dsimp only
  cases known : hasKey panel.store.messageByRun runId with
  | true =>
    have found : runId ≠ "" ∧ true = true := ⟨run, rfl⟩
    rw [if_pos found, TurnStore.resolve, known, if_pos found]
  | false =>
    have lost : ¬(runId ≠ "" ∧ false = true) := fun both => Bool.false_ne_true both.2
    rw [if_neg lost, TurnStore.resolve, known, if_neg lost]
    split
    · exact (byRun_of_unknown known).symm
    · rename_i active
      dsimp only
      split
      · rename_i elsewhere
        rw [if_pos (Or.inr ⟨elsewhere.1, elsewhere.2.2⟩)]
        have unknown : hasKey (panel.store.put
            (panel.store.turnAt panel.activeMessage)).messageByRun runId = false := known
        exact (byRun_of_unknown unknown).symm
      · rename_i open_
        have free : (panel.store.turnAt panel.activeMessage).runId = none := by
          cases held : panel.store.turns.lookup panel.activeMessage with
          | none => rw [TurnStore.turnAt_of_absent held]
          | some turn =>
            rw [TurnStore.turnAt_of_lookup held] at open_ ⊢
            cases carries : turn.runId with
            | none => rfl
            | some other =>
              have knows := indexed.known _ turn other held carries
              by_cases same : other = runId
              · rw [same, known] at knows
                cases knows
              · exfalso
                apply open_
                rw [carries]
                exact ⟨Option.some_ne_none other, run, fun eq => same (Option.some.inj eq)⟩
        have binds : runId ≠ "" ∧
            (panel.store.turnAt panel.activeMessage).runId = none :=
          ⟨run, free⟩
        have unblocked : ¬(runId = "" ∨
            (panel.store.turnAt panel.activeMessage).runId ≠ none ∧
              (panel.store.turnAt panel.activeMessage).runId ≠ some runId) := by
          rintro (blank | ⟨taken, -⟩)
          · exact run blank
          · exact taken free
        rw [if_neg unblocked, TurnStore.bind, if_neg active, if_pos binds]
        have here := indexed.turnAt_msgId panel.activeMessage
        rw [Store.byRun]
        show _ = ((putKey runId panel.activeMessage panel.store.messageByRun).lookup runId).bind _
        rw [lookup_putKey_self, Option.bind_some, Store.turnAt,
          TurnStore.turns_index, lookup_put, here, if_pos rfl]
        rfl

theorem timelineOf_running (behind : Behind panel) {turn : Turn}
    (held : panel.store.turnAt turn.msgId = turn)
    (unfinished : turn.isTerminal = false) :
    (panel.timelineOf turn).state = .running := by
  unfold Projection.timelineOf
  split
  · rename_i timeline found
    apply behind.running _ timeline found
    rw [held]
    exact unfinished
  · split
    · rename_i status found
      rw [Turn.isTerminal, found, Option.any_some] at unfinished
      rw [unfinished]
      rfl
    · rfl

theorem shown_timelineOf (turn : Turn) (id : String) : (panel.timelineOf turn).shown id =
      shownIn panel.timelines turn.msgId id := by
  unfold Projection.timelineOf
  rw [shownIn]
  split
  · rename_i timeline found
    rw [found]
    rfl
  · rename_i missing
    rw [missing]
    split
    · split
      · rfl
      · rfl
    · rfl

theorem Painting.publishOther (painting : Painting panel) (run : runId ≠ "")
    {type : PublicationType} {detail : Json}
    (waits : panel.pending runId = .other type detail :: items) :
    Painting ((panel.setQueue runId { items }).publish runId (.other type detail)) := by
  apply painting.advance run waits painting.behind.running
  · intro _ _
    rfl
  · intro turn found terminal
    have settled := painting.settled runId turn found terminal
    rw [waits] at settled
    exact leavesNone_other.mp settled

theorem Painting.publishActivity (painting : Painting panel) (run : runId ≠ "")
    {activity : Activity}
    (waits : panel.pending runId = .activity activity :: items) :
    Painting ((panel.setQueue runId { items }).publish runId (.activity activity)) := by
  have resolved := painting.resolve runId
  have turnOf := resolvedTurn_eq painting.behind.indexed run
  rw [Projection.publish, Projection.onActivity]
  split
  · rename_i turn isTurn
    have found : (panel.resolve runId).store.byRun runId = some turn := turnOf.symm.trans isTurn
    have held := resolved.behind.indexed.turnAt_of_byRun found
    apply resolved.advance run waits
    · intro msgId timeline shown unfinished
      by_cases here : msgId = turn.msgId
      · rw [here, lookup_putKey_self] at shown
        cases shown
        rw [here, held] at unfinished
        rw [state_observe]
        exact timelineOf_running resolved.behind held unfinished
      · rw [lookup_putKey_of_ne here] at shown
        exact resolved.behind.running msgId timeline shown unfinished
    · intro msgId apart
      exact lookup_putKey_of_ne (apart turn found).symm
    · intro own ownFound terminal
      rw [found] at ownFound
      cases ownFound
      have settled := resolved.settled runId turn found terminal
      change LeavesNone _ (panel.pending runId) at settled
      rw [waits] at settled
      have shown : shownIn (panel.resolve runId).timelines turn.msgId =
          ((panel.resolve runId).timelineOf turn).shown :=
        funext fun id => (shown_timelineOf turn id).symm
      rw [shown] at settled
      intro id
      rw [shownIn, lookup_putKey_self]
      exact leavesNone_observe.mp settled id
  · rename_i noTurn
    have found : (panel.resolve runId).store.byRun runId = none := turnOf.symm.trans noTurn
    apply resolved.advance run waits resolved.behind.running
    · intro _ _
      rfl
    · intro turn other
      rw [found] at other
      cases other

theorem pending_publishOther (type : PublicationType) (detail : Json) (items : List Publication) :
    ((panel.setQueue runId { items }).publish runId
      (.other type detail)).pending runId = items := by
  show (panel.setQueue runId { items }).pending runId = items
  rw [pending_setQueue, if_pos rfl]

theorem Painting.drainItems (painting : Painting panel) (run : runId ≠ "")
    (waits : panel.pending runId = items) :
    Painting (panel.drainItems runId items) := by
  induction items generalizing panel with
  | nil => exact painting.sameItems run waits.symm
  | cons item items ih =>
    cases item with
    | activity activity => exact painting.sameItems run waits.symm
    | other type detail =>
      rw [Projection.drainItems]
      have published := painting.publishOther run waits
      have rest := @pending_publishOther panel runId type detail items
      split
      · rename_i terminal
        have last := painting.terminalLast runId
        rw [waits] at last
        apply published.dropEmpty
        rw [rest, last.1 terminal]
      · exact ih published rest

/-- Draining publishes no activity, so it leaves the turns alone. -/
theorem store_drainItems (items : List Publication) :
    (panel.drainItems runId items).store = panel.store := by
  induction items generalizing panel with
  | nil => rfl
  | cons item items ih =>
    cases item with
    | activity activity => rfl
    | other type detail =>
      rw [Projection.drainItems]
      split
      · rfl
      · rw [ih]
        rfl

theorem suffix_of_eq {first second : List Publication} (same : first = second) :
    first <:+ second := by
  subst same
  exact suffix_rfl

/-- What still waits after draining waited before. -/
theorem pending_drainItems (items : List Publication) :
    (panel.drainItems runId items).pending runId <:+ items := by
  induction items generalizing panel with
  | nil =>
    apply suffix_of_eq
    rw [Projection.drainItems, pending_setQueue, if_pos rfl]
  | cons item items ih =>
    cases item with
    | activity activity =>
      apply suffix_of_eq
      rw [Projection.drainItems, pending_setQueue, if_pos rfl]
    | other type detail =>
      rw [Projection.drainItems]
      split
      · rw [pending_dropQueue, if_pos rfl]
        exact nil_suffix
      · exact ih.trans (suffix_cons _ _)

theorem pending_of_lookup (found : panel.queues.lookup runId = some queue) :
    panel.pending runId = queue.items := by
  rw [Projection.pending, found]
  rfl

theorem Painting.run_of_lookup (painting : Painting panel)
    (found : panel.queues.lookup runId = some queue) : runId ≠ "" := by
  rintro rfl
  rw [painting.named] at found
  cases found

theorem Painting.drain (painting : Painting panel) (runId : String) :
    Painting (panel.drain runId) := by
  unfold Projection.drain
  split
  · rename_i queue found
    split
    · exact painting
    · exact painting.drainItems (painting.run_of_lookup found) (pending_of_lookup found)
  · exact painting

theorem store_drain (runId : String) : (panel.drain runId).store = panel.store := by
  unfold Projection.drain
  split
  · split
    · rfl
    · exact store_drainItems _
  · rfl

theorem pending_drain (runId : String) :
    (panel.drain runId).pending runId <:+ panel.pending runId := by
  unfold Projection.drain
  split
  · rename_i queue found
    split
    · exact suffix_rfl
    · rw [pending_of_lookup found]
      exact pending_drainItems _
  · exact suffix_rfl

theorem Painting.push (painting : Painting panel) (run : runId ≠ "")
    (unfinished : panel.isTerminal runId = false)
    (plain : ∀ earlier ∈ panel.pending runId, earlier.isTerminal = false)
    (items : queue.items = panel.pending runId ++ [item]) :
    Painting { panel.setQueue runId queue with
      arrived := panel.arrived ++ [(runId, item)] } where
  behind := ⟨painting.behind.indexed, painting.behind.running⟩
  settled := by
    intro other turn found terminal
    show LeavesNone _ ((panel.setQueue runId queue).pending other)
    rw [pending_setQueue]
    split
    · rename_i same
      subst same
      rw [Projection.isTerminal, Projection.status] at unfinished
      change panel.store.byRun other = some turn at found
      rw [found, Option.bind_some, ← Turn.isTerminal, terminal] at unfinished
      cases unfinished
    · exact painting.settled other turn found terminal
  ordered := by
    intro other otherRun
    show _ ++ (panel.setQueue runId queue).pending other = _
    have before := painting.ordered other otherRun
    rw [pending_setQueue, ofRun_append]
    split
    · rename_i same
      subst same
      rw [if_pos rfl, ← before, append_assoc, items]
      rfl
    · rename_i apart
      rw [if_neg (Ne.symm apart), append_nil]
      exact before
  terminalLast := by
    intro other
    show TerminalLast ((panel.setQueue runId queue).pending other)
    rw [pending_setQueue]
    split
    · rw [items]
      exact terminalLast_append plain
    · exact painting.terminalLast other
  named := (lookup_putKey_of_ne run.symm).trans painting.named

theorem items_getD (runId : String) :
    ((panel.queues.lookup runId).getD {}).items = panel.pending runId := by
  rw [Projection.pending]
  cases panel.queues.lookup runId with
  | none => rfl
  | some queue => rfl

theorem Painting.enqueue (painting : Painting panel) (run : runId ≠ "")
    (plain : panel.isTerminal runId = false →
      ∀ earlier ∈ panel.pending runId, earlier.isTerminal = false) :
    Painting (panel.enqueue runId item) := by
  rw [Projection.enqueue, if_neg run]
  split
  · exact painting
  · rename_i unfinished
    rw [Bool.not_eq_true] at unfinished
    apply Painting.drain
    apply painting.push run unfinished (plain unfinished)
    show ((panel.queues.lookup runId).getD {}).items ++ [item] = _
    rw [items_getD]

theorem store_enqueue (run : runId ≠ "") (item : Publication) :
    (panel.enqueue runId item).store = panel.store := by
  rw [Projection.enqueue, if_neg run]
  split
  · rfl
  · exact store_drain runId

/-- What waits after queueing waited before, or is what was queued. -/
theorem pending_enqueue (run : runId ≠ "") (item : Publication) :
    (panel.enqueue runId item).pending runId <:+ panel.pending runId ++ [item] ∨
      (panel.enqueue runId item).pending runId = panel.pending runId := by
  rw [Projection.enqueue, if_neg run]
  split
  · exact .inr rfl
  · left
    apply (pending_drain runId).trans
    show (panel.setQueue runId _).pending runId <:+ _
    apply suffix_of_eq
    rw [pending_setQueue, if_pos rfl, items_getD]

theorem Painting.fire (painting : Painting panel) (runId : String) :
    Painting (panel.fire runId) := by
  unfold Projection.fire
  split
  · rename_i queue found
    have run := painting.run_of_lookup found
    have waits := pending_of_lookup found
    split
    · exact painting
    · split
      · rename_i empty
        rw [empty] at waits
        exact (painting.sameItems run waits.symm).drain runId
      · rename_i item items several
        rw [several] at waits
        cases item with
        | activity activity =>
          exact (painting.publishActivity run waits).drain runId
        | other type detail =>
          exact (painting.publishOther run waits).drain runId
  · exact painting

theorem items_release (hidden : Bool) (queue : Queue) :
    (queue.release hidden).items = queue.items := by
  rw [Queue.release]
  split
  · rfl
  · rfl

theorem Painting.visibilityChange (painting : Painting panel) (hidden : Bool) :
    Painting (panel.visibilityChange hidden) := by
  have drained : ∀ runIds : List String, ∀ other : Projection, Painting other →
      Painting (runIds.foldl Projection.drain other) := by
    intro runIds
    induction runIds with
    | nil => exact fun _ => id
    | cons runId runIds ih =>
      exact fun other paints => ih _ (paints.drain runId)
  apply drained
  have kept : ∀ runId, Projection.pending { panel with
      hidden
      queues := panel.queues.map fun entry =>
        (entry.1, entry.2.release hidden) } runId = panel.pending runId := by
    intro runId
    rw [Projection.pending, Projection.pending]
    dsimp only
    rw [lookup_map_values, Option.map_map]
    cases panel.queues.lookup runId with
    | none => rfl
    | some queue => exact items_release hidden queue
  constructor
  · exact ⟨painting.behind.indexed, painting.behind.running⟩
  · intro runId turn found terminal
    rw [kept]
    exact painting.settled runId turn found terminal
  · intro runId run
    rw [kept]
    exact painting.ordered runId run
  · intro runId
    rw [kept]
    exact painting.terminalLast runId
  · dsimp only
    rw [lookup_map_values, painting.named]
    rfl

end Panels

end McpAssistant.Panel.ProjectionQueues
