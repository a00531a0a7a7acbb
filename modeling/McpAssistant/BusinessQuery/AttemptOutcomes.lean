import McpAssistant.BusinessQuery.PlannerAttempts
import McpAssistant.Foundations.Interleaving

/-!
# One outcome for each attempt

Whatever the writers of a journal do, in whatever order they get hold of its
lock, an attempt ends once, a stale writer changes nothing, and only a reclaimed
lease takes the epoch ahead.
-/

namespace McpAssistant.BusinessQuery.AttemptOutcomes

open AppendOnlyJournal PlannerAttempts InMemoryPlannerAttemptSink
open Foundations.Interleaving

variable {digests : Digests} {sink later : InMemoryPlannerAttemptSink}

/-- What a call may change. -/
inductive Moves (digests : Digests) (sink : InMemoryPlannerAttemptSink) :
    AttemptCall → InMemoryPlannerAttemptSink → Prop where
  | stays (call : AttemptCall) : Moves digests sink call sink
  | starts (start : PlannerAttemptStart) (fresh : sink.attempts start.attemptId = none) :
      Moves digests sink (.start start)
        ((sink.setAttempt start.attemptId (candidate digests start)).setIdempotency
          start.idempotencyKey start.attemptId)
  | responds (attemptId : String) (expectedLeaseEpoch : Int)
      (response : PlannerAttemptResponse) (state : AttemptState)
      (found : sink.attempts attemptId = some state)
      (current : state.leaseEpoch = expectedLeaseEpoch)
      (isOpen : state.terminal = none) :
      Moves digests sink (.commitResponse attemptId expectedLeaseEpoch response)
        (sink.setResponse attemptId (response, digests.response response))
  | finishes (attemptId : String) (expectedLeaseEpoch : Int)
      (terminal : PlannerAttemptTerminal) (state next : AttemptState)
      (found : sink.attempts attemptId = some state)
      (current : state.leaseEpoch = expectedLeaseEpoch)
      (changes : Changes state next)
      (sameEpoch : next.leaseEpoch = state.leaseEpoch) :
      Moves digests sink (.finish attemptId expectedLeaseEpoch terminal)
        (sink.setAttempt attemptId next)
  | reclaims (attemptId owner : String) (now leaseExpiresAt : Int) (state next : AttemptState)
      (found : sink.attempts attemptId = some state)
      (changes : Changes state next)
      (ahead : next.leaseEpoch = state.leaseEpoch + 1)
      (isOpen : state.terminal = none) (ended : state.leaseExpiresAt ≤ now) :
      Moves digests sink (.claimRecovery attemptId owner now leaseExpiresAt)
        (sink.setAttempt attemptId next)

variable {attemptId : String} {state : AttemptState}

theorem required_eq_ok (required : sink.required attemptId = .ok state) :
    sink.attempts attemptId = some state := by
  rw [InMemoryPlannerAttemptSink.required] at required
  cases found : sink.attempts attemptId with
  | none =>
    rw [found] at required
    cases required
  | some other =>
    rw [found] at required
    cases required
    rfl

theorem fresh_of_startEntry {candidate started : AttemptState}
    {byKey byId : Option AttemptState} (entered : startEntry candidate byKey byId =
      .ok started) (unkeyed : byKey = none) : byId = none := by
  rw [unkeyed] at entered
  cases byId with
  | none => rfl
  | some existing => cases entered

theorem moves_start (start : PlannerAttemptStart) :
    Moves digests sink (.start start) (sink.start digests start).1 := by
  unfold InMemoryPlannerAttemptSink.start
  split
  · exact .stays _
  · split
    · exact .stays _
    · rename_i started entered
      split
      · exact .stays _
      · rename_i unkeyed
        apply Moves.starts
        apply fresh_of_startEntry entered
        rw [existingByIdempotencyKey, unkeyed]

theorem moves_commitResponse (attemptId : String) (expectedLeaseEpoch : Int)
    (response : PlannerAttemptResponse) :
    Moves digests sink (.commitResponse attemptId expectedLeaseEpoch response)
      (sink.commitResponse digests attemptId expectedLeaseEpoch response).1 := by
  unfold InMemoryPlannerAttemptSink.commitResponse
  split
  · exact .stays _
  · rename_i state required
    split
    · exact .stays _
    · rename_i checked
      split
      · exact .stays _
      · rename_i isOpen
        split
        · split
          · exact .stays _
          · exact .stays _
        · exact .responds attemptId expectedLeaseEpoch response state
            (required_eq_ok required) (checkLeaseEpoch_eq_ok.mp checked)
            (not_not.mp isOpen)

theorem moves_finish (attemptId : String) (expectedLeaseEpoch : Int)
    (terminal : PlannerAttemptTerminal) :
    Moves digests sink (.finish attemptId expectedLeaseEpoch terminal)
      (sink.finish digests attemptId expectedLeaseEpoch terminal).1 := by
  unfold InMemoryPlannerAttemptSink.finish
  split
  · exact .stays _
  · rename_i state required
    split
    · exact .stays _
    · split
      · exact .stays _
      · split
        · exact .stays _
        · rename_i next committed
          rcases commitTerminal_eq_ok committed with ⟨current, changes, sameEpoch⟩
          exact .finishes attemptId expectedLeaseEpoch terminal state next
            (required_eq_ok required) current changes sameEpoch

theorem moves_claimRecovery (attemptId owner : String) (now leaseExpiresAt : Int) :
    Moves digests sink (.claimRecovery attemptId owner now leaseExpiresAt)
      (sink.claimRecovery attemptId owner now leaseExpiresAt).1 := by
  unfold InMemoryPlannerAttemptSink.claimRecovery
  split
  · exact .stays _
  · rename_i state required
    split
    · exact .stays _
    · rename_i next reclaimed
      rcases reclaimLease_eq_ok reclaimed with ⟨changes, ahead, isOpen, ended⟩
      exact .reclaims attemptId owner now leaseExpiresAt state next
        (required_eq_ok required) changes ahead isOpen ended

theorem moves_call (made : AttemptCall) : Moves digests sink made (call digests made sink).1 := by
  cases made with
  | start start => exact moves_start start
  | commitResponse attemptId expectedLeaseEpoch response =>
    exact moves_commitResponse attemptId expectedLeaseEpoch response
  | finish attemptId expectedLeaseEpoch terminal =>
    exact moves_finish attemptId expectedLeaseEpoch terminal
  | claimRecovery attemptId owner now leaseExpiresAt =>
    exact moves_claimRecovery attemptId owner now leaseExpiresAt

variable {made : AttemptCall}

/-- An entry that was there is still there, changed as it may be. -/
theorem Moves.changes (moves : Moves digests sink made later)
    (held : sink.attempts attemptId = some state) :
    ∃ next, later.attempts attemptId = some next ∧ Changes state next := by
  have set : ∀ other next, (other = attemptId → Changes state next) →
      ∃ kept, Function.update sink.attempts other (some next) attemptId =
        some kept ∧ Changes state kept := by
    intro other next changes
    by_cases same : attemptId = other
    · rw [same, Function.update_self]
      exact ⟨next, rfl, changes same.symm⟩
    · rw [Function.update_of_ne same]
      exact ⟨state, held, .replays⟩
  cases moves with
  | stays => exact ⟨state, held, .replays⟩
  | starts start fresh =>
    apply set
    rintro rfl
    rw [held] at fresh
    cases fresh
  | responds other epoch response current found isCurrent isOpen =>
    exact ⟨state, held, .replays⟩
  | finishes other epoch terminal current next found isCurrent changes sameEpoch =>
    apply set
    rintro rfl
    rw [held] at found
    cases found
    exact changes
  | reclaims other owner now expires current next found changes ahead isOpen ended =>
      apply set
      rintro rfl
      rw [held] at found
      cases found
      exact changes

/-- A closed entry's response does not change either. -/
theorem Moves.responses_of_closed (moves : Moves digests sink made later)
    (held : sink.attempts attemptId = some state)
    (closed : state.terminal ≠ none) :
    later.responses attemptId = sink.responses attemptId := by
  cases moves with
  | responds other epoch response current found isCurrent isOpen =>
    apply Function.update_of_ne
    rintro rfl
    rw [held] at found
    cases found
    exact closed isOpen
  | _ => rfl

inductive Presents (attemptId : String) (leaseEpoch : Int) : AttemptCall → Prop where
  | commitResponse (response : PlannerAttemptResponse) : Presents attemptId leaseEpoch
        (.commitResponse attemptId leaseEpoch response)
  | finish (terminal : PlannerAttemptTerminal) :
      Presents attemptId leaseEpoch (.finish attemptId leaseEpoch terminal)

theorem Moves.of_stale (moves : Moves digests sink made later) {leaseEpoch : Int}
    (held : sink.attempts attemptId = some state)
    (stale : state.leaseEpoch ≠ leaseEpoch)
    (presents : Presents attemptId leaseEpoch made) : later = sink := by
  cases presents with
  | commitResponse response =>
    cases moves with
    | stays => rfl
    | responds _ _ _ current found isCurrent isOpen =>
      rw [held] at found
      cases found
      exact absurd isCurrent stale
  | finish terminal =>
    cases moves with
    | stays => rfl
    | finishes _ _ _ current next found isCurrent changes sameEpoch =>
      rw [held] at found
      cases found
      exact absurd isCurrent stale

def Reclaims (attemptId : String) (state : AttemptState) (made : AttemptCall) : Prop :=
  ∃ owner now leaseExpiresAt, made = .claimRecovery attemptId owner now leaseExpiresAt ∧
      state.terminal = none ∧ state.leaseExpiresAt ≤ now

variable {next : AttemptState}

theorem Moves.epoch (moves : Moves digests sink made later)
    (held : sink.attempts attemptId = some state)
    (after : later.attempts attemptId = some next) :
    next.leaseEpoch = state.leaseEpoch ∨
      next.leaseEpoch = state.leaseEpoch + 1 ∧ Reclaims attemptId state made := by
  have unchanged : ∀ {other : AttemptState}, some other = some next →
      sink.attempts attemptId = some other → next.leaseEpoch = state.leaseEpoch := by
    intro other same found
    cases same
    rw [held] at found
    cases found
    rfl
  cases moves with
  | stays => exact .inl (unchanged (held.symm.trans after) held)
  | starts start fresh =>
    have apart : attemptId ≠ start.attemptId := by
      rintro rfl
      rw [held] at fresh
      cases fresh
    have kept : sink.attempts attemptId = some next :=
      (Function.update_of_ne apart _ _).symm.trans after
    exact .inl (unchanged (held.symm.trans kept) held)
  | responds other epoch response current found isCurrent isOpen =>
    exact .inl (unchanged (held.symm.trans after) held)
  | finishes other epoch terminal current changed found isCurrent changes sameEpoch =>
      have updated : Function.update sink.attempts other (some changed) attemptId =
          some next := after
      by_cases same : attemptId = other
      · rw [same, Function.update_self] at updated
        cases updated
        rw [same, found] at held
        cases held
        exact .inl sameEpoch
      · rw [Function.update_of_ne same] at updated
        exact .inl (unchanged (held.symm.trans updated) held)
  | reclaims other owner now expires current changed found changes ahead isOpen ended =>
      have updated : Function.update sink.attempts other (some changed) attemptId =
          some next := after
      by_cases same : attemptId = other
      · rw [same, Function.update_self] at updated
        cases updated
        rw [same, found] at held
        cases held
        rw [same]
        exact .inr ⟨ahead, owner, now, expires, rfl, isOpen, ended⟩
      · rw [Function.update_of_ne same] at updated
        exact .inl (unchanged (held.symm.trans updated) held)

def step (digests : Digests) (made : AttemptCall)
    (sink : InMemoryPlannerAttemptSink) : InMemoryPlannerAttemptSink :=
  (call digests made sink).1

/-- The sinks that calls of any writers lead to, in any order. -/
abbrev Leads (digests : Digests) (sink later : InMemoryPlannerAttemptSink) :
    Prop :=
  Reaches (step digests) (fun _ _ => True) sink later

/-- An attempt that has ended stays as it ended, a stale writer changes nothing,
and an attempt's epoch only goes one ahead, when its lease is over, it has not
ended and somebody reclaims it. -/
structure OneOutcome (digests : Digests) (sink : InMemoryPlannerAttemptSink) : Prop where
  final : ∀ later, Leads digests sink later → ∀ attemptId state,
    sink.attempts attemptId = some state → state.terminal ≠ none →
      later.attempts attemptId = some state ∧ later.responses attemptId = sink.responses attemptId
  stale : ∀ attemptId state leaseEpoch made,
    sink.attempts attemptId = some state → state.leaseEpoch ≠ leaseEpoch →
      Presents attemptId leaseEpoch made → step digests made sink = sink
  epochs : ∀ made attemptId state next, sink.attempts attemptId = some state →
      (step digests made sink).attempts attemptId = some next →
        next.leaseEpoch = state.leaseEpoch ∨
          next.leaseEpoch = state.leaseEpoch + 1 ∧ Reclaims attemptId state made
  grows : ∀ later, Leads digests sink later → ∀ attemptId state,
    sink.attempts attemptId = some state → ∃ next,
      later.attempts attemptId = some next ∧ next.start = state.start ∧
        state.leaseEpoch ≤ next.leaseEpoch

theorem epoch_le_of_changes (changes : Changes state next) :
    state.leaseEpoch ≤ next.leaseEpoch := by
  rcases changes.epoch with same | ⟨ahead, _⟩
  · exact Int.le_of_eq same.symm
  · rw [ahead]
    exact Int.le_add_one (Int.le_refl _)

theorem final_of_leads (leads : Leads digests sink later)
    (held : sink.attempts attemptId = some state)
    (closed : state.terminal ≠ none) :
    later.attempts attemptId = some state ∧
      later.responses attemptId = sink.responses attemptId := by
  apply @Reaches.invariant _ _ _ _ _ _ (fun later =>
    later.attempts attemptId = some state ∧
      later.responses attemptId = sink.responses attemptId) leads
  · exact ⟨held, rfl⟩
  · rintro before made ⟨kept, responses⟩ _
    have moves := @moves_call digests before made
    rcases moves.changes kept with ⟨next, found, changes⟩
    rw [changes.of_closed closed] at found
    exact ⟨found, (moves.responses_of_closed kept closed).trans responses⟩

theorem grows_of_leads (leads : Leads digests sink later)
    (held : sink.attempts attemptId = some state) :
    ∃ next, later.attempts attemptId = some next ∧ next.start = state.start ∧
      state.leaseEpoch ≤ next.leaseEpoch := by
  apply @Reaches.invariant _ _ _ _ _ _ (fun later =>
    ∃ next, later.attempts attemptId = some next ∧
      next.start = state.start ∧ state.leaseEpoch ≤ next.leaseEpoch) leads
  · exact ⟨state, held, rfl, Int.le_refl _⟩
  · rintro before made ⟨kept, found, sameStart, ahead⟩ _
    rcases (@moves_call digests before made).changes found with ⟨next, isNext, changes⟩
    exact ⟨next, isNext, changes.start.1.trans sameStart,
      Int.le_trans ahead (epoch_le_of_changes changes)⟩

/-- In every state of the sink, whatever its writers do from there on. -/
theorem attempt_has_one_outcome (digests : Digests)
    (sink : InMemoryPlannerAttemptSink) : OneOutcome digests sink := by
  constructor
  · intro later leads attemptId state held closed
    exact final_of_leads leads held closed
  · intro attemptId state leaseEpoch made held stale presents
    exact moves_call made |>.of_stale held stale presents
  · intro made attemptId state next held after
    exact moves_call made |>.epoch held after
  · intro later leads attemptId state held
    exact grows_of_leads leads held

end McpAssistant.BusinessQuery.AttemptOutcomes
