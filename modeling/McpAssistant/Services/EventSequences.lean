import McpAssistant.Foundations.Interleaving
import Mathlib.Data.List.Chain

/-!
# The sequence validator of a stream

The validator classifies every event before it is sent: the next of the sequence, an
exact resend of the last one, or neither.  What it accepted is a well-formed stream.
-/

namespace McpAssistant.Services.EventSequences

open Foundations.Interleaving

/-- An event with all its other fields. -/
structure AskV2EventBase (Payload : Type) where
  eventType : String
  sequence : Int
  payload : Payload
deriving DecidableEq

def terminalEventTypes : List String := [
  "turn_outcome", "stream_error"
]

/-- The stream adds the last type when it is loaded. -/
def knownEventTypes : List String := [
  "turn_accepted", "activity", "text_delta", "thought_start", "thought_delta",
  "thought_done", "result_stream_authorized", "table_start", "table_rows",
  "table_end", "record_details", "interaction", "turn_outcome", "stream_error",
  "citation_set"
]

inductive SequenceOutcome where
  | accept
  | ignore
  | reject
deriving DecidableEq

variable {Payload : Type} [DecidableEq Payload]

structure V2EventSequenceValidator (Payload : Type) where
  expectedSequence : Option Int := none
  terminalReached : Bool := false
  lastEvent : Option (AskV2EventBase Payload) := none
deriving DecidableEq

namespace V2EventSequenceValidator

/-- The validator after an event whose number was the next. -/
def accepting (validator : V2EventSequenceValidator Payload) (next : Int)
    (event : AskV2EventBase Payload) : V2EventSequenceValidator Payload where
  expectedSequence := some next
  terminalReached :=
    validator.terminalReached || terminalEventTypes.contains event.eventType
  lastEvent := some event

def validateNext (validator : V2EventSequenceValidator Payload) (event : AskV2EventBase Payload) :
    SequenceOutcome × V2EventSequenceValidator Payload :=
  if ¬knownEventTypes.contains event.eventType then (.reject, validator)
  else if validator.terminalReached then (.reject, validator)
  else
    match validator.expectedSequence with
    | none => (.accept, validator.accepting (event.sequence + 1) event)
    | some expected =>
      if event.sequence = expected - 1 then
        if validator.lastEvent = some event then (.ignore, validator)
        else (.reject, validator)
      else if event.sequence ≠ expected then (.reject, validator)
      else (.accept, validator.accepting (expected + 1) event)

end V2EventSequenceValidator

def Terminal (event : AskV2EventBase Payload) : Prop :=
  terminalEventTypes.contains event.eventType = true

instance (event : AskV2EventBase Payload) : Decidable (Terminal event) :=
  inferInstanceAs (Decidable (_ = true))

structure WellFormed (events : List (AskV2EventBase Payload)) : Prop where
  consecutive : events.IsChain fun first second =>
    second.sequence = first.sequence + 1
  terminalLast : ∀ event ∈ events.dropLast, ¬Terminal event

/-- The event may follow what was accepted.  A stream may begin with any number where
none is given. -/
def Continues (initialSequence : Option Int)
    (accepted : List (AskV2EventBase Payload)) (event : AskV2EventBase Payload) :
    Prop :=
  knownEventTypes.contains event.eventType = true ∧
    match accepted.getLast? with
    | none => ∀ first ∈ initialSequence, event.sequence = first
    | some last => ¬Terminal last ∧ event.sequence = last.sequence + 1

instance (initialSequence : Option Int)
    (accepted : List (AskV2EventBase Payload)) (event : AskV2EventBase Payload) :
    Decidable (Continues initialSequence accepted event) := by
  unfold Continues
  cases accepted.getLast? with
  | none => exact inferInstance
  | some last => exact inferInstance

/-- What should become of an event after what was accepted: an exact resend of the last
event is ignored, the next event is accepted, and any other is rejected. -/
def dueOutcome (initialSequence : Option Int)
    (accepted : List (AskV2EventBase Payload)) (event : AskV2EventBase Payload) :
    SequenceOutcome :=
  if accepted.getLast? = some event then .ignore
  else if Continues initialSequence accepted event then .accept
  else .reject

structure Stream (Payload : Type) where
  validator : V2EventSequenceValidator Payload
  accepted : List (AskV2EventBase Payload) := []

def newStream (initialSequence : Option Int) : Stream Payload where
  validator := { expectedSequence := initialSequence }

def step (event : AskV2EventBase Payload) (stream : Stream Payload) : Stream Payload :=
  let (outcome, validator) := stream.validator.validateNext event
  { validator := validator
    accepted :=
      if outcome = .accept then stream.accepted ++ [event] else stream.accepted }

def Classified (initialSequence : Option Int) (stream : Stream Payload)
    (event : AskV2EventBase Payload) : Prop :=
  (stream.validator.validateNext event).1 = dueOutcome initialSequence stream.accepted event ∧
    ((stream.validator.validateNext event).1 ≠ .accept →
      (stream.validator.validateNext event).2 = stream.validator)

def ResendsTerminal (stream : Stream Payload) (event : AskV2EventBase Payload) : Prop :=
  Terminal event ∧ stream.accepted.getLast? = some event

/-- The validator holds the end of what was accepted. -/
structure Tracks (initialSequence : Option Int) (stream : Stream Payload) : Prop where
  last : stream.validator.lastEvent = stream.accepted.getLast?
  expected : stream.validator.expectedSequence =
    match stream.accepted.getLast? with
    | none => initialSequence
    | some last => some (last.sequence + 1)
  terminal : stream.validator.terminalReached = true ↔
    ∃ last ∈ stream.accepted.getLast?, Terminal last
  known : ∀ event ∈ stream.accepted, knownEventTypes.contains event.eventType = true
  wellFormed : WellFormed stream.accepted

omit [DecidableEq Payload] in
theorem tracks_newStream (initialSequence : Option Int) :
    Tracks initialSequence (newStream initialSequence : Stream Payload) := by
  constructor
  · rfl
  · rfl
  · simp [newStream]
  · intro event member
    cases member
  · constructor
    · exact .nil
    · intro event member
      cases member

section Tracking

variable {initialSequence : Option Int} {stream : Stream Payload} {event : AskV2EventBase Payload}

omit [DecidableEq Payload] in
theorem Tracks.not_last_of_unknown (tracks : Tracks initialSequence stream)
    (unknown : ¬knownEventTypes.contains event.eventType = true) :
    stream.accepted.getLast? ≠ some event := by
  intro isLast
  exact unknown (tracks.known event (List.mem_of_getLast? isLast))

theorem validateNext_of_unknown (tracks : Tracks initialSequence stream)
    (unknown : ¬knownEventTypes.contains event.eventType = true) :
    stream.validator.validateNext event = (.reject, stream.validator) ∧
      dueOutcome initialSequence stream.accepted event = .reject := by
  constructor
  · unfold V2EventSequenceValidator.validateNext
    rw [if_pos unknown]
  · unfold dueOutcome
    rw [if_neg (tracks.not_last_of_unknown unknown), if_neg]
    rintro ⟨known, _⟩
    exact unknown known

omit [DecidableEq Payload] in
theorem continues_first (known : knownEventTypes.contains event.eventType = true)
    (nothing : stream.accepted.getLast? = none) :
    Continues initialSequence stream.accepted event ↔
      ∀ first ∈ initialSequence, event.sequence = first := by
  unfold Continues
  rw [nothing]
  exact and_iff_right known

omit [DecidableEq Payload] in
theorem continues_last (known : knownEventTypes.contains event.eventType = true)
    {last : AskV2EventBase Payload} (isLast : stream.accepted.getLast? = some last)
    (notTerminal : ¬Terminal last) :
    Continues initialSequence stream.accepted event ↔ event.sequence = last.sequence + 1 := by
  unfold Continues
  rw [isLast]
  constructor
  · rintro ⟨_, _, isNext⟩
    exact isNext
  · intro isNext
    exact ⟨known, notTerminal, isNext⟩

/-- Before anything is accepted only the given number is awaited. -/
theorem validateNext_of_first (tracks : Tracks initialSequence stream)
    (known : knownEventTypes.contains event.eventType = true)
    (nothing : stream.accepted.getLast? = none) :
    stream.validator.validateNext event =
      if Continues initialSequence stream.accepted event then
        (.accept, stream.validator.accepting (event.sequence + 1) event)
      else (.reject, stream.validator) := by
  have lastEvent := tracks.last
  have expected := tracks.expected
  have open_ : ¬stream.validator.terminalReached = true := by
    rw [tracks.terminal, nothing]
    rintro ⟨last, isLast, _⟩
    cases isLast
  rw [nothing] at lastEvent expected
  have continues := @continues_first _ initialSequence stream event known nothing
  unfold V2EventSequenceValidator.validateNext
  rw [if_neg (not_not_intro known), if_neg open_, expected, lastEvent]
  cases initialSequence with
  | none =>
    rw [if_pos (continues.mpr (by simp))]
  | some first =>
    by_cases isFirst : event.sequence = first
    · rw [if_pos (continues.mpr (by simpa using isFirst))]
      show (if event.sequence = first - 1 then _ else _) = _
      rw [if_neg (by omega), if_neg (not_not_intro isFirst), isFirst]
    · rw [if_neg fun follows => isFirst (continues.mp follows first rfl)]
      show (if event.sequence = first - 1 then _ else _) = _
      split_ifs
      · contradiction
      · rfl
      · rfl

variable {last : AskV2EventBase Payload} (tracks : Tracks initialSequence stream)
include tracks

theorem validateNext_of_last (known : knownEventTypes.contains event.eventType = true)
    (isLast : stream.accepted.getLast? = some last)
    (notTerminal : ¬Terminal last) :
    stream.validator.validateNext event =
      if last = event then (.ignore, stream.validator)
      else if Continues initialSequence stream.accepted event then
        (.accept, stream.validator.accepting (event.sequence + 1) event)
      else (.reject, stream.validator) := by
  have lastEvent := tracks.last
  have expected := tracks.expected
  have open_ : ¬stream.validator.terminalReached = true := by
    rw [tracks.terminal, isLast]
    rintro ⟨other, isOther, terminal⟩
    cases isOther
    exact notTerminal terminal
  rw [isLast] at lastEvent expected
  have continues := @continues_last _ initialSequence stream event known last isLast notTerminal
  unfold V2EventSequenceValidator.validateNext
  rw [if_neg (not_not_intro known), if_neg open_, expected, lastEvent]
  show (if event.sequence = last.sequence + 1 - 1 then _ else _) = _
  simp only [Option.some.injEq]
  by_cases resent : last = event
  · rw [if_pos (by rw [resent]; omega), if_pos resent, if_pos resent]
  · rw [if_neg resent, if_neg resent]
    by_cases isNext : event.sequence = last.sequence + 1
    · rw [if_pos (continues.mpr isNext), if_neg (by omega), if_neg (not_not_intro isNext), isNext]
    · rw [if_neg fun follows => isNext (continues.mp follows)]
      split_ifs
      · rfl
      · rfl

theorem validateNext_of_terminal (isLast : stream.accepted.getLast? = some last)
    (terminal : Terminal last) :
    stream.validator.validateNext event = (.reject, stream.validator) := by
  have reached : stream.validator.terminalReached = true :=
    tracks.terminal.mpr ⟨last, isLast, terminal⟩
  unfold V2EventSequenceValidator.validateNext
  split_ifs
  · rfl
  · rfl

theorem validateNext_due (ordinary : ¬ResendsTerminal stream event) :
    stream.validator.validateNext event = (dueOutcome initialSequence stream.accepted event,
        if dueOutcome initialSequence stream.accepted event = .accept then
          stream.validator.accepting (event.sequence + 1) event
        else stream.validator) := by
  by_cases known : knownEventTypes.contains event.eventType = true
  · cases isLast : stream.accepted.getLast? with
    | none =>
      have notLast : stream.accepted.getLast? ≠ some event := by
        rw [isLast]
        exact nofun
      rw [validateNext_of_first tracks known isLast]
      unfold dueOutcome
      rw [if_neg notLast]
      by_cases continues : Continues initialSequence stream.accepted event
      · rw [if_pos continues, if_pos continues]
        rfl
      · rw [if_neg continues, if_neg continues]
        rfl
    | some last =>
      have sameEvent : stream.accepted.getLast? = some event ↔ last = event := by
        rw [isLast, Option.some.injEq]
      by_cases terminal : Terminal last
      · have notLast : stream.accepted.getLast? ≠ some event := by
          rw [Ne, sameEvent]
          rintro rfl
          exact ordinary ⟨terminal, isLast⟩
        have ends : ¬Continues initialSequence stream.accepted event := by
          rintro ⟨_, follows⟩
          rw [isLast] at follows
          exact follows.1 terminal
        rw [validateNext_of_terminal tracks isLast terminal]
        unfold dueOutcome
        rw [if_neg notLast, if_neg ends]
        rfl
      · rw [validateNext_of_last tracks known isLast terminal]
        unfold dueOutcome
        by_cases resent : last = event
        · rw [if_pos resent, if_pos (sameEvent.mpr resent)]
          rfl
        · rw [if_neg resent, if_neg (mt sameEvent.mp resent)]
          by_cases continues : Continues initialSequence stream.accepted event
          · rw [if_pos continues, if_pos continues]
            rfl
          · rw [if_neg continues, if_neg continues]
            rfl
  · obtain ⟨rejected, due⟩ := validateNext_of_unknown tracks known
    rw [rejected, due]
    rfl

theorem validateNext_of_resendsTerminal (resends : ResendsTerminal stream event) :
    stream.validator.validateNext event = (.reject, stream.validator) :=
  validateNext_of_terminal tracks resends.2 resends.1

theorem classified_iff :
    Classified initialSequence stream event ↔ ¬ResendsTerminal stream event := by
  constructor
  · rintro ⟨due, _⟩ resends
    rw [validateNext_of_resendsTerminal tracks resends] at due
    unfold dueOutcome at due
    rw [if_pos resends.2] at due
    cases due
  · intro ordinary
    unfold Classified
    rw [validateNext_due tracks ordinary]
    constructor
    · rfl
    · intro notAccepted
      exact if_neg notAccepted

omit tracks

theorem continues_of_due (due : dueOutcome initialSequence stream.accepted event = .accept) :
    Continues initialSequence stream.accepted event := by
  unfold dueOutcome at due
  split_ifs at due with _ continues
  exact continues

omit [DecidableEq Payload] in
theorem WellFormed.concat (wellFormed : WellFormed stream.accepted)
    (continues : Continues initialSequence stream.accepted event) :
    WellFormed (stream.accepted ++ [event]) := by
  constructor
  · apply wellFormed.consecutive.append (.singleton event)
    intro last isLast next isNext
    cases isNext
    have follows := continues.2
    rw [isLast] at follows
    exact follows.2
  · rw [List.dropLast_concat]
    intro other member terminal
    cases isLast : stream.accepted.getLast? with
    | none =>
      rw [List.getLast?_eq_none_iff] at isLast
      rw [isLast] at member
      cases member
    | some last =>
      have follows := continues.2
      rw [isLast] at follows
      rw [← List.dropLast_append_getLast? last isLast, List.mem_append,
        List.mem_singleton] at member
      cases member with
      | inl earlier => exact wellFormed.terminalLast other earlier terminal
      | inr isOther => exact follows.1 (isOther ▸ terminal)

theorem step_of_due (tracks : Tracks initialSequence stream)
    (ordinary : ¬ResendsTerminal stream event) :
    step event stream =
      if dueOutcome initialSequence stream.accepted event = .accept then
        { validator := stream.validator.accepting (event.sequence + 1) event
          accepted := stream.accepted ++ [event] }
      else stream := by
  unfold step
  rw [validateNext_due tracks ordinary]
  split_ifs with due
  · show Stream.mk _ (if _ then _ else _) = _
    rw [if_pos due]
  · show Stream.mk _ (if _ then _ else _) = _
    rw [if_neg due]

theorem tracks_step (tracks : Tracks initialSequence stream) :
    Tracks initialSequence (step event stream) := by
  by_cases resends : ResendsTerminal stream event
  · unfold step
    rw [validateNext_of_resendsTerminal tracks resends]
    exact tracks
  · rw [step_of_due tracks resends]
    split_ifs with due
    · have continues := continues_of_due due
      constructor
      · show some event = (stream.accepted ++ [event]).getLast?
        rw [List.getLast?_concat]
      · rw [List.getLast?_concat]
        rfl
      · rw [List.getLast?_concat]
        show (stream.validator.terminalReached ||
          terminalEventTypes.contains event.eventType) = true ↔ _
        have open_ : ¬stream.validator.terminalReached = true := by
          rw [tracks.terminal]
          rintro ⟨last, isLast, terminal⟩
          have follows := continues.2
          rw [isLast] at follows
          exact follows.1 terminal
        rw [Bool.or_eq_true]
        constructor
        · intro reached
          cases reached with
          | inl already => exact absurd already open_
          | inr terminal => exact ⟨event, rfl, terminal⟩
        · rintro ⟨last, isLast, terminal⟩
          cases isLast
          exact .inr terminal
      · intro other member
        cases List.mem_append.mp member with
        | inl earlier => exact tracks.known other earlier
        | inr isOther =>
          rw [List.mem_singleton.mp isOther]
          exact continues.1
      · exact tracks.wellFormed.concat continues
    · exact tracks

end Tracking

/-- The validator classifies every event of a stream as is due, and what it accepted is
well formed, exactly where the terminal event is never sent again. -/
theorem classified_iff_terminalOnce (initialSequence : Option Int)
    (events : List (AskV2EventBase Payload)) :
    (OrderlyRun step (Classified initialSequence) (newStream initialSequence) events ∧
        WellFormed (runFrom step (newStream initialSequence) events).accepted) ↔
      OrderlyRun step (fun stream event => ¬ResendsTerminal stream event)
        (newStream initialSequence) events := by
  have keeps : ∀ (stream : Stream Payload) event, Tracks initialSequence stream →
      Tracks initialSequence (step event stream) :=
    fun _ _ tracks => tracks_step tracks
  have tracks := runFrom_invariant keeps (tracks_newStream initialSequence) events
  rw [and_iff_left tracks.wellFormed]
  exact orderlyRun_iff_of_invariant keeps (fun _ _ held => classified_iff held)
    (tracks_newStream initialSequence) events

def outcomeEvent : AskV2EventBase String where
  eventType := "turn_outcome"
  sequence := 1
  payload := "completed"

/-- The outcome of a turn, sent twice, is rejected where it should be ignored. -/
theorem not_classified_of_outcome_resent :
    ¬OrderlyRun step (Classified (some 1)) (newStream (some 1)) [outcomeEvent, outcomeEvent] := by
  rintro ⟨_, ⟨due, _⟩, _⟩
  revert due
  decide

end McpAssistant.Services.EventSequences
