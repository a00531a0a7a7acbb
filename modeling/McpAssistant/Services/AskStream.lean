import McpAssistant.Foundations.Procedures
import McpAssistant.Services.AskQueue

/-!
# The stream of one turn

The producer and the progress sink of a turn share one queue and one sequence.
A number is used up only by a frame that was enqueued, because the reader
rejects a gap.  Whatever happens to the stream before its last frame is one of
four moves.
-/

namespace McpAssistant.Services.AskStream

open Foundations.JsonReading
open Foundations.Procedures
open AskEvents AskQueue
open Relation

structure TurnSequence where
  next : Nat := 1

def TurnSequence.peek (sequence : TurnSequence) : Nat :=
  sequence.next

def TurnSequence.take (sequence : TurnSequence) : Nat × TurnSequence :=
  (sequence.next, { sequence with next := sequence.next + 1 })

/-- The step a person sees running. -/
structure ActiveStep where
  activityId : String
  kind : ActivityKind
  started : Int
  ordinal : Option Nat := none
  parts : Option PartCount := none
  subject : Option String := none

structure OpenThought where
  activityId : String
  started : Int

/-- The two progress sinks: one shows activities, the other only tables, and
those only when a queue is bound. -/
inductive SinkKind where
  | askV2
  | null (bound : Bool)
deriving DecidableEq

/-- What a progress sink keeps.  A sink that shows no activity opens no step. -/
structure SinkState where
  kind : SinkKind := .null false
  turnStarted : Int := 0
  openStep : Option ActiveStep := none
  authorizedSeen : Bool := false
  disclosureViolation : Bool := false
  paintedOrdinals : List Nat := []
  streamAuthorizedEmitted : Bool := false
  thought : Option OpenThought := none
  stepRounds : ActivityKind × Option Nat → Nat := fun _ => 0

/-- The stream of a turn, with the frames its reader has taken. -/
structure TurnStream where
  queue : ByteBoundedAskQueue := {}
  delivered : List AskV2Event := []
  sequence : TurnSequence := {}
  sink : SinkState := {}
  readings : Nat := 0

/-- What the stream rests on and does not decide: how many bytes a frame, a
detail or a printed cell takes, which contents the event models accept, the
digest of a table's rows, the label of a column, and the readings of the clock,
in milliseconds. -/
structure Wire where
  frameWireBytes : AskV2Event → Nat
  detailWireBytes : RecordDetail → Nat
  cellText : Json → String
  validates : EventContent → Bool
  tableDigest : List Row → String
  columnLabel : String → Option String → String
  clock : Nat → Int

abbrev Streaming := Procedure Failure TurnStream

/-- Every frame the queue has accepted, in order. -/
def TurnStream.enqueued (stream : TurnStream) : List AskV2Event :=
  stream.delivered ++ stream.queue.frames

def modifySink (change : SinkState → SinkState) : Streaming Unit :=
  modify fun stream => { stream with sink := change stream.sink }

section Primitives

variable (wire : Wire)

def readClock : Streaming Int := do
  let stream ← get
  set { stream with readings := stream.readings + 1 }
  pure (wire.clock stream.readings)

def msSince (started : Int) : Streaming Nat := do
  let now ← readClock wire
  pure (now - started).toNat

def checkNotExpired (deadline : Int) : Streaming Unit := do
  let now ← readClock wire
  if deadline ≤ now then throw .deadlineExpired else pure ()

def putNowait (event : AskV2Event) : Streaming Unit := do
  let stream ← get
  match stream.queue.putNowait wire.frameWireBytes event with
  | .ok queue => set { stream with queue }
  | .error failure => throw failure

/-- Puts the frame and only then uses its number up. -/
def putNumbered (event : AskV2Event) : Streaming Unit := do
  putNowait wire event
  modify fun stream => { stream with sequence := stream.sequence.take.2 }

/-- Builds the frame with the number that is next and puts it; content that the
event model refuses fails. -/
def sendFrame (runId : RunId) (content : EventContent) : Streaming Unit := do
  let stream ← get
  if wire.validates content then
    putNumbered wire ⟨runId, stream.sequence.peek, content⟩
  else
    throw (.valueError "validation error")

/-- Goes on with the value of a computation, or raises its message. -/
def liftResult {Value : Type} (exception : String → Failure)
    (result : Except String Value) : Streaming Value :=
  match result with
  | .ok value => pure value
  | .error message => throw (exception message)

/-- The reader's side: it takes the next frame, if there is one. -/
def receive : Streaming Unit := do
  let stream ← get
  match stream.queue.get with
  | some (taken, queue) =>
    set { stream with queue, delivered := stream.delivered ++ taken.toList }
  | none => pure ()

end Primitives

section Moves

variable (wire : Wire) (reports : Prop)

/-- One change of a stream whose last frame is not sent.  `reports` says whether
the authorized stage is among what is reported. -/
inductive Move : TurnStream → TurnStream → Prop where
  | turned {before after : TurnStream} (sameQueue : after.queue = before.queue)
      (sameDelivered : after.delivered = before.delivered)
      (sameSequence : after.sequence = before.sequence)
      (sameGate : after.sink.authorizedSeen = before.sink.authorizedSeen) :
      Move before after
  | authorized (before : TurnStream) (reported : reports) : Move before
        { before with sink := { before.sink with authorizedSeen := true } }
  | received {before : TurnStream} {taken : Option AskV2Event}
      {queue : ByteBoundedAskQueue} (got : before.queue.get = some (taken, queue)) :
      Move before { before with queue, delivered := before.delivered ++ taken.toList }
  | sent {before : TurnStream} {event : AskV2Event} {queue : ByteBoundedAskQueue}
      (accepted : before.queue.putNowait wire.frameWireBytes event = .ok queue)
      (numbered : event.sequence = before.sequence.peek)
      (goesOn : event.content.isTerminal = false)
      (shown : event.content.needsAuthorization = true → before.sink.authorizedSeen = true) :
      Move before { before with queue, sequence := before.sequence.take.2 }

end Moves

section Follows

variable {wire : Wire} {reports : Prop} {fails : Failure → Prop} {state : TurnStream}
  {queue : ByteBoundedAskQueue}

/-- The reader moves frames from the queue to what was delivered. -/
theorem enqueued_received {taken : Option AskV2Event}
    (got : state.queue.get = some (taken, queue)) :
    TurnStream.enqueued { state with
      queue, delivered := state.delivered ++ taken.toList } = state.enqueued := by
  unfold TurnStream.enqueued
  rw [(ByteBoundedAskQueue.get_frames got).1, List.append_assoc]

variable {event : AskV2Event}

theorem enqueued_sent {sequence : TurnSequence}
    (accepted : state.queue.putNowait wire.frameWireBytes event = .ok queue) :
    TurnStream.enqueued { state with queue, sequence } = state.enqueued ++ [event] := by
  unfold TurnStream.enqueued
  rw [(ByteBoundedAskQueue.putNowait_ok accepted).2.2, List.append_assoc]

theorem gate_stays {after : TurnStream} (moved : ReflTransGen (Move wire reports) state after)
    (seen : state.sink.authorizedSeen = true) :
    after.sink.authorizedSeen = true := by
  apply keeps_of_moves moved _ seen
  intro before next move seen
  cases move with
  | turned _ _ _ sameGate => exact sameGate.trans seen
  | authorized => rfl
  | received => exact seen
  | sent => exact seen

theorem follows_modifySink {change : SinkState → SinkState}
    (sameGate : (change state.sink).authorizedSeen = state.sink.authorizedSeen) :
    Follows (Move wire reports) fails (modifySink change) state := by
  apply follows_modify
  exact ReflTransGen.single (.turned rfl rfl rfl sameGate)

theorem follows_readClock : Follows (Move wire reports) fails (readClock wire) state :=
  ReflTransGen.single (.turned rfl rfl rfl rfl)

theorem follows_msSince (started : Int) :
    Follows (Move wire reports) fails (msSince wire started) state := by
  apply Follows.bind follows_readClock
  exact fun _ _ _ => follows_pure _

theorem follows_checkNotExpired {deadline : Int} (expires : fails .deadlineExpired) :
    Follows (Move wire reports) fails (checkNotExpired wire deadline) state := by
  apply Follows.bind follows_readClock
  intro now after _
  split
  · exact follows_throw expires
  · exact follows_pure _

theorem follows_liftResult {Value : Type} {exception : String → Failure}
    {result : Except String Value} (allowed : ∀ message, fails (exception message)) :
    Follows (Move wire reports) fails (liftResult exception result) state := by
  cases result with
  | ok value => exact follows_pure _
  | error message => exact follows_throw (allowed message)

theorem follows_receive : Follows (Move wire reports) fails receive state := by
  apply follows_get_bind
  split
  · rename_i taken queue got
    apply follows_set
    exact ReflTransGen.single (.received got)
  · exact follows_pure _

theorem leads_putNowait {returned : Unit → TurnStream → Prop} {failed : Failure → TurnStream → Prop}
    (sends : ∀ queue, state.queue.putNowait wire.frameWireBytes event = .ok queue →
      returned () { state with queue })
    (refuses : ∀ failure, state.queue.putNowait wire.frameWireBytes event = .error failure →
      failed failure state) :
    Leads (putNowait wire event) state returned failed := by
  apply leads_bind.mpr
  show Leads (match state.queue.putNowait wire.frameWireBytes event with
    | .ok queue => set { state with queue }
    | .error failure => throw failure : Streaming Unit) state _ _
  split
  · rename_i queue accepted
    exact sends queue accepted
  · rename_i failure refused
    exact refuses failure refused

theorem follows_putNumbered (numbered : event.sequence = state.sequence.peek)
    (goesOn : event.content.isTerminal = false)
    (shown : event.content.needsAuthorization = true → state.sink.authorizedSeen = true)
    (refuses : ∀ failure, state.queue.putNowait wire.frameWireBytes event =
      .error failure → fails failure) :
    Follows (Move wire reports) fails (putNumbered wire event) state := by
  apply leads_bind.mpr
  apply leads_putNowait
  · intro queue accepted
    exact ReflTransGen.single (.sent accepted numbered goesOn shown)
  · intro failure refused
    exact ⟨refuses failure refused, ReflTransGen.refl⟩

/-- The failures of a frame, a batch or a check: none of them is a
cancellation. -/
def Raises (failure : Failure) : Prop :=
  failure ≠ .cancelled

theorem raises_of_refused {failure : Failure}
    (refused : queue.putNowait wire.frameWireBytes event = .error failure) :
    Raises failure := by
  rcases ByteBoundedAskQueue.putNowait_error refused with ⟨_, rfl⟩ | ⟨_, rfl⟩
  · exact nofun
  · exact nofun

theorem follows_sendFrame {runId : RunId} {content : EventContent}
    (goesOn : content.isTerminal = false)
    (shown : content.needsAuthorization = true → state.sink.authorizedSeen = true) :
    Follows (Move wire reports) Raises (sendFrame wire runId content) state := by
  apply follows_get_bind
  split
  · apply follows_putNumbered rfl goesOn shown
    exact fun _ refused => raises_of_refused refused
  · exact follows_throw nofun

end Follows

end McpAssistant.Services.AskStream
