import McpAssistant.Services.StreamProducer

/-!
# The wire sequence of a turn

The frames a turn enqueues are numbered from one without a gap, whatever frames
the queue refuses.  A producer that is not cancelled enqueues one terminal frame
and nothing after it; a cancelled one enqueues none.
-/

namespace McpAssistant.Services.WireSequence

open Foundations.Procedures
open AskEvents AskQueue AskStream ProgressSinks SinkMoves
open StreamProducer
open Relation List

def Last (wire : Wire) (before after : TurnStream) : Prop :=
  ∃ event queue, before.queue.putNowait wire.frameWireBytes event = .ok queue ∧
      event.sequence = before.sequence.peek ∧
      event.content.isTerminal = true ∧
      after.queue = queue ∧ after.delivered = before.delivered

def CancelledWaiting (turn : Turn) : Prop :=
  turn.ask.outcome = .error .cancelled ∨
    ∃ invocations, (turn.evidence invocations).outcome = .error .cancelled

def MayFail (turn : Turn) (failure : Failure) : Prop :=
  failure = .cancelled → CancelledWaiting turn

section Producer

variable {wire : Wire} {runId : RunId} {turn : Turn} {state : TurnStream} {fails : Failure → Prop}

theorem open_stays {after : TurnStream} (moved : ReflTransGen (Move wire True) state after)
    (isOpen : state.queue.closed = false) : after.queue.closed = false := by
  apply keeps_of_moves moved _ isOpen
  intro before next move isOpen
  cases move with
  | turned sameQueue => rw [sameQueue, isOpen]
  | authorized => exact isOpen
  | received got => exact (ByteBoundedAskQueue.get_frames got).2.trans isOpen
  | sent accepted => exact (ByteBoundedAskQueue.putNowait_ok accepted).2.1

theorem Follows.raised {Value : Type} {program : Streaming Value}
    (follows : Follows (Move wire True) Raises program state) :
    Follows (Move wire True) (MayFail turn) program state := by
  apply follows.mono (fun _ _ move => move)
  exact fun failure raised isCancelled => absurd isCancelled raised

theorem follows_waitFor {Value : Type} {awaited : Awaited Value}
    (brings : ∀ failure, awaited.outcome = .error failure → fails failure) :
    Follows (Move wire True) fails (waitFor wire runId awaited) state := by
  apply Follows.bind (follows_runSteps fun _ _ _ => trivial)
  intro _ _ _
  split
  · exact follows_pure _
  · rename_i failure failed
    exact follows_throw (brings failure failed)

theorem follows_waitForEvidence (invocations : Nat) : Follows (Move wire True) (MayFail turn)
      (waitFor wire turn.runId (turn.evidence invocations)) state := by
  apply follows_waitFor
  intro failure failed isCancelled
  rw [isCancelled] at failed
  exact .inr ⟨invocations, failed⟩

theorem follows_streamRecordDetails (envelope : Envelope) : Follows (Move wire True) Raises
      (streamRecordDetails wire runId envelope) state := by
  unfold streamRecordDetails
  apply Follows.bind
  · apply Follows.forM
    intro batch _ _ _
    exact follows_sendFrame rfl (shown_of_free rfl)
  · intro _ _ _
    exact follows_liftResult fun _ => nofun

theorem follows_publishEnvelope (deadline : Int) (ordinal : Nat) (envelope : Envelope) :
    Follows (Move wire True) Raises
      (publishEnvelope wire runId deadline ordinal envelope) state := by
  apply follows_get_bind
  split
  · exact follows_pure _
  · apply Follows.bind (follows_checkNotExpired nofun)
    intro _ _ _
    split
    · apply Follows.bind (follows_modifySink rfl)
      intro _ _ _
      apply Follows.bind (follows_settle _)
      exact fun _ _ _ => follows_pure _
    · split
      · apply Follows.bind (follows_paintTable _)
        exact fun _ _ _ => follows_pure _
      · exact follows_pure _

variable {envelopes : List Envelope}

theorem follows_publishFrom {deadline : Int} {ordinal : Nat} :
    Follows (Move wire True) Raises (publishFrom wire runId deadline ordinal envelopes) state := by
  induction envelopes generalizing ordinal state with
  | nil => exact follows_pure _
  | cons envelope envelopes ih =>
    apply Follows.bind (follows_publishEnvelope deadline ordinal envelope)
    intro goesOn _ _
    cases goesOn with
    | true => exact ih
    | false => exact follows_pure _

theorem follows_publishCommittedEnvelopes {deadline : Int} : Follows (Move wire True) Raises
      (publishCommittedEnvelopes wire runId deadline envelopes) state := by
  apply Follows.bind (follows_checkNotExpired nofun)
  exact fun _ _ _ => follows_publishFrom

theorem follows_acceptTurn : Follows (Move wire True) Raises (acceptTurn wire turn) state := by
  apply Follows.bind (follows_sendFrame rfl (shown_of_free rfl))
  intro _ _ _
  apply Follows.bind follows_readClock
  exact fun _ _ _ => follows_modifySink rfl

/-- A terminal frame ends the stream, or is refused and leaves it open. -/
theorem finishes_sendFrame {content : EventContent} (ends : content.isTerminal = true) :
    Finishes (Move wire True) (Last wire) Raises (sendFrame wire runId content) state := by
  apply finishes_get_bind
  split
  · apply leads_bind.mpr
    apply leads_putNowait
    · intro queue accepted
      exact ⟨state, ReflTransGen.refl, _, queue, accepted, rfl, ends, rfl, rfl⟩
    · intro failure refused
      exact ⟨raises_of_refused refused, ReflTransGen.refl⟩
  · refine ⟨?_, ReflTransGen.refl⟩
    rintro ⟨⟩

theorem finishes_emitStreamError {code : String} {message : Option String}
    {retryable : Bool} (isOpen : state.queue.closed = false) :
    Finishes (Move wire True) (Last wire) fails
      (emitStreamError wire runId code message retryable) state := by
  apply Follows.bind_finishes (follows_settle _)
  intro _ after moved
  let ending : AskV2Event := ⟨runId, after.sequence.take.1, .streamError code retryable message⟩
  have sends : after.queue.putNowait wire.frameWireBytes ending = .ok _ :=
    ByteBoundedAskQueue.putNowait_streamError (open_stays moved isOpen) rfl
  apply finishes_get_bind
  apply leads_putNowait
  · intro queue accepted
    exact ⟨after, ReflTransGen.refl, ending, queue, accepted, rfl, rfl, rfl, rfl⟩
  · intro failure refused
    cases sends.symm.trans refused

theorem Finishes.raised {program : Streaming Unit}
    (finishes : Finishes (Move wire True) (Last wire) Raises program state) :
    Finishes (Move wire True) (Last wire) (MayFail turn) program state := by
  apply Leads.mono finishes
  · exact fun _ _ finished => finished
  · rintro failure _ ⟨raised, moved⟩
    exact ⟨fun isCancelled => absurd isCancelled raised, moved⟩

theorem finishes_emitClarificationCard {result : V2Result} (isOpen : state.queue.closed = false) :
    Finishes (Move wire True) (Last wire) (MayFail turn)
      (emitClarificationCard wire turn result) state := by
  unfold emitClarificationCard
  split
  · exact finishes_emitStreamError isOpen
  · split
    · exact finishes_emitStreamError isOpen
    · apply Follows.bind_finishes (Follows.raised (follows_checkNotExpired nofun))
      intro _ _ _
      apply Follows.bind_finishes (follows_waitForEvidence 0)
      intro _ _ _
      apply Follows.bind_finishes (Follows.raised (follows_sendFrame rfl (shown_of_free rfl)))
      intro _ _ _
      apply Follows.bind_finishes (follows_settle _)
      intro _ _ _
      exact Finishes.raised (finishes_sendFrame rfl)

variable {reply : V2Reply} {answer : Answer}

theorem follows_evidenceDigest :
    Follows (Move wire True) (MayFail turn) (evidenceDigest wire turn reply answer) state := by
  unfold evidenceDigest
  split
  · exact follows_pure _
  · exact follows_waitForEvidence _

theorem follows_streamCitations :
    Follows (Move wire True) Raises (streamCitations wire turn answer) state := by
  unfold streamCitations
  split
  · exact follows_sendFrame rfl (shown_of_free rfl)
  · exact follows_pure _

theorem finishes_streamAnswer : Finishes (Move wire True) (Last wire) (MayFail turn)
      (streamAnswer wire turn reply answer) state := by
  apply finishes_get_bind
  apply Follows.bind_finishes
  · apply Follows.forM
    exact fun _ _ _ _ => Follows.raised (follows_streamRecordDetails _)
  intro _ _ _
  apply Follows.bind_finishes follows_sinkFinishThought
  intro _ _ _
  apply Follows.bind_finishes (Follows.raised follows_streamCitations)
  intro _ _ _
  apply Follows.bind_finishes
  · apply Follows.forM
    exact fun _ _ _ _ =>
      Follows.raised (follows_sendFrame rfl (shown_of_free rfl))
  intro _ _ _
  apply Follows.bind_finishes (Follows.raised (follows_checkNotExpired nofun))
  intro _ _ _
  apply Follows.bind_finishes follows_evidenceDigest
  intro _ _ _
  apply Follows.bind_finishes (follows_settle _)
  intro _ _ _
  exact Finishes.raised (finishes_sendFrame rfl)

variable (isOpen : state.queue.closed = false)
include isOpen

theorem finishes_streamReply :
    Finishes (Move wire True) (Last wire) (MayFail turn) (streamReply wire turn reply) state := by
  apply finishes_get_bind
  split
  · exact finishes_emitStreamError isOpen
  · split
    · apply Follows.bind_finishes (Follows.raised follows_publishCommittedEnvelopes)
      intro _ _ moved
      apply finishes_get_bind
      split
      · exact finishes_emitStreamError (open_stays moved isOpen)
      · exact finishes_streamAnswer
    · exact finishes_emitClarificationCard isOpen

theorem finishes_handleFailure {failure : Failure} (may : MayFail turn failure) :
    Finishes (Move wire True) (Last wire)
      (fun failure => failure = .cancelled ∧ CancelledWaiting turn)
      (handleFailure wire runId failure) state := by
  unfold handleFailure
  split
  · exact finishes_emitStreamError isOpen
  · exact finishes_emitStreamError isOpen
  · exact finishes_emitStreamError isOpen
  · exact finishes_emitStreamError isOpen
  · exact finishes_emitStreamError isOpen
  · exact finishes_emitStreamError isOpen
  · exact finishes_emitStreamError isOpen
  · exact ⟨⟨rfl, may rfl⟩, ReflTransGen.refl⟩
  · exact finishes_emitStreamError isOpen

theorem finishes_produce : Finishes (Move wire True) (Last wire)
      (fun failure => failure = .cancelled ∧ CancelledWaiting turn)
      (tryCatch (do
          acceptTurn wire turn
          checkNotExpired wire turn.deadline
          let reply ← waitFor wire turn.runId turn.ask
          streamReply wire turn reply)
        (handleFailure wire turn.runId)) state := by
  have body : Finishes (Move wire True) (Last wire) (MayFail turn) (do
        acceptTurn wire turn
        checkNotExpired wire turn.deadline
        let reply ← waitFor wire turn.runId turn.ask
        streamReply wire turn reply) state := by
    apply Follows.bind_finishes (Follows.raised follows_acceptTurn)
    intro _ accepted moved
    have isOpen := open_stays moved isOpen
    apply Follows.bind_finishes (Follows.raised (follows_checkNotExpired nofun))
    intro _ checked moved
    have isOpen := open_stays moved isOpen
    apply Follows.bind_finishes
    · apply follows_waitFor
      intro failure failed isCancelled
      rw [isCancelled] at failed
      exact .inl failed
    intro reply answered moved
    exact finishes_streamReply (open_stays moved isOpen)
  apply Finishes.tryCatch body
  intro failure after may moved
  exact finishes_handleFailure (open_stays moved isOpen) may

end Producer

/-- The frames are numbered from one without a gap. -/
def GapFree (frames : List AskV2Event) : Prop :=
  frames.map (·.sequence) = List.range' 1 frames.length

/-- No frame ends the stream. -/
def GoesOn (frames : List AskV2Event) : Prop :=
  ∀ event ∈ frames, event.content.isTerminal = false

def EndsOnce (frames : List AskV2Event) : Prop :=
  ∃ earlier last, frames = earlier ++ [last] ∧ GoesOn earlier ∧ last.content.isTerminal = true

structure Numbered (stream : TurnStream) : Prop where
  next : stream.sequence.next = stream.enqueued.length + 1
  gapFree : GapFree stream.enqueued
  goesOn : GoesOn stream.enqueued

theorem GapFree.snoc {frames : List AskV2Event} {event : AskV2Event}
    (gapFree : GapFree frames) (next : event.sequence = frames.length + 1) :
    GapFree (frames ++ [event]) := by
  unfold GapFree at gapFree ⊢
  rw [map_append, gapFree, length_append]
  show _ = List.range' 1 (frames.length + 1)
  rw [List.range'_concat, map_singleton, next, Nat.one_mul, Nat.add_comm 1]

section Frames

variable {wire : Wire} {before after : TurnStream}

theorem Numbered.move (numbered : Numbered before)
    (move : Move wire True before after) : Numbered after := by
  cases move with
  | turned sameQueue sameDelivered sameSequence _ =>
    have same : after.enqueued = before.enqueued := by
      rw [TurnStream.enqueued, sameQueue, sameDelivered]
      rfl
    constructor
    · rw [same, sameSequence]
      exact numbered.next
    · rw [same]
      exact numbered.gapFree
    · rw [same]
      exact numbered.goesOn
  | authorized => exact ⟨numbered.next, numbered.gapFree, numbered.goesOn⟩
  | received got =>
    have same := enqueued_received got
    constructor
    · rw [same]
      exact numbered.next
    · rw [same]
      exact numbered.gapFree
    · rw [same]
      exact numbered.goesOn
  | @sent event queue accepted number goesOn _ =>
    have added : TurnStream.enqueued { before with
        queue, sequence := before.sequence.take.2 } = before.enqueued ++ [event] :=
      enqueued_sent accepted
    constructor
    · rw [added, length_append]
      exact congrArg Nat.succ numbered.next
    · rw [added]
      exact numbered.gapFree.snoc (number.trans numbered.next)
    · rw [added]
      intro other member
      rcases List.mem_append.mp member with earlier | last
      · exact numbered.goesOn other earlier
      · rw [List.mem_singleton.mp last]
        exact goesOn

/-- The last frame closes a numbered stream without a gap. -/
theorem Last.endsOnce (last : Last wire before after) (numbered : Numbered before) :
    GapFree after.enqueued ∧ EndsOnce after.enqueued := by
  rcases last with ⟨event, queue, accepted, number, ends, sameQueue, sameDelivered⟩
  have added : after.enqueued = before.enqueued ++ [event] := by
    rw [TurnStream.enqueued, sameQueue, sameDelivered,
      (ByteBoundedAskQueue.putNowait_ok accepted).2.2, ← append_assoc]
    rfl
  rw [added]
  constructor
  · exact numbered.gapFree.snoc (number.trans numbered.next)
  · exact ⟨before.enqueued, event, rfl, numbered.goesOn, ends⟩

theorem closed_stays (moved : ReflTransGen (Move wire True) before after)
    (isClosed : before.queue.closed = true) :
    after.enqueued = before.enqueued := by
  have kept : after.queue.closed = true ∧ after.enqueued = before.enqueued := by
    apply keeps_of_moves moved _ ⟨isClosed, rfl⟩
    rintro stream next move ⟨isClosed, same⟩
    cases move with
    | turned sameQueue sameDelivered _ _ =>
      rw [TurnStream.enqueued, sameQueue, sameDelivered]
      exact ⟨isClosed, same⟩
    | authorized => exact ⟨isClosed, same⟩
    | received got =>
      exact ⟨(ByteBoundedAskQueue.get_frames got).2.trans isClosed,
        (enqueued_received got).trans same⟩
    | sent accepted =>
      have isOpen := (ByteBoundedAskQueue.putNowait_ok accepted).1
      rw [isClosed] at isOpen
      cases isOpen
  exact kept.2

end Frames

section Turns

variable {wire : Wire} {turn : Turn} {state : TurnStream}

theorem leads_closingQueue {program : Streaming Unit} {returned : Unit → TurnStream → Prop}
    {failed : Failure → TurnStream → Prop} :
    Leads (closingQueue program) state returned failed ↔ Leads program state (fun value after =>
          returned value { after with queue := after.queue.close })
        (fun failure after =>
          failed failure { after with queue := after.queue.close }) := by
  rw [closingQueue, leads_bind, leads_tryCatch, leads_bind]
  exact Iff.rfl

theorem enqueued_close (stream : TurnStream) :
    TurnStream.enqueued { stream with queue := stream.queue.close } = stream.enqueued := by
  unfold TurnStream.enqueued
  rw [ByteBoundedAskQueue.close_frames]

theorem produce_ends (isOpen : state.queue.closed = false) (fresh : Numbered state) :
    Leads (produceV2StreamEvents wire turn) state
      (fun _ after => after.queue.closed = true ∧ GapFree after.enqueued ∧ EndsOnce after.enqueued)
      (fun failure after => failure = .cancelled ∧ CancelledWaiting turn ∧
        after.queue.closed = true ∧ GapFree after.enqueued ∧
        GoesOn after.enqueued) := by
  have numbered {after : TurnStream}
      (moved : ReflTransGen (Move wire True) state after) : Numbered after :=
    keeps_of_moves moved (fun _ _ move numbered => Numbered.move numbered move) fresh
  apply leads_closingQueue.mpr
  apply Leads.mono (finishes_produce isOpen)
  · rintro _ after ⟨before, moved, last⟩
    have ends := last.endsOnce (numbered moved)
    rw [enqueued_close]
    exact ⟨ByteBoundedAskQueue.close_closed, ends⟩
  · rintro failure after ⟨⟨isCancelled, waiting⟩, moved⟩
    have numbered := numbered moved
    rw [enqueued_close]
    exact ⟨isCancelled, waiting, ByteBoundedAskQueue.close_closed,
      numbered.gapFree, numbered.goesOn⟩

/-- For every turn, whatever frames the queue refuses and whatever is called
late, the enqueued frames are numbered from one without a gap.  Exactly one of
them is terminal and it is the last, unless an await of the producer was
cancelled: then none is. -/
theorem wire_sequence_gap_free (wire : Wire) (maxBytes maxFrameBytes : Nat)
    (turn : Turn) (late : List Step) :
    let streamed := streamTurn wire maxBytes maxFrameBytes turn late
    GapFree streamed.frames ∧ (streamed.cancelled = false → EndsOnce streamed.frames) ∧
      (streamed.cancelled = true → CancelledWaiting turn ∧ GoesOn streamed.frames) := by
  intro streamed
  have fresh : Numbered { queue := { maxBytes, maxFrameBytes } } :=
    ⟨rfl, rfl, fun _ member => absurd member not_mem_nil⟩
  have ends : Leads (produceV2StreamEvents wire turn) _ _ _ :=
    produce_ends rfl fresh
  have unchanged (stream : TurnStream) (isClosed : stream.queue.closed = true) :
      (stateAfter (runSteps wire turn.runId late) stream).enqueued =
        stream.enqueued := by
    have follows : Follows (Move wire True) Raises (runSteps wire turn.runId late) stream :=
      follows_runSteps fun _ _ _ => trivial
    exact closed_stays follows.moved isClosed
  unfold Leads at ends
  cases ran : produceV2StreamEvents wire turn { queue := { maxBytes, maxFrameBytes } } with
  | ok value stream =>
    rw [ran] at ends
    rcases ends with ⟨isClosed, gapFree, once⟩
    have frames : streamed = ⟨stream.enqueued, false⟩ := by
      show streamTurn wire maxBytes maxFrameBytes turn late = _
      simp only [streamTurn, EStateM.run, ran, unchanged stream isClosed]
    rw [frames]
    exact ⟨gapFree, fun _ => once, nofun⟩
  | error failure stream =>
    rw [ran] at ends
    rcases ends with ⟨isCancelled, waiting, isClosed, gapFree, goesOn⟩
    have frames : streamed = ⟨stream.enqueued, true⟩ := by
      show streamTurn wire maxBytes maxFrameBytes turn late = _
      simp only [streamTurn, EStateM.run, ran, unchanged stream isClosed, isCancelled, decide_true]
    rw [frames]
    exact ⟨gapFree, nofun, fun _ => ⟨waiting, goesOn⟩⟩

/-- A wire on which every frame takes one byte and the clock stands still. -/
def plainWire : Wire where
  frameWireBytes _ := 1
  detailWireBytes _ := 1
  cellText _ := ""
  validates _ := true
  tableDigest _ := "digest"
  columnLabel key _ := key
  clock _ := 0

/-- A turn whose reader leaves while the service thinks. -/
theorem abandoned_ne_empty : "run" ≠ "" := by decide

def abandonedTurn : Turn where
  runId := ⟨"run", abandoned_ne_empty⟩
  restoreRef := "0123456789012345678901234567890123456789012"
  deadline := 1
  ask := { steps := [.call (.stage .thinking)], outcome := .error .cancelled }
  evidence _ := { outcome := .ok "digest" }

/-- A cancelled producer leaves frames without a terminal one. -/
theorem not_endsOnce_abandonedTurn :
    ¬ EndsOnce (streamTurn plainWire maxTableBufferBytes maxFrameBytes
      abandonedTurn []).frames := by
  rintro ⟨earlier, last, frames, _, ends⟩
  have none : (streamTurn plainWire maxTableBufferBytes maxFrameBytes
      abandonedTurn []).frames.any (·.content.isTerminal) = false := rfl
  rw [frames, any_append, any_cons, ends] at none
  simp at none

end Turns

end McpAssistant.Services.WireSequence
