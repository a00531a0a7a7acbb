import McpAssistant.Services.AskQueue
import McpAssistant.Foundations.Interleaving
import Mathlib.Algebra.Ring.Nat

/-!
# What a queue accounts for

The queue keeps the bytes and the number of the frames it holds, stream errors apart.
A stream error is not counted on its way in, but on its way out the number goes down.
-/

namespace McpAssistant.Services.QueueAccounting

open Foundations.Interleaving
open AskEvents
open AskQueue List

inductive QueueOperation where
  | put (frame : AskV2Event)
  | get
  | close

/-- A queue, and the frames that it accepted and that it gave out. -/
structure Traffic where
  queue : ByteBoundedAskQueue
  accepted : List AskV2Event := []
  delivered : List AskV2Event := []

variable (frameWireBytes : AskV2Event → Nat)

/-- A refused frame leaves the queue as it was.  An open queue without frames keeps
its caller waiting. -/
def step (operation : QueueOperation) (traffic : Traffic) : Traffic :=
  match operation with
  | .put frame =>
    match traffic.queue.putNowait frameWireBytes frame with
    | .error _ => traffic
    | .ok queue =>
      { traffic with queue := queue, accepted := traffic.accepted ++ [frame] }
  | .get =>
    match traffic.queue.get with
    | none => traffic
    | some (taken, queue) =>
      { traffic with
        queue := queue
        delivered := traffic.delivered ++ taken.toList }
  | .close => { traffic with queue := traffic.queue.close }

def newQueue (maxBytes maxFrameBytes : Nat) : Traffic where
  queue := { maxBytes := maxBytes, maxFrameBytes := maxFrameBytes }

def counted (frame : AskV2Event) : Bool :=
  !frame.content.isStreamError

def accountedBytes (frame : AskV2Event) : Nat :=
  if counted frame then frameWireBytes frame else 0

/-- What the queue says of itself is true of the frames it holds, and it holds the
frames it accepted and did not give out, in order. -/
structure Accounted (traffic : Traffic) : Prop where
  stamped : ∀ item ∈ traffic.queue.items, ∀ entry ∈ item,
    entry.2 = accountedBytes frameWireBytes entry.1
  bytes : traffic.queue.currentBytes =
    (traffic.queue.frames.map (accountedBytes frameWireBytes)).sum
  bounded : traffic.queue.currentBytes ≤ traffic.queue.maxBytes
  number : traffic.queue.currentItems = traffic.queue.frames.countP counted
  order : traffic.accepted = traffic.delivered ++ traffic.queue.frames

/-- The accounts are true, and those of an empty queue are zero. -/
def Exact (traffic : Traffic) : Prop :=
  Accounted frameWireBytes traffic ∧ (traffic.queue.frames = [] →
      traffic.queue.currentBytes = 0 ∧ traffic.queue.currentItems = 0)

/-- The next frame is no stream error, unless no counted frame is in the queue. -/
def TakesCounted (traffic : Traffic) : QueueOperation → Prop
  | .get =>
    match traffic.queue.items with
    | some (frame, _) :: _ =>
      counted frame = false → traffic.queue.currentItems = 0
    | _ => True
  | _ => True

section Steps

variable {frameWireBytes} {traffic : Traffic}

theorem Accounted.empty (accounted : Accounted frameWireBytes traffic)
    (noFrames : traffic.queue.frames = []) :
    traffic.queue.currentBytes = 0 ∧ traffic.queue.currentItems = 0 := by
  rw [accounted.bytes, accounted.number, noFrames]
  exact ⟨rfl, rfl⟩

theorem exact_iff_accounted : Exact frameWireBytes traffic ↔ Accounted frameWireBytes traffic :=
  ⟨And.left, fun accounted => ⟨accounted, accounted.empty⟩⟩

theorem accounted_newQueue (maxBytes maxFrameBytes : Nat) :
    Accounted frameWireBytes (newQueue maxBytes maxFrameBytes) where
  stamped := forall_mem_nil _
  bytes := rfl
  bounded := Nat.zero_le _
  number := rfl
  order := rfl

theorem putNowait_eq_ok {queue after : ByteBoundedAskQueue} {frame : AskV2Event}
    (accepted : queue.putNowait frameWireBytes frame = .ok after) :
    after.maxBytes = queue.maxBytes ∧ after.items =
        queue.items ++ [some (frame, accountedBytes frameWireBytes frame)] ∧
      after.currentBytes = queue.currentBytes + accountedBytes frameWireBytes frame ∧
      after.currentItems = queue.currentItems + (if counted frame then 1 else 0) ∧
      (counted frame = true → queue.currentBytes + frameWireBytes frame ≤ queue.maxBytes) := by
  simp only [ByteBoundedAskQueue.putNowait] at accepted
  split at accepted
  · cases accepted
  · split at accepted
    · rename_i isError
      cases accepted
      simp [accountedBytes, counted, isError]
    · rename_i noError
      split at accepted
      · cases accepted
      · split at accepted
        · cases accepted
        · rename_i within
          cases accepted
          simp [accountedBytes, counted, noError, Nat.le_of_not_lt within]

variable (accounted : Accounted frameWireBytes traffic)
include accounted

theorem accounted_put (frame : AskV2Event) :
    Accounted frameWireBytes (step frameWireBytes (.put frame) traffic) := by
  unfold step
  dsimp only
  split
  · exact accounted
  · rename_i after accepted
    rcases putNowait_eq_ok accepted with ⟨sameBound, items, bytes, number, within⟩
    have frames : after.frames = traffic.queue.frames ++ [frame] :=
      (ByteBoundedAskQueue.putNowait_ok accepted).2.2
    constructor
    · show ∀ item ∈ after.items, _
      rw [items]
      intro item member entry isEntry
      rcases List.mem_append.mp member with older | newest
      · exact accounted.stamped item older entry isEntry
      · rw [List.mem_singleton.mp newest] at isEntry
        cases isEntry
        rfl
    · show after.currentBytes = (after.frames.map _).sum
      rw [bytes, frames, accounted.bytes, map_append, sum_append]
      rfl
    · show after.currentBytes ≤ after.maxBytes
      rw [bytes, sameBound, accountedBytes]
      split_ifs with isCounted
      · exact within isCounted
      · exact accounted.bounded
    · show after.currentItems = after.frames.countP counted
      rw [number, frames, countP_append, accounted.number, countP_singleton]
    · show traffic.accepted ++ [frame] = traffic.delivered ++ after.frames
      rw [frames, accounted.order, append_assoc]

theorem accounted_close : Accounted frameWireBytes (step frameWireBytes .close traffic) := by
  unfold step
  dsimp only
  have frames : traffic.queue.close.frames = traffic.queue.frames :=
    ByteBoundedAskQueue.close_frames
  constructor
  · intro item member entry isEntry
    unfold ByteBoundedAskQueue.close at member
    split at member
    · exact accounted.stamped item member entry isEntry
    · rcases List.mem_append.mp member with older | sentinel
      · exact accounted.stamped item older entry isEntry
      · rw [List.mem_singleton.mp sentinel] at isEntry
        cases isEntry
  · rw [frames, ← accounted.bytes]
    unfold ByteBoundedAskQueue.close
    split <;> rfl
  · have bounded := accounted.bounded
    unfold ByteBoundedAskQueue.close
    split <;> exact bounded
  · rw [frames, ← accounted.number]
    unfold ByteBoundedAskQueue.close
    split <;> rfl
  · rw [frames]
    exact accounted.order

theorem accounted_get_iff :
    Accounted frameWireBytes (step frameWireBytes .get traffic) ↔ TakesCounted traffic .get := by
  unfold step TakesCounted
  cases isItems : traffic.queue.items with
  | nil =>
    have waits : traffic.queue.get = none := by
      rw [ByteBoundedAskQueue.get, isItems]
    simp only [waits, iff_true]
    exact accounted
  | cons item rest =>
    cases item with
    | none =>
      have ends : traffic.queue.get =
          some (none, { traffic.queue with items := rest ++ [none] }) := by
        rw [ByteBoundedAskQueue.get, isItems]
      have sameFrames : ByteBoundedAskQueue.frames { traffic.queue with items := rest ++ [none] } =
            traffic.queue.frames := by
        simp [ByteBoundedAskQueue.frames, isItems]
      simp only [ends, iff_true]
      constructor
      · intro other member entry isEntry
        rcases List.mem_append.mp member with isRest | sentinel
        · apply accounted.stamped other _ entry isEntry
          rw [isItems]
          exact .tail _ isRest
        · rw [List.mem_singleton.mp sentinel] at isEntry
          cases isEntry
      · rw [sameFrames]
        exact accounted.bytes
      · exact accounted.bounded
      · rw [sameFrames]
        exact accounted.number
      · rw [sameFrames, Option.toList_none, append_nil]
        exact accounted.order
    | some entry =>
      rcases entry with ⟨frame, frameBytes⟩
      have takes : traffic.queue.get =
          some (some frame, { traffic.queue with
            currentBytes := traffic.queue.currentBytes - frameBytes
            currentItems := traffic.queue.currentItems - 1
            items := rest }) := by
        rw [ByteBoundedAskQueue.get, isItems]
      have stamp : frameBytes = accountedBytes frameWireBytes frame := by
        apply accounted.stamped (some (frame, frameBytes)) _ _ rfl
        rw [isItems]
        exact .head _
      have frames : traffic.queue.frames =
          frame :: rest.filterMap fun item => item.map Prod.fst := by
        simp [ByteBoundedAskQueue.frames, isItems]
      have bytes := accounted.bytes
      have number := accounted.number
      rw [frames, map_cons, sum_cons] at bytes
      rw [frames, countP_cons] at number
      simp only [takes]
      constructor
      · intro after notCounted
        have afterNumber := after.number
        change traffic.queue.currentItems - 1 =
          (rest.filterMap fun item => item.map Prod.fst).countP counted
          at afterNumber
        rw [notCounted] at number
        simp only [Bool.false_eq_true, if_false] at number
        omega
      · intro takesCounted
        constructor
        · intro other member entry isEntry
          apply accounted.stamped other _ entry isEntry
          rw [isItems]
          exact .tail _ member
        · show traffic.queue.currentBytes - frameBytes =
            ((rest.filterMap fun item => item.map Prod.fst).map (accountedBytes frameWireBytes)).sum
          rw [bytes, stamp]
          omega
        · show traffic.queue.currentBytes - frameBytes ≤ traffic.queue.maxBytes
          exact Nat.le_trans (Nat.sub_le _ _) accounted.bounded
        · show traffic.queue.currentItems - 1 =
            (rest.filterMap fun item => item.map Prod.fst).countP counted
          cases isCounted : counted frame with
          | true =>
            rw [isCounted] at number
            simp only [if_true] at number
            omega
          | false =>
            have none := takesCounted isCounted
            rw [isCounted] at number
            simp only [Bool.false_eq_true, if_false] at number
            omega
        · show traffic.accepted = traffic.delivered ++ [frame] ++
            rest.filterMap fun item => item.map Prod.fst
          rw [append_assoc, accounted.order, frames]
          rfl

theorem accounted_step_iff (operation : QueueOperation) :
    Accounted frameWireBytes (step frameWireBytes operation traffic) ↔
      TakesCounted traffic operation := by
  cases operation with
  | put frame => exact iff_of_true (accounted_put accounted frame) trivial
  | get => exact accounted_get_iff accounted
  | close => exact iff_of_true (accounted_close accounted) trivial

end Steps

/-- The accounts of a queue are exact throughout a run exactly where no stream error
is taken while a counted frame is in the queue. -/
theorem exact_iff_takesCounted (maxBytes maxFrameBytes : Nat) (operations : List QueueOperation) :
    Throughout (step frameWireBytes) (Exact frameWireBytes)
        (newQueue maxBytes maxFrameBytes) operations ↔
      OrderlyRun (step frameWireBytes) TakesCounted
        (newQueue maxBytes maxFrameBytes) operations := by
  apply throughout_iff
  · rintro traffic operation ⟨accounted, _⟩
    rw [exact_iff_accounted]
    exact accounted_step_iff accounted operation
  · rw [exact_iff_accounted]
    exact accounted_newQueue maxBytes maxFrameBytes

def textFrame (sequence : Nat) : AskV2Event where
  runId := { text := "run" }
  sequence := sequence
  content := .textDelta "Two." .narrative

def errorFrame (sequence : Nat) : AskV2Event where
  runId := { text := "run" }
  sequence := sequence
  content := .streamError "internal" false none

def errorFirst : List QueueOperation :=
  [.put (errorFrame 1), .put (textFrame 2), .get]

theorem not_exact_of_streamError : ¬Throughout (step fun _ => 4) (Exact fun _ => 4)
      (newQueue maxTableBufferBytes maxFrameBytes) errorFirst := by
  rintro ⟨_, _, _, exactly⟩
  exact absurd exactly.1.number (by decide)

end McpAssistant.Services.QueueAccounting
