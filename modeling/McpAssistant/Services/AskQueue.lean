import McpAssistant.Services.AskEvents

/-!
# The byte-bounded queue of a stream

The queue bounds the bytes of one frame and of all buffered frames.  A stream
error passes both bounds uncounted, so a full queue can still report why it is
full.  Closing appends a sentinel that stays at the end.
-/

namespace McpAssistant.Services.AskQueue

open AskEvents

def maxFrameBytes : Nat := 32 * 1024

def maxTableBufferBytes : Nat := 256 * 1024

structure ByteBoundedAskQueue where
  maxBytes : Nat := maxTableBufferBytes
  maxFrameBytes : Nat := AskQueue.maxFrameBytes
  currentBytes : Nat := 0
  currentItems : Nat := 0
  closed : Bool := false
  items : List (Option (AskV2Event × Nat)) := []

namespace ByteBoundedAskQueue

def putNowait (frameWireBytes : AskV2Event → Nat) (queue : ByteBoundedAskQueue)
    (frame : AskV2Event) : Except Failure ByteBoundedAskQueue :=
  let frameBytes := frameWireBytes frame
  if queue.closed then
    .error (.runtimeError "Cannot put into closed queue")
  else if frame.content.isStreamError then
    .ok { queue with items := queue.items ++ [some (frame, 0)] }
  else if queue.maxFrameBytes < frameBytes then
    .error (.queueBufferExceeded
      s!"Frame byte limit exceeded: frame is {frameBytes} bytes, limit is {queue.maxFrameBytes}")
  else if queue.maxBytes < queue.currentBytes + frameBytes then
    .error (.queueBufferExceeded
      s!"Queue byte buffer exceeded: attempted {queue.currentBytes + frameBytes} bytes, limit is {queue.maxBytes}")
  else
    .ok { queue with
      currentBytes := queue.currentBytes + frameBytes
      currentItems := queue.currentItems + 1
      items := queue.items ++ [some (frame, frameBytes)] }

/-- Takes the next frame, or nothing once the queue is closed and drained.  An
empty open queue keeps its caller waiting. -/
def get (queue : ByteBoundedAskQueue) : Option (Option AskV2Event × ByteBoundedAskQueue) :=
  match queue.items with
  | [] => none
  | none :: rest => some (none, { queue with items := rest ++ [none] })
  | some (frame, frameBytes) :: rest =>
    some (some frame, { queue with
      currentBytes := queue.currentBytes - frameBytes
      currentItems := queue.currentItems - 1
      items := rest })

def close (queue : ByteBoundedAskQueue) : ByteBoundedAskQueue :=
  if queue.closed then queue
  else { queue with closed := true, items := queue.items ++ [none] }

/-- The frames waiting in the queue, in order. -/
def frames (queue : ByteBoundedAskQueue) : List AskV2Event :=
  queue.items.filterMap fun item => item.map Prod.fst

variable {frameWireBytes : AskV2Event → Nat} {queue after : ByteBoundedAskQueue}
  {frame : AskV2Event}

/-- A queue that accepts a frame is open, stays open and holds it last. -/
theorem putNowait_ok (accepted : putNowait frameWireBytes queue frame = .ok after) :
    queue.closed = false ∧ after.closed = false ∧ after.frames = queue.frames ++ [frame] := by
  simp only [putNowait] at accepted
  split at accepted
  · cases accepted
  · rename_i isOpen
    have isOpen : queue.closed = false := by simpa using isOpen
    split at accepted
    · cases accepted
      exact ⟨isOpen, isOpen, by simp [frames]⟩
    · split at accepted
      · cases accepted
      · split at accepted
        · cases accepted
        · cases accepted
          exact ⟨isOpen, isOpen, by simp [frames]⟩

theorem putNowait_within (accepted : putNowait frameWireBytes queue frame = .ok after)
    (noError : frame.content.isStreamError = false) :
    frameWireBytes frame ≤ queue.maxFrameBytes ∧ after.maxFrameBytes = queue.maxFrameBytes := by
  simp only [putNowait] at accepted
  split at accepted
  · cases accepted
  · rw [if_neg (by rw [noError]; exact Bool.false_ne_true)] at accepted
    split at accepted
    · cases accepted
    · rename_i within
      split at accepted
      · cases accepted
      · cases accepted
        exact ⟨Nat.le_of_not_lt within, rfl⟩

theorem putNowait_error {failure : Failure}
    (refused : putNowait frameWireBytes queue frame = .error failure) :
    (∃ message, failure = .queueBufferExceeded message) ∨
      ∃ message, failure = .runtimeError message := by
  simp only [putNowait] at refused
  split at refused
  · cases refused
    exact .inr ⟨_, rfl⟩
  · split at refused
    · cases refused
    · split at refused
      · cases refused
        exact .inl ⟨_, rfl⟩
      · split at refused
        · cases refused
          exact .inl ⟨_, rfl⟩
        · cases refused

theorem putNowait_streamError (isOpen : queue.closed = false)
    (isError : frame.content.isStreamError = true) :
    putNowait frameWireBytes queue frame =
      .ok { queue with items := queue.items ++ [some (frame, 0)] } := by
  simp only [putNowait]
  rw [if_neg (by rw [isOpen]; exact Bool.false_ne_true), if_pos isError]

/-- Taking from the queue takes its first frame, or none. -/
theorem get_frames {taken : Option AskV2Event} (got : queue.get = some (taken, after)) :
    queue.frames = taken.toList ++ after.frames ∧ after.closed = queue.closed := by
  unfold get at got
  split at got
  · cases got
  · rename_i rest items
    cases got
    exact ⟨by simp [frames, items], rfl⟩
  · rename_i frame frameBytes rest items
    cases got
    exact ⟨by simp [frames, items], rfl⟩

@[simp]
theorem close_frames : queue.close.frames = queue.frames := by
  unfold close
  split
  · rfl
  · simp [frames]

@[simp]
theorem close_closed : queue.close.closed = true := by
  unfold close
  split
  · rename_i isClosed
    exact isClosed
  · rfl

end ByteBoundedAskQueue

end McpAssistant.Services.AskQueue
