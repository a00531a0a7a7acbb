import McpAssistant.Services.AskTables
import Mathlib.Algebra.Ring.Nat

/-!
# Tables painted whole or not at all

The batches of a table are cut before its start frame, so a row that no frame
can carry stops the table before anything is sent.  The bound on a cell, and the
bytes of a frame under its own number, are checked only after the start frame:
a table that meets them late is left half shown.
-/

namespace McpAssistant.Services.TablePainting

open Foundations.Fallible
open Foundations.JsonReading
open Foundations.Procedures
open AskEvents AskQueue AskStream AskTables List

variable {wire : Wire} {runId : RunId} {tableId : String} {batches : List (List Row)}

/-- The batches hold the rows in order, none of them too many. -/
theorem planRowBatchesFrom_spec {rowBytes : Row → Nat} {emptyBytes : Nat}
    {rows : List Row} {index batchBytes : Nat} {batch : List Row}
    (short : batch.length ≤ maxRowsPerPage)
    (planned : planRowBatchesFrom rowBytes emptyBytes index rows batch batchBytes = .ok batches) :
    batches.flatten = batch ++ rows ∧ ∀ cut ∈ batches, cut.length ≤ maxRowsPerPage := by
  induction rows generalizing index batch batchBytes batches with
  | nil =>
    cases planned
    split
    · rename_i empty
      rw [List.isEmpty_iff.mp empty]
      exact ⟨rfl, fun _ member => nomatch member⟩
    · constructor
      · simp
      · intro cut member
        rw [List.mem_singleton.mp member]
        exact short
  | cons row rows ih =>
    unfold planRowBatchesFrom at planned
    split at planned
    · cases planned
    · split at planned
      · cases rest : planRowBatchesFrom rowBytes emptyBytes (index + 1) rows [row]
          (emptyBytes + rowBytes row) with
        | error message =>
          rw [rest] at planned
          cases planned
        | ok others =>
          rw [rest] at planned
          cases planned
          rcases ih (Nat.le_of_ble_eq_true rfl) rest with ⟨flat, bounded⟩
          constructor
          · rw [flatten_cons, flat, singleton_append]
          · intro cut member
            rcases List.mem_cons.mp member with rfl | inOthers
            · exact short
            · exact bounded cut inOthers
      · rename_i goesOn
        have room : (batch ++ [row]).length ≤ maxRowsPerPage := by
          rw [length_append, length_singleton]
          cases batch with
          | nil => decide
          | cons first others =>
            simp only [isEmpty_cons, Bool.not_false, Bool.true_and,
              Bool.or_eq_true, decide_eq_true_eq, not_or, Nat.not_le] at goesOn
            exact goesOn.1
        rcases ih room planned with ⟨flat, bounded⟩
        refine ⟨?_, bounded⟩
        rw [flat, append_assoc, singleton_append]

theorem planRowBatches_spec {rows : List Row}
    (planned : planRowBatches wire runId tableId rows = .ok batches) :
    batches.flatten = rows ∧ ∀ cut ∈ batches, cut.length ≤ maxRowsPerPage :=
  planRowBatchesFrom_spec (Nat.zero_le _) planned

def CellsFit (wire : Wire) (rows : List Row) : Prop :=
  ∀ row ∈ rows, ∀ cell ∈ row, cellWireBytes wire cell.2 ≤ maxCellBytes

/-- A batch that is not too long passes unless a cell is. -/
theorem validateRowBatch_ok_iff {batch : List Row} (short : batch.length ≤ maxRowsPerPage) :
    validateRowBatch wire batch = .ok () ↔ CellsFit wire batch := by
  unfold validateRowBatch CellsFit
  rw [if_neg (Nat.not_lt.mpr short), forM_eq_ok]
  constructor
  · intro passes row inBatch cell inRow
    have passed := forM_eq_ok.mp (passes row inBatch) cell inRow
    simp only at passed
    split at passed
    · cases passed
    · rename_i fits
      exact Nat.not_lt.mp fits
  · intro fits row inBatch
    apply forM_eq_ok.mpr
    intro cell inRow
    exact if_neg (Nat.not_lt.mpr (fits row inBatch cell inRow))

def Fits (wire : Wire) (frame : AskV2Event) : Prop :=
  wire.frameWireBytes frame ≤ maxFrameBytes

/-- Contents under consecutive numbers. -/
def numberedFrom (runId : RunId) : Nat → List EventContent → List AskV2Event
  | _, [] => []
  | sequence, content :: contents =>
    ⟨runId, sequence, content⟩ :: numberedFrom runId (sequence + 1) contents

theorem numberedFrom_append (sequence : Nat) (left right : List EventContent) :
    numberedFrom runId sequence (left ++ right) = numberedFrom runId sequence left ++
        numberedFrom runId (sequence + left.length) right := by
  induction left generalizing sequence with
  | nil => rfl
  | cons content left ih =>
    have shift : sequence + (left.length + 1) = sequence + 1 + left.length := by
      omega
    simp only [cons_append, numberedFrom, ih, length_cons, shift]

theorem length_numberedFrom (sequence : Nat) (contents : List EventContent) :
    (numberedFrom runId sequence contents).length = contents.length := by
  induction contents generalizing sequence with
  | nil => rfl
  | cons content contents ih => rw [numberedFrom, length_cons, ih, length_cons]

def RefusesOnlyLong (wire : Wire) (queue : ByteBoundedAskQueue) : List AskV2Event → Prop
  | [] => True
  | frame :: frames =>
    match queue.putNowait wire.frameWireBytes frame with
    | .ok after => Fits wire frame ∧ RefusesOnlyLong wire after frames
    | .error _ => ¬ Fits wire frame

def AcceptsTables (wire : Wire) : Prop :=
  ∀ content : EventContent, content.isTable = true → wire.validates content = true

structure Sent (wire : Wire) (before after : TurnStream) (frames : List AskV2Event)
    (rest : List AskV2Event) : Prop where
  enqueued : after.enqueued = before.enqueued ++ frames
  numbered : after.sequence.next = before.sequence.next + frames.length
  refuses : RefusesOnlyLong wire after.queue rest

variable {state : TurnStream} {rest : List AskV2Event}

theorem leads_sendFrame {content : EventContent} (accepts : wire.validates content = true)
    (refuses : RefusesOnlyLong wire state.queue (⟨runId, state.sequence.next, content⟩ :: rest)) :
    Leads (sendFrame wire runId content) state
      (fun _ after => Fits wire ⟨runId, state.sequence.next, content⟩ ∧
        Sent wire state after [⟨runId, state.sequence.next, content⟩] rest)
      (fun _ after => ¬ Fits wire ⟨runId, state.sequence.next, content⟩ ∧ after = state) := by
  unfold sendFrame
  apply leads_bind.mpr
  show Leads (if wire.validates content = true then _ else _) state _ _
  rw [if_pos accepts]
  unfold RefusesOnlyLong at refuses
  apply leads_bind.mpr
  apply leads_putNowait
  · intro queue accepted
    rw [show state.queue.putNowait wire.frameWireBytes
      ⟨runId, state.sequence.next, content⟩ = .ok queue from accepted] at refuses
    exact ⟨refuses.1, enqueued_sent accepted, rfl, refuses.2⟩
  · intro failure refused
    rw [show state.queue.putNowait wire.frameWireBytes
      ⟨runId, state.sequence.next, content⟩ = .error failure from refused] at refuses
    exact ⟨refuses, rfl⟩

theorem leads_liftResult {Value : Type} {exception : String → Failure}
    {result : Except String Value}
    {returned : Value → TurnStream → Prop} {failed : Failure → TurnStream → Prop}
    (onOk : ∀ value, result = .ok value → returned value state)
    (onError : ∀ message, result = .error message → failed (exception message) state) :
    Leads (liftResult exception result) state returned failed := by
  cases result with
  | ok value => exact onOk value rfl
  | error message => exact onError message rfl

theorem leads_streamPlannedBatches (accepts : AcceptsTables wire)
    (short : ∀ batch ∈ batches, batch.length ≤ maxRowsPerPage)
    (refuses : RefusesOnlyLong wire state.queue
      (numberedFrom runId state.sequence.next (batches.map (.tableRows tableId)) ++ rest)) :
    Leads (streamPlannedBatches wire runId tableId batches) state
      (fun _ after => CellsFit wire batches.flatten ∧
        (∀ frame ∈ numberedFrom runId state.sequence.next
          (batches.map (.tableRows tableId)), Fits wire frame) ∧
        Sent wire state after (numberedFrom runId state.sequence.next
          (batches.map (.tableRows tableId))) rest)
      (fun _ after => ¬ (CellsFit wire batches.flatten ∧
          ∀ frame ∈ numberedFrom runId state.sequence.next
            (batches.map (.tableRows tableId)), Fits wire frame) ∧
        state.enqueued <+: after.enqueued) := by
  induction batches generalizing state with
  | nil =>
    show CellsFit wire [] ∧ (∀ frame ∈ [], Fits wire frame) ∧ Sent wire state state [] rest
    exact ⟨forall_mem_nil _, forall_mem_nil _, (append_nil _).symm, rfl, refuses⟩
  | cons batch batches ih =>
    have cells : CellsFit wire (batch :: batches).flatten ↔
        CellsFit wire batch ∧ CellsFit wire batches.flatten := by
      unfold CellsFit
      rw [flatten_cons]
      exact forall_mem_append
    have passes := @validateRowBatch_ok_iff wire batch (short batch mem_cons_self)
    show Leads ((do
        liftResult .queueBufferExceeded (validateRowBatch wire batch)
        sendFrame wire runId (.tableRows tableId batch)) >>=
      fun _ => streamPlannedBatches wire runId tableId batches) state _ _
    apply leads_bind.mpr
    apply leads_bind.mpr
    apply leads_liftResult
    · intro _ valid
      apply (leads_sendFrame (accepts _ rfl) refuses).mono
      · rintro _ middle ⟨fits, sent⟩
        have next : middle.sequence.next = state.sequence.next + 1 := sent.numbered
        have refusesRest := sent.refuses
        rw [← next] at refusesRest
        apply (ih (fun cut member => short cut (mem_cons_of_mem _ member)) refusesRest).mono
        · rintro _ after ⟨cellsFit, framesFit, sentRest⟩
          rw [next] at framesFit sentRest
          refine ⟨cells.mpr ⟨passes.mp valid, cellsFit⟩, ?_, ?_, ?_, sentRest.refuses⟩
          · intro frame member
            rcases List.mem_cons.mp member with rfl | inRest
            · exact fits
            · exact framesFit frame inRest
          · rw [sentRest.enqueued, sent.enqueued, append_assoc]
            rfl
          · rw [sentRest.numbered, next]
            simp only [map_cons, numberedFrom, length_cons]
            omega
        · rintro _ after ⟨unfit, grown⟩
          rw [next] at unfit
          constructor
          · rintro ⟨cellsFit, framesFit⟩
            apply unfit
            refine ⟨(cells.mp cellsFit).2, ?_⟩
            exact fun frame member => framesFit frame (mem_cons_of_mem _ member)
          · rw [sent.enqueued] at grown
            exact (prefix_append _ _).trans grown
      · rintro _ after ⟨unfit, rfl⟩
        constructor
        · exact fun both => unfit (both.2 _ mem_cons_self)
        · exact prefix_rfl
    · intro message invalid
      constructor
      · intro both
        rw [passes.mpr (cells.mp both.1).1] at invalid
        cases invalid
      · exact prefix_rfl

section Tables

variable (wire : Wire) (runId : RunId) (ordinal : Nat) (rows : List Row)
  (columns : List TableColumn) (presentation : Option ResultPresentation)
  (totalRowCount : Option Nat)

def tableIdOf : String :=
  s!"table-{runId.text}-{ordinal}"

def tableStart : EventContent :=
  .tableStart (tableIdOf runId ordinal) (trimColumns columns rows presentation).1
    (trimColumns columns rows presentation).2.2

/-- The rows of a table, with the cells that are kept. -/
def trimmedRows : List Row :=
  (trimColumns columns rows presentation).2.1

def tableEnd : EventContent :=
  .tableEnd (tableIdOf runId ordinal) (trimmedRows rows columns presentation).length
    (wire.tableDigest (trimmedRows rows columns presentation)) totalRowCount

/-- The batches the rows are cut into before the start frame. -/
def plannedBatches : Except String (List (List Row)) :=
  planRowBatches wire runId (tableIdOf runId ordinal) (trimmedRows rows columns presentation)

def tableFrames (sequence : Nat) (batches : List (List Row)) : List AskV2Event :=
  numberedFrom runId sequence (tableStart runId ordinal rows columns presentation ::
    (batches.map (.tableRows (tableIdOf runId ordinal)) ++
      [tableEnd wire runId ordinal rows columns presentation totalRowCount]))

def PaintsWholeOrNothing (state : TurnStream) : Prop :=
  Leads (paintCommittedTable wire runId ordinal rows columns presentation totalRowCount) state
    (fun _ after => ∃ batches,
      after.enqueued = state.enqueued ++ tableFrames wire runId ordinal rows columns
        presentation totalRowCount state.sequence.next batches ∧
      batches.flatten = trimmedRows rows columns presentation ∧
      (∀ batch ∈ batches, batch.length ≤ maxRowsPerPage) ∧
      ∀ frame ∈ tableFrames wire runId ordinal rows columns presentation totalRowCount
        state.sequence.next batches, Fits wire frame)
    (fun _ after => after.enqueued = state.enqueued)

/-- A table that is planned and whose start frame fits has no cell that is too
long and no frame that is too long under its own number. -/
def FitsOnceStarted (sequence : Nat) : Prop :=
  ∀ batches, plannedBatches wire runId ordinal rows columns presentation = .ok batches →
    Fits wire ⟨runId, sequence, tableStart runId ordinal rows columns presentation⟩ →
    CellsFit wire (trimmedRows rows columns presentation) ∧
      ∀ frame ∈ tableFrames wire runId ordinal rows columns presentation totalRowCount
        sequence batches, Fits wire frame

end Tables

section Painting

variable {ordinal : Nat} {rows : List Row} {columns : List TableColumn}
  {presentation : Option ResultPresentation} {totalRowCount : Option Nat}
  {state : TurnStream}

theorem leads_paintCommittedTable (accepts : AcceptsTables wire) (refuses : ∀ batches,
      plannedBatches wire runId ordinal rows columns presentation = .ok batches →
      RefusesOnlyLong wire state.queue (tableFrames wire runId ordinal rows columns
        presentation totalRowCount state.sequence.next batches)) :
    Leads (paintCommittedTable wire runId ordinal rows columns presentation totalRowCount) state
      (fun _ after => ∃ batches,
        plannedBatches wire runId ordinal rows columns presentation = .ok batches ∧
        CellsFit wire (trimmedRows rows columns presentation) ∧
        (∀ frame ∈ tableFrames wire runId ordinal rows columns presentation
          totalRowCount state.sequence.next batches, Fits wire frame) ∧
        after.enqueued = state.enqueued ++ tableFrames wire runId ordinal rows columns
          presentation totalRowCount state.sequence.next batches)
      (fun _ after => after.enqueued = state.enqueued ↔
        FitsOnceStarted wire runId ordinal rows columns presentation totalRowCount
          state.sequence.next) := by
  apply leads_bind.mpr
  apply leads_liftResult
  · intro batches planned
    have flat : batches.flatten = trimmedRows rows columns presentation :=
      (planRowBatches_spec planned).1
    have short := (planRowBatches_spec planned).2
    apply leads_bind.mpr
    apply (leads_sendFrame (accepts _ rfl) (refuses batches planned)).mono
    · rintro _ started ⟨startFits, sent⟩
      have next : started.sequence.next = state.sequence.next + 1 := sent.numbered
      have refusesRest := sent.refuses
      rw [← next, numberedFrom_append] at refusesRest
      apply leads_bind.mpr
      apply (leads_streamPlannedBatches accepts short refusesRest).mono
      · rintro _ streamed ⟨cellsFit, framesFit, sentRows⟩
        have last : streamed.sequence.next = started.sequence.next +
            (batches.map (EventContent.tableRows (tableIdOf runId ordinal))).length := by
          rw [sentRows.numbered, length_numberedFrom]
        have refusesEnd := sentRows.refuses
        rw [← last] at refusesEnd
        have whole : tableFrames wire runId ordinal rows columns presentation
            totalRowCount state.sequence.next batches =
            ⟨runId, state.sequence.next, tableStart runId ordinal rows columns presentation⟩ ::
            (numberedFrom runId started.sequence.next
              (batches.map (.tableRows (tableIdOf runId ordinal))) ++
            [⟨runId, streamed.sequence.next,
              tableEnd wire runId ordinal rows columns presentation totalRowCount⟩]) := by
          unfold tableFrames
          rw [numberedFrom, numberedFrom_append, ← next, ← last]
          rfl
        apply leads_bind.mpr
        apply (leads_sendFrame (accepts _ rfl) refusesEnd).mono
        · rintro _ ended ⟨endFits, sentEnd⟩
          rw [flat] at cellsFit
          refine ⟨batches, planned, cellsFit, ?_, ?_⟩
          · rw [whole]
            intro frame member
            rcases List.mem_cons.mp member with rfl | inRest
            · exact startFits
            · rcases List.mem_append.mp inRest with inRows | isEnd
              · exact framesFit frame inRows
              · rw [List.mem_singleton.mp isEnd]
                exact endFits
          · rw [sentEnd.enqueued, sentRows.enqueued, sent.enqueued, whole]
            simp
        · rintro _ after ⟨endUnfit, rfl⟩
          constructor
          · intro same
            rw [sentRows.enqueued, sent.enqueued, append_assoc] at same
            exact absurd (List.append_right_eq_self.mp same) (cons_ne_nil _ _)
          · intro fits
            have framesFit := (fits batches planned startFits).2
            rw [whole] at framesFit
            exact absurd (framesFit _ (by simp)) endUnfit
      · rintro _ after ⟨unfit, grown⟩
        constructor
        · intro same
          rw [same, sent.enqueued] at grown
          exact absurd grown.length_le (by simp)
        · intro fits
          rcases fits batches planned startFits with ⟨cellsFit, framesFit⟩
          rw [flat] at unfit
          apply absurd _ unfit
          refine ⟨cellsFit, ?_⟩
          intro frame member
          apply framesFit frame
          unfold tableFrames
          rw [numberedFrom, numberedFrom_append, ← next]
          exact mem_cons_of_mem _ (mem_append_left _ member)
    · rintro _ after ⟨unfit, rfl⟩
      refine ⟨fun _ => ?_, fun _ => rfl⟩
      intro others same startFits
      exact absurd startFits unfit
  · intro message planned
    refine ⟨fun _ => ?_, fun _ => rfl⟩
    intro batches same
    cases planned.symm.trans same

/-- A table is painted whole or not at all exactly when, once started, no cell
and no frame of it is too long. -/
theorem paintsWholeOrNothing_iff (accepts : AcceptsTables wire) (refuses : ∀ batches,
      plannedBatches wire runId ordinal rows columns presentation = .ok batches →
      RefusesOnlyLong wire state.queue (tableFrames wire runId ordinal rows columns
        presentation totalRowCount state.sequence.next batches)) :
    PaintsWholeOrNothing wire runId ordinal rows columns presentation totalRowCount state ↔
      FitsOnceStarted wire runId ordinal rows columns presentation totalRowCount
        state.sequence.next := by
  have leads := leads_paintCommittedTable accepts refuses
  unfold PaintsWholeOrNothing
  unfold Leads at leads ⊢
  cases painted : paintCommittedTable wire runId ordinal rows columns presentation
      totalRowCount state with
  | error failure after =>
    rw [painted] at leads
    exact leads
  | ok digest after =>
    rw [painted] at leads
    rcases leads with ⟨batches, planned, cellsFit, framesFit, enqueued⟩
    apply iff_of_true
    · exact ⟨batches, enqueued, (planRowBatches_spec planned).1,
        (planRowBatches_spec planned).2, framesFit⟩
    · intro others same _
      rw [Except.ok.inj (same.symm.trans planned)]
      exact ⟨cellsFit, framesFit⟩

end Painting

theorem refusesOnlyLong_of_room {queue : ByteBoundedAskQueue} {frames : List AskV2Event}
    (isOpen : queue.closed = false) (bound : queue.maxFrameBytes = maxFrameBytes)
    (noErrors : ∀ frame ∈ frames, frame.content.isStreamError = false)
    (room : queue.currentBytes + (frames.map wire.frameWireBytes).sum ≤ queue.maxBytes) :
    RefusesOnlyLong wire queue frames := by
  induction frames generalizing queue with
  | nil => trivial
  | cons frame frames ih =>
    rw [map_cons, sum_cons] at room
    rw [forall_mem_cons] at noErrors
    unfold RefusesOnlyLong ByteBoundedAskQueue.putNowait
    simp only [isOpen, noErrors.1, bound, Bool.false_eq_true, if_false]
    by_cases long : maxFrameBytes < wire.frameWireBytes frame
    · rw [if_pos long]
      exact Nat.not_le.mpr long
    · rw [if_neg long, if_neg (by omega)]
      refine ⟨Nat.not_lt.mp long, ?_⟩
      apply ih rfl rfl noErrors.2
      show queue.currentBytes + wire.frameWireBytes frame + _ ≤ queue.maxBytes
      omega

/-- The bytes of a text cell without escapes, in its quotes. -/
def textCellBytes : Json → Nat
  | .text value => value.utf8ByteSize + 2
  | _ => 4

def memoRowBytes (row : Row) : Nat :=
  2 + (row.map fun cell => cell.1.utf8ByteSize + 3 + textCellBytes cell.2).sum

def columnBytes (column : TableColumn) : Nat :=
  57 + column.key.utf8ByteSize + column.label.utf8ByteSize + column.valueType.utf8ByteSize

def plainFrameBytes (event : AskV2Event) : Nat :=
  let stamp := event.runId.text.utf8ByteSize + (toString event.sequence).utf8ByteSize
  match event.content with
  | .tableStart tableId columns _ =>
    122 + stamp + tableId.utf8ByteSize + (columns.map columnBytes).sum
  | .tableRows tableId rows =>
    98 + stamp + tableId.utf8ByteSize + (rows.map memoRowBytes).sum
  | .tableEnd tableId rowCount digest _ =>
    141 + stamp + tableId.utf8ByteSize + (toString rowCount).utf8ByteSize + digest.utf8ByteSize
  | _ => 0

def plainTextWire : Wire where
  frameWireBytes := plainFrameBytes
  detailWireBytes _ := 1
  cellText _ := "null"
  validates _ := true
  tableDigest _ := "digest"
  columnLabel key _ := key
  clock _ := 0

def memoColumn : TableColumn where
  key := "memo"
  label := "Memo"
  valueType := "text"

/-- One row with a memo of a given length. -/
def memoRow (letters : Nat) : Row :=
  [("memo", .text (String.ofList (List.replicate letters 'a')))]

theorem utf8ByteSize_replicate (letters : Nat) :
    (String.ofList (List.replicate letters 'a')).utf8ByteSize = letters := by
  induction letters with
  | zero => rfl
  | succ letters ih =>
    rw [replicate_succ, ← singleton_append, String.ofList_append, String.utf8ByteSize_append, ih]
    exact Nat.add_comm _ _

theorem run_ne_empty : "run" ≠ "" := by decide

def sampleRun : RunId :=
  ⟨"run", run_ne_empty⟩

theorem memoRowBytes_memoRow (letters : Nat) : memoRowBytes (memoRow letters) = letters + 11 := by
  show 2 + (4 + 3 + (String.utf8ByteSize _ + 2) + 0) = letters + 11
  rw [utf8ByteSize_replicate]
  omega

theorem bytes_memoRows (letters sequence : Nat) : plainFrameBytes ⟨sampleRun, sequence,
      .tableRows (tableIdOf sampleRun 0) [memoRow letters]⟩ =
      123 + (toString sequence).utf8ByteSize + letters := by
  have tableId : (tableIdOf sampleRun 0).utf8ByteSize = 11 := by
    decide +kernel
  have run : sampleRun.text.utf8ByteSize = 3 := by
    decide +kernel
  simp only [plainFrameBytes, tableId, run, map_cons, map_nil, sum_cons,
    sum_nil, memoRowBytes_memoRow]
  omega

variable {letters : Nat}

theorem planned_memoRow (short : letters ≤ 5000) :
    plannedBatches plainTextWire sampleRun 0 [memoRow letters] [memoColumn] none =
      .ok [[memoRow letters]] := by
  have zero : (toString 0).utf8ByteSize = 1 := by
    decide +kernel
  have row : rowEventBytes plainTextWire sampleRun (tableIdOf sampleRun 0)
      [memoRow letters] = 124 + letters := by
    unfold rowEventBytes
    rw [show plainTextWire.frameWireBytes = plainFrameBytes from rfl, bytes_memoRows, zero]
  unfold plannedBatches planRowBatches
  show planRowBatchesFrom _ _ 0 [memoRow letters] [] _ = _
  simp only [planRowBatchesFrom]
  rw [if_neg]
  · rfl
  · rw [row]
    unfold maxFrameBytes
    omega

theorem refusesOnlyLong_memoRow (short : letters ≤ 5000)
    (planned : plannedBatches plainTextWire sampleRun 0 [memoRow letters] [memoColumn]
      none = .ok batches) :
    RefusesOnlyLong plainTextWire {} (tableFrames plainTextWire sampleRun 0
      [memoRow letters] [memoColumn] none none 1 batches) := by
  rw [← Except.ok.inj ((planned_memoRow short).symm.trans planned)]
  have frames : tableFrames plainTextWire sampleRun 0 [memoRow letters] [memoColumn]
      none none 1 [[memoRow letters]] =
      [⟨sampleRun, 1, .tableStart (tableIdOf sampleRun 0) [memoColumn] none⟩,
        ⟨sampleRun, 2, .tableRows (tableIdOf sampleRun 0) [memoRow letters]⟩,
        ⟨sampleRun, 3, .tableEnd (tableIdOf sampleRun 0) 1 "digest" none⟩] := rfl
  have start : plainFrameBytes
      ⟨sampleRun, 1, .tableStart (tableIdOf sampleRun 0) [memoColumn] none⟩ = 206 := by
    decide +kernel
  have stop : plainFrameBytes
      ⟨sampleRun, 3, .tableEnd (tableIdOf sampleRun 0) 1 "digest" none⟩ = 163 := by
    decide +kernel
  have digits : (toString 2).utf8ByteSize = 1 := by
    decide +kernel
  rw [frames]
  apply refusesOnlyLong_of_room rfl rfl
  · simp [EventContent.isStreamError]
  · rw [show plainTextWire.frameWireBytes = plainFrameBytes from rfl]
    simp only [map_cons, map_nil, sum_cons, sum_nil, start, stop, bytes_memoRows, digits]
    unfold maxTableBufferBytes
    omega

theorem paintsWholeOrNothing_iff_memo :
    PaintsWholeOrNothing plainTextWire sampleRun 0 [memoRow 11] [memoColumn] none none {} ↔
      FitsOnceStarted plainTextWire sampleRun 0 [memoRow 11] [memoColumn] none none 1 :=
  paintsWholeOrNothing_iff (fun _ _ => rfl)
    fun _ planned => refusesOnlyLong_memoRow (by decide) planned

/-- A memo that is too long for a cell stops its table after the start frame. -/
theorem not_paintsWholeOrNothing_of_long (long : maxCellBytes < letters) (short : letters ≤ 5000) :
    ¬ PaintsWholeOrNothing plainTextWire sampleRun 0 [memoRow letters] [memoColumn] none
      none {} := by
  intro whole
  have leads := @leads_paintCommittedTable plainTextWire sampleRun 0 [memoRow letters]
    [memoColumn] none none {} (fun _ _ => rfl)
    fun _ planned => refusesOnlyLong_memoRow short planned
  have tooLong : ¬ CellsFit plainTextWire [memoRow letters] := by
    intro fits
    have bytes := fits _ mem_cons_self _ mem_cons_self
    rw [show cellWireBytes plainTextWire _ = String.utf8ByteSize _ from rfl,
      utf8ByteSize_replicate] at bytes
    exact absurd bytes (Nat.not_le.mpr long)
  have startFits : Fits plainTextWire ⟨sampleRun, 1,
      tableStart sampleRun 0 [memoRow letters] [memoColumn] none⟩ := by
    show plainFrameBytes ⟨sampleRun, 1,
      .tableStart (tableIdOf sampleRun 0) [memoColumn] none⟩ ≤ maxFrameBytes
    decide +kernel
  unfold PaintsWholeOrNothing at whole
  unfold Leads at whole leads
  cases painted : paintCommittedTable plainTextWire sampleRun 0 [memoRow letters]
      [memoColumn] none none {} with
  | ok digest after =>
    rw [painted] at leads
    rcases leads with ⟨_, _, cellsFit, _⟩
    exact tooLong cellsFit
  | error failure after =>
    rw [painted] at whole leads
    exact tooLong (leads.mp whole _ (planned_memoRow short) startFits).1

theorem not_paintsWholeOrNothing :
    ¬ ∀ (wire : Wire) (runId : RunId) (ordinal : Nat) (rows : List Row)
      (columns : List TableColumn) (presentation : Option ResultPresentation)
      (totalRowCount : Option Nat) (state : TurnStream), AcceptsTables wire →
      (∀ batches, plannedBatches wire runId ordinal rows columns presentation = .ok batches →
        RefusesOnlyLong wire state.queue (tableFrames wire runId ordinal rows columns
          presentation totalRowCount state.sequence.next batches)) →
      PaintsWholeOrNothing wire runId ordinal rows columns presentation totalRowCount
        state := by
  intro claimed
  have impossible : ∀ letters, maxCellBytes < letters → ¬ letters ≤ 5000 := by
    intro letters long short
    apply not_paintsWholeOrNothing_of_long long short
    apply claimed
    · exact fun _ _ => rfl
    · exact fun _ planned => refusesOnlyLong_memoRow short planned
  exact impossible 5000 (by decide) (Nat.le_refl _)

end McpAssistant.Services.TablePainting
