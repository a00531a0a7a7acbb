import McpAssistant.Conversation.DurableHistory

/-!
# The rebuilt memory of a thread and its live memory

A thread is asked questions, has its latest exchange regenerated and is paged
through.  Each operation changes the live turns and writes a row.  The live turns say
what the history of all the rows says; the rebuild reads the newest of them only.
-/

namespace McpAssistant.Conversation.RebuiltMemory

open TranscriptStores
open DurableHistory
open Foundations List

variable {Detail Json : Type}

inductive ThreadOperation (Detail : Type) where
  | ask (question answer exchangeId : String) (attached : Attached Detail)
  | regenerate (target answer exchangeId : String) (attached : Attached Detail)
  | resultPage (exchangeId : Option String) (answer : String)

structure TimedOperation (Detail : Type) where
  createdAt : Rat
  operation : ThreadOperation Detail

/-- A thread's live turns and its rows, both oldest first. -/
structure Thread (Detail : Type) where
  turns : List (TranscriptTurn Detail) := []
  records : List QueryRecordRow := []
deriving DecidableEq

def writtenRow (redaction : Redaction) (createdAt : Rat) (operation : AskOperation)
    (exchangeId : Option String) (question answer : String) : QueryRecordRow where
  operation := some operation
  exchangeId := exchangeId
  rawQuestion := given question
  redactedQuestion := some (redaction.redactQuestion question)
  answerText := given answer
  createdAt := createdAt

def latestExchangeId (turns : List (TranscriptTurn Detail)) : Option String :=
  turns.reverse.findSome? fun turn => turn.exchangeId.bind given

def regenerateQuestion (target : String) (turns : List (TranscriptTurn Detail)) : Option String :=
  (turns.reverse.find? fun turn =>
    turn.exchangeId = some target ∧ turn.role = .user).map (·.content)

def regenerateRequest : String :=
  "regenerate"

def appended [Inhabited Detail] (settings : Settings) (redaction : Redaction)
    (question answer exchangeId : String) (attached : Attached Detail)
    (turns : List (TranscriptTurn Detail)) : List (TranscriptTurn Detail) :=
  trimForStorage settings
    (turns ++ buildExchangeTurns redaction question answer exchangeId attached)

/-- The exchange a regeneration names, as the thread was loaded. -/
def regenerateTarget (target : String) (contextMode : Option ContextMode)
    (turns : List (TranscriptTurn Detail)) : Target where
  exchangeId := target
  expectedQuestion :=
    ((regenerateQuestion target turns).bind given).getD regenerateRequest
  expectedContextMode := contextMode

def replaced [Inhabited Detail] (settings : Settings) (redaction : Redaction)
    (target answer exchangeId : String) (attached : Attached Detail)
    (turns : List (TranscriptTurn Detail)) :
    Option (List (TranscriptTurn Detail)) :=
  if latestExchangeId turns = some target then
    let checked := regenerateTarget target attached.contextMode turns
    match verifyRegenerateTail checked turns with
    | some _ => none
    | none =>
      some (appended settings redaction checked.expectedQuestion answer exchangeId
        attached (withoutLatest turns))
  else none

/-- A regeneration's row names the request, not the question.  After a conflict it
has neither exchange nor answer. -/
def step [Inhabited Detail] (settings : Settings) (redaction : Redaction)
    (thread : Thread Detail) (timed : TimedOperation Detail) : Thread Detail :=
  let written := writtenRow redaction timed.createdAt
  match timed.operation with
  | .ask question answer exchangeId attached =>
    { turns :=
        appended settings redaction question answer exchangeId attached thread.turns
      records :=
        thread.records ++ [written .newQuestion (some exchangeId) question answer] }
  | .regenerate target answer exchangeId attached =>
    match replaced settings redaction target answer exchangeId attached thread.turns with
    | none =>
      { thread with
        records :=
          thread.records ++ [written .regenerate none regenerateRequest ""] }
    | some turns =>
      { turns := turns
        records :=
          thread.records ++ [written .regenerate (some exchangeId) regenerateRequest answer] }
  | .resultPage exchangeId answer =>
    { thread with
      records := thread.records ++ [written .resultPage exchangeId "" answer] }

def run [Inhabited Detail] (settings : Settings) (redaction : Redaction)
    (operations : List (TimedOperation Detail)) : Thread Detail :=
  operations.foldl (step settings redaction) {}

/-- A caller's own thread that has not expired. -/
structure Owned (settings : Settings) (store : MemoryStore Detail Json)
    (threadId : String) (caller : Caller) (now : Rat)
    (record : ThreadRecord Detail) : Prop where
  live : store.liveRecord settings threadId now = some record
  owner : ¬NotOwner caller record.owner record.entityId

variable {settings : Settings} {redaction : Redaction} {store : MemoryStore Detail Json}
  {threadId : String} {now : Rat} {record : ThreadRecord Detail}

theorem memoryStep_append [Inhabited Detail] {caller : Caller}
    (owned : Owned settings store threadId caller now record)
    (question answer exchangeId : String) (attached : Attached Detail) :
    let next := memoryStep settings
      { now := now
        operation := .append threadId caller (buildExchangeTurns redaction question
          answer exchangeId attached) none } store
    (next.1.records threadId).map (·.turns) =
      some (appended settings redaction question answer exchangeId attached record.turns) := by
  simp only [memoryStep, owned.live, if_neg owned.owner, MemoryStore.setRecord,
    Function.update_self, Option.map_some]
  rfl

variable {answer exchangeId : String} {attached : Attached Detail}
  {turns : List (TranscriptTurn Detail)}

theorem memoryStep_replaceLatestExchange [Inhabited Detail] {caller : Caller}
    (owned : Owned settings store threadId caller now record)
    {target : String}
    (isReplaced : replaced settings redaction target answer exchangeId attached
      record.turns = some turns) :
    let checked := regenerateTarget target attached.contextMode record.turns
    let next := memoryStep settings
      { now := now
        operation := .replaceLatestExchange threadId caller checked
          (buildExchangeTurns redaction checked.expectedQuestion answer exchangeId attached) } store
    (next.1.records threadId).map (·.turns) = some turns := by
  unfold replaced at isReplaced
  split at isReplaced
  · dsimp only at isReplaced
    split at isReplaced
    · cases isReplaced
    · rename_i verified
      cases isReplaced
      simp only [memoryStep, owned.live, if_neg owned.owner, verified,
        MemoryStore.setRecord, Function.update_self, Option.map_some]
      rfl
  · cases isReplaced

/-! ## What turns say -/

/-- A turn's text, without what a rebuild leaves out. -/
structure Said where
  role : Role
  content : String
  exchangeId : Option String
deriving DecidableEq

def said (turn : TranscriptTurn Detail) : Said where
  role := turn.role
  content := turn.content
  exchangeId := turn.exchangeId

def saidExchange (redaction : Redaction) (question answer exchangeId : String) : List Said :=
  [{ role := .user
     content := storedQuestion redaction question
     exchangeId := some exchangeId },
   { role := .assistant
     content := clip (strip (redactText redaction answer))
     exchangeId := some exchangeId }]

def saidRow (redaction : Redaction) (row : ThreadRow) : List Said :=
  saidExchange redaction row.question row.answer row.exchangeId

def saidRows (redaction : Redaction) (rows : List ThreadRow) : List Said :=
  rows.flatMap (saidRow redaction)

variable {question : String}

theorem map_said_buildExchangeTurns [Inhabited Detail] (redaction : Redaction)
    (attached : Attached Detail)
    (answered : HasText (redactText redaction answer)) :
    (buildExchangeTurns redaction question answer exchangeId attached).map said =
      saidExchange redaction question answer exchangeId := by
  simp only [buildExchangeTurns, if_neg answered]
  rfl

theorem length_saidRows (redaction : Redaction) (rows : List ThreadRow) :
    (saidRows redaction rows).length = 2 * rows.length := by
  induction rows with
  | nil => rfl
  | cons row rows inductionHypothesis =>
    rw [saidRows, flatMap_cons, length_append]
    show 2 + (saidRows redaction rows).length = 2 * (rows.length + 1)
    omega

theorem saidRows_append (redaction : Redaction) (older newer : List ThreadRow) :
    saidRows redaction (older ++ newer) = saidRows redaction older ++ saidRows redaction newer :=
  flatMap_append

def Settled (redaction : Redaction) (question : String) : Prop :=
  storedQuestion redaction (storedQuestion redaction question) = storedQuestion redaction question

instance (redaction : Redaction) (question : String) : Decidable (Settled redaction question) :=
  inferInstanceAs (Decidable (_ = _))

structure RowPresent (redaction : Redaction) (row : ThreadRow) : Prop where
  question : HasText row.question
  answer : HasText (redactText redaction row.answer)
  settled : Settled redaction row.question

def Present (redaction : Redaction) : ThreadOperation Detail → Prop
  | .ask question answer _ _ =>
    HasText question ∧ HasText (redactText redaction answer) ∧ Settled redaction question
  | .regenerate _ answer _ _ => HasText (redactText redaction answer)
  | .resultPage _ _ => True

variable {row : ThreadRow}

theorem map_said_rebuiltExchange [Inhabited Detail] (present : RowPresent redaction row) :
    (rebuiltExchange redaction row : List (TranscriptTurn Detail)).map said =
      saidRow redaction row :=
  map_said_buildExchangeTurns redaction _ present.answer

variable {rows : List ThreadRow}

theorem map_said_rebuiltExchanges [Inhabited Detail]
    (present : ∀ row ∈ rows, RowPresent redaction row) :
    ((rows.flatMap (rebuiltExchange redaction) : List (TranscriptTurn Detail))).map said =
      saidRows redaction rows := by
  rw [map_flatMap]
  apply flatMap_congr
  intro row member
  exact map_said_rebuiltExchange (present row member)

theorem ne_empty_of_hasText {text : String} (hasText : HasText text) : text ≠ "" := by
  rintro rfl
  exact hasText rfl

/-- An answer that is something after the redaction was something before. -/
theorem ne_empty_of_redacted (hasText : HasText (redactText redaction answer)) : answer ≠ "" := by
  rintro rfl
  exact hasText rfl

/-- The live turns say what the history of all the rows says. -/
structure LiveAsRows (settings : Settings) (redaction : Redaction)
    (rows : List ThreadRow) (turns : List (TranscriptTurn Detail)) : Prop where
  same : turns.map said = BoundedMemory.trimmed settings.maxStoredTurns
        (saidRows redaction (keptRows rows))
  present : ∀ row ∈ keptRows rows, RowPresent redaction row
  questioned : Questioned rows

theorem keptRows_concat (rows : List ThreadRow) (row : ThreadRow) :
    keptRows (rows ++ [row]) = keepRow (keptRows rows) row := by
  rw [keptRows, foldl_append]
  rfl

theorem questioned_concat
    (questioned : Questioned rows) (asked : row.Asked → HasText row.question) :
    Questioned (rows ++ [row]) := by
  intro next member
  rcases List.mem_append.mp member with older | isRow
  · exact questioned next older
  · rw [List.mem_singleton.mp isRow]
    exact asked

theorem map_said_trimForStorage (settings : Settings) (turns : List (TranscriptTurn Detail)) :
    (trimForStorage settings turns).map said =
      BoundedMemory.trimmed settings.maxStoredTurns (turns.map said) :=
  BoundedMemory.map_trimmed said settings.maxStoredTurns turns

namespace LiveAsRows

variable {settings : Settings} {redaction : Redaction}
  {rows : List ThreadRow} {turns : List (TranscriptTurn Detail)} {row : ThreadRow}

theorem ask [Inhabited Detail] (live : LiveAsRows settings redaction rows turns)
    (asked : row.Asked) (present : RowPresent redaction row)
    (attached : Attached Detail) :
    LiveAsRows settings redaction (rows ++ [row])
      (appended settings redaction row.question row.answer row.exchangeId attached turns) where
  same := by
    rw [appended, map_said_trimForStorage, map_append, live.same,
      map_said_buildExchangeTurns redaction attached present.answer,
      BoundedMemory.trimmed_trimmed_append, keptRows_concat,
      keepRow_of_asked asked present.question, saidRows_append]
    rfl
  present := by
    rw [keptRows_concat, keepRow_of_asked asked present.question]
    intro next member
    rcases List.mem_append.mp member with older | isRow
    · exact live.present next older
    · rw [List.mem_singleton.mp isRow]
      exact present
  questioned := questioned_concat live.questioned fun _ => present.question

variable {before : List (TranscriptTurn Detail)} (live : LiveAsRows settings redaction rows turns)
include live

/-- The live turns end with the newest exchange, where they hold two turns. -/
theorem exists_latest {userTurn assistantTurn : TranscriptTurn Detail}
    (ending : turns = before ++ [userTurn, assistantTurn]) :
    ∃ older latest, keptRows rows = older ++ [latest] ∧
      userTurn.content = storedQuestion redaction latest.question ∧
      ∀ newer : List Said, newer.length = 2 →
        BoundedMemory.trimmed settings.maxStoredTurns (before.map said ++ newer) =
          BoundedMemory.trimmed settings.maxStoredTurns (saidRows redaction older ++ newer) := by
  have same := live.same
  rw [ending, map_append] at same
  rcases eq_nil_or_concat (keptRows rows) with empty | ⟨older, latest, split⟩
  · rw [empty] at same
    rw [saidRows, flatMap_nil, BoundedMemory.trimmed_nil] at same
    exact absurd (List.append_eq_nil_iff.mp same).2 (cons_ne_nil _ _)
  · rw [concat_eq_append] at split
    refine ⟨older, latest, split, ?_⟩
    rw [split, saidRows_append] at same
    have whole : (saidRows redaction [latest]).length ≤
        (BoundedMemory.trimmed settings.maxStoredTurns
          (saidRows redaction older ++ saidRows redaction [latest])).length := by
      rw [← same, length_append]
      exact Nat.le_add_left _ _
    rcases BoundedMemory.exists_trimmed_append _ _ whole with ⟨rest, trimmedSplit, replaces⟩
    rw [trimmedSplit] at same
    have parts := append_inj' same rfl
    constructor
    · have user := (List.cons.inj parts.2).1
      exact congrArg Said.content user
    · intro newer two
      rw [parts.1]
      exact replaces newer two

/-- A regeneration keeps the question of the exchange it replaces. -/
theorem regenerate [Inhabited Detail] {userTurn assistantTurn : TranscriptTurn Detail}
    (ending : turns = before ++ [userTurn, assistantTurn])
    (regenerates : row.operation = some .regenerate)
    (answered : HasText (redactText redaction row.answer))
    (attached : Attached Detail) :
    LiveAsRows settings redaction (rows ++ [row])
      (appended settings redaction userTurn.content row.answer row.exchangeId attached before) := by
  rcases live.exists_latest ending with ⟨older, latest, split, isQuestion, replaces⟩
  have latestPresent : RowPresent redaction latest := by
    apply live.present
    rw [split]
    exact mem_append_right _ (.head _)
  have kept : keptRows (rows ++ [row]) = older ++ [{ row with question := latest.question }] := by
    rw [keptRows_concat, split]
    exact keepRow_regenerate regenerates latestPresent.question older
  have newest : saidExchange redaction userTurn.content row.answer row.exchangeId =
        saidRows redaction [{ row with question := latest.question }] := by
    have settled : storedQuestion redaction (storedQuestion redaction
        latest.question) = storedQuestion redaction latest.question :=
      latestPresent.settled
    rw [isQuestion, saidRows, flatMap_cons, flatMap_nil,
      append_nil, saidRow, saidExchange, settled, saidExchange]
  constructor
  · rw [appended, map_said_trimForStorage, map_append,
      map_said_buildExchangeTurns redaction attached answered, replaces _ rfl, kept,
      saidRows_append, newest]
  · rw [kept]
    intro next member
    rcases List.mem_append.mp member with isOlder | isNew
    · apply live.present
      rw [split]
      exact mem_append_left _ isOlder
    · rw [List.mem_singleton.mp isNew]
      exact ⟨latestPresent.question, answered, latestPresent.settled⟩
  · exact questioned_concat live.questioned fun asked =>
      absurd regenerates asked.2

theorem page (isPage : row.operation = some .resultPage) :
    LiveAsRows settings redaction (rows ++ [row]) turns := by
  have kept : keptRows (rows ++ [row]) = keptRows rows := by
    rw [keptRows_concat, keepRow_page isPage]
  constructor
  · rw [kept]
    exact live.same
  · rw [kept]
    exact live.present
  · exact questioned_concat live.questioned fun asked => absurd isPage asked.1

end LiveAsRows

theorem verifyRegenerateTail_eq_none {target : Target}
    (verified : verifyRegenerateTail target turns = none) :
    ∃ before userTurn assistantTurn, turns = before ++ [userTurn, assistantTurn] ∧
        userTurn.content = target.expectedQuestion := by
  unfold verifyRegenerateTail at verified
  split at verified
  case h_1 assistantTurn userTurn before isReverse =>
    refine ⟨before.reverse, userTurn, assistantTurn, ?_, ?_⟩
    · have ending := congrArg List.reverse isReverse
      rw [reverse_reverse] at ending
      simpa using ending
    · split_ifs at verified with roles exchanges question mode
      exact Decidable.not_not.mp question
  case h_2 =>
    cases verified

theorem withoutLatest_append_pair (before : List (TranscriptTurn Detail))
    (userTurn assistantTurn : TranscriptTurn Detail) :
    withoutLatest (before ++ [userTurn, assistantTurn]) = before := by
  simp [withoutLatest]

/-- What is replaced is an exchange whose question is asked again. -/
theorem replaced_eq_some [Inhabited Detail] {target : String} {next : List (TranscriptTurn Detail)}
    (isReplaced : replaced settings redaction target answer exchangeId attached turns = some next) :
    ∃ before userTurn assistantTurn, turns = before ++ [userTurn, assistantTurn] ∧
        next = appended settings redaction userTurn.content answer exchangeId attached before := by
  unfold replaced at isReplaced
  split at isReplaced
  · dsimp only at isReplaced
    split at isReplaced
    · cases isReplaced
    · rename_i verified
      rcases verifyRegenerateTail_eq_none verified with
        ⟨before, userTurn, assistantTurn, ending, isQuestion⟩
      refine ⟨before, userTurn, assistantTurn, ending, ?_⟩
      rw [← Option.some.inj isReplaced, ← isQuestion, ending, withoutLatest_append_pair]
  · cases isReplaced

theorem answeredRows_append (started : Rat) (records : List QueryRecordRow) (row : QueryRecordRow) :
    answeredRows started (records ++ [row]) =
      answeredRows started records ++ (threadRow started row).toList := by
  rw [answeredRows, filterMap_append]
  rfl

def readRow (started : Rat) (operation : AskOperation)
    (question answer exchangeId : String) : ThreadRow where
  exchangeId := exchangeId
  operation := some operation
  question := question
  answer := answer
  startedAt := started

variable {started : Rat}

theorem threadRow_written {createdAt : Rat} {operation : AskOperation}
    (hasQuestion : question ≠ "") (hasAnswer : answer ≠ "") :
    threadRow started (writtenRow redaction createdAt operation (some exchangeId) question answer) =
      some (readRow started operation question answer exchangeId) := by
  have givenQuestion : given question = some question := if_neg hasQuestion
  have givenAnswer : given answer = some answer := if_neg hasAnswer
  simp only [threadRow, writtenRow, QueryRecordRow.question, givenAnswer, givenQuestion, readRow]
  simp [givenQuestion]

variable {records : List QueryRecordRow}

/-- Every row that is read has the thread's start. -/
theorem startedAt_of_mem_answeredRows
    (member : row ∈ answeredRows started records) : row.startedAt = started := by
  rcases List.mem_filterMap.mp member with ⟨record, _, isRow⟩
  unfold threadRow at isRow
  cases isExchange : record.exchangeId with
  | none =>
    rw [isExchange] at isRow
    cases isRow
  | some exchangeId =>
    cases isAnswer : record.answerText with
    | none =>
      rw [isExchange, isAnswer] at isRow
      cases isRow
    | some answer =>
      rw [isExchange, isAnswer] at isRow
      cases isRow
      rfl

theorem threadRow_page {createdAt : Rat} {exchangeId : Option String} :
    ∀ row ∈ threadRow started (writtenRow redaction createdAt .resultPage exchangeId
      question answer), row.operation = some .resultPage := by
  intro row isRow
  cases exchangeId with
  | none => cases isRow
  | some exchangeId =>
    simp only [threadRow, writtenRow] at isRow
    cases isAnswer : given answer with
    | none =>
      rw [isAnswer] at isRow
      cases isRow
    | some answer =>
      rw [isAnswer] at isRow
      cases isRow
      rfl

theorem step_live [Inhabited Detail] {thread : Thread Detail} {timed : TimedOperation Detail}
    (live : LiveAsRows settings redaction (answeredRows started thread.records) thread.turns)
    (present : Present redaction timed.operation) :
    LiveAsRows settings redaction
      (answeredRows started (step settings redaction thread timed).records)
      (step settings redaction thread timed).turns := by
  cases isOperation : timed.operation with
  | ask question answer exchangeId attached =>
    rw [isOperation] at present
    rcases present with ⟨hasQuestion, hasAnswer, settled⟩
    simp only [step, isOperation]
    rw [answeredRows_append, threadRow_written (ne_empty_of_hasText hasQuestion)
      (ne_empty_of_redacted hasAnswer)]
    have asked : (readRow started .newQuestion question answer exchangeId).Asked := by
      constructor <;> exact nofun
    exact live.ask asked ⟨hasQuestion, hasAnswer, settled⟩ attached
  | regenerate target answer exchangeId attached =>
    rw [isOperation] at present
    cases isReplaced : replaced settings redaction target answer exchangeId
        attached thread.turns with
    | none =>
      simp only [step, isOperation, isReplaced]
      rw [answeredRows_append]
      show LiveAsRows settings redaction (answeredRows started _ ++ []) _
      rw [append_nil]
      exact live
    | some next =>
      simp only [step, isOperation, isReplaced]
      rcases replaced_eq_some isReplaced with ⟨before, userTurn, assistantTurn, ending, rfl⟩
      have request : regenerateRequest ≠ "" := by
        decide
      rw [answeredRows_append, threadRow_written request (ne_empty_of_redacted present)]
      have regenerates : (readRow started .regenerate regenerateRequest answer
          exchangeId).operation = some .regenerate := rfl
      exact live.regenerate ending regenerates present attached
  | resultPage exchangeId answer =>
    simp only [step, isOperation]
    rw [answeredRows_append]
    cases isRow : threadRow started (writtenRow redaction timed.createdAt
        .resultPage exchangeId "" answer) with
    | none =>
      rw [Option.toList_none, append_nil]
      exact live
    | some row =>
      exact live.page (threadRow_page row isRow)

theorem run_live [Inhabited Detail] {settings : Settings} {redaction : Redaction}
    {operations : List (TimedOperation Detail)}
    (present : ∀ timed ∈ operations, Present redaction timed.operation)
    (started : Rat) :
    LiveAsRows settings redaction (answeredRows started (run settings redaction operations).records)
      (run settings redaction operations).turns := by
  unfold run
  have empty : LiveAsRows settings redaction (answeredRows started ({} : Thread Detail).records)
      ({} : Thread Detail).turns := by
    constructor
    · exact (BoundedMemory.trimmed_nil _).symm
    · exact forall_mem_nil _
    · exact forall_mem_nil _
  generalize ({} : Thread Detail) = thread at empty ⊢
  induction operations generalizing thread with
  | nil => exact empty
  | cons timed operations inductionHypothesis =>
    apply inductionHypothesis
    · intro next member
      exact present next (.tail _ member)
    · exact step_live empty (present timed (.head _))

/-- How many rows the rebuild reads. -/
def rowLimit (settings : Settings) : Nat :=
  (settings.maxStoredTurns / 2).toNat

theorem two_mul_rowLimit_le (positive : 0 < settings.maxStoredTurns) :
    2 * rowLimit settings ≤ settings.maxStoredTurns.toNat := by
  unfold rowLimit
  omega

/-- No exchange is out of the reach of the rebuild: none was asked before the rows
it reads, or each of these was asked by itself and their exchanges fill the
memory. -/
def NoneLost (settings : Settings) (rows : List ThreadRow) : Prop :=
  (∀ row ∈ rows.rdrop (rowLimit settings), ¬row.Asked) ∨
    (0 < settings.maxStoredTurns ∧ 2 ∣ settings.maxStoredTurns ∧
      ∀ row ∈ rows.rtake (rowLimit settings), row.Asked)

instance (settings : Settings) (rows : List ThreadRow) : Decidable (NoneLost settings rows) :=
  inferInstanceAs (Decidable (_ ∨ _))

/-- The exchanges of the rows that are read fit the bound of a memory. -/
theorem length_keptRows_rtake (questioned : Questioned (rows.rtake (rowLimit settings))) :
    (keptRows (rows.rtake (rowLimit settings))).length ≤ rowLimit settings := by
  rw [length_keptRows questioned]
  apply Nat.le_trans countP_le_length
  rw [BoundedMemory.length_rtake]
  exact Nat.min_le_left _ _

theorem trimmed_saidRows_rtake (questioned : Questioned (rows.rtake (rowLimit settings))) :
    BoundedMemory.trimmed settings.maxStoredTurns
        (saidRows redaction (keptRows (rows.rtake (rowLimit settings)))) =
      saidRows redaction (keptRows (rows.rtake (rowLimit settings))) := by
  by_cases positive : 0 < settings.maxStoredTurns
  · rw [BoundedMemory.trimmed_of_pos positive]
    apply BoundedMemory.rtake_of_length_le
    rw [length_saidRows]
    have fits := two_mul_rowLimit_le positive
    have few := length_keptRows_rtake questioned
    omega
  · exact BoundedMemory.trimmed_of_not_pos positive _

theorem map_said_historyFromRows [Inhabited Detail]
    (present : ∀ row ∈ keptRows rows, RowPresent redaction row) :
    (historyFromRows settings redaction rows : List (TranscriptTurn Detail)).map said =
      BoundedMemory.trimmed settings.maxStoredTurns (saidRows redaction (keptRows rows)) := by
  rw [historyFromRows, map_said_trimForStorage, map_said_rebuiltExchanges present]

/-- The rebuild of a young thread says what its newest rows say. -/
theorem map_said_reseed [Inhabited Detail] {maxThreadAge : Rat}
    (young : now - startedAt records ≤ maxThreadAge)
    (present : ∀ row ∈ keptRows ((answeredRows (startedAt records) records).rtake
        (rowLimit settings)), RowPresent redaction row)
    (questioned : Questioned ((answeredRows (startedAt records) records).rtake
        (rowLimit settings))) :
    (reseedFromDurableHistory settings redaction maxThreadAge now records :
        List (TranscriptTurn Detail)).map said =
      saidRows redaction (keptRows ((answeredRows (startedAt records) records).rtake
        (rowLimit settings))) := by
  unfold reseedFromDurableHistory
  by_cases negative : settings.maxStoredTurns / 2 < 0
  · rw [readThreadRows, if_pos negative]
    have noRows : rowLimit settings = 0 := by
      unfold rowLimit
      omega
    rw [noRows, rtake_zero]
    rfl
  · have read : readThreadRows (settings.maxStoredTurns / 2) records =
      some ((answeredRows (startedAt records) records).rtake (rowLimit settings)) := if_neg negative
    rw [read]
    cases isRows : (answeredRows (startedAt records) records).rtake (rowLimit settings) with
    | nil => rfl
    | cons first rest =>
      have member : first ∈ answeredRows (startedAt records) records := by
        apply mem_of_mem_drop
        rw [List.rtake] at isRows
        rw [isRows]
        exact .head _
      have started := startedAt_of_mem_answeredRows member
      rw [isRows] at present questioned
      show List.map said (if maxThreadAge < now - first.startedAt then []
        else historyFromRows settings redaction (first :: rest)) = _
      rw [started, if_neg (not_lt.mpr young), map_said_historyFromRows present, ← isRows]
      exact trimmed_saidRows_rtake (by rw [isRows]; exact questioned)

/-- The rebuilt memory says what the live memory says. -/
def RebuiltAsLive [Inhabited Detail] (settings : Settings) (redaction : Redaction)
    (maxThreadAge now : Rat) (thread : Thread Detail) : Prop :=
  (reseedFromDurableHistory settings redaction maxThreadAge now thread.records :
      List (TranscriptTurn Detail)).map said =
    thread.turns.map said

instance [Inhabited Detail] (settings : Settings) (redaction : Redaction)
    (maxThreadAge now : Rat) (thread : Thread Detail) :
    Decidable (RebuiltAsLive settings redaction maxThreadAge now thread) :=
  inferInstanceAs (Decidable (_ = _))

theorem rdrop_append_rtake (rows : List ThreadRow) (count : Nat) :
    rows.rdrop count ++ rows.rtake count = rows :=
  take_append_drop _ rows

theorem saidRows_eq_nil_iff : saidRows redaction rows = [] ↔ rows.length = 0 := by
  rw [← length_eq_zero_iff, length_saidRows]
  omega

theorem fills_iff {newest : List ThreadRow} (many : newest.length = rowLimit settings) :
    (0 < settings.maxStoredTurns ∧ 2 * newest.countP (fun row => row.Asked) =
          settings.maxStoredTurns.toNat) ↔
      (0 < settings.maxStoredTurns ∧ 2 ∣ settings.maxStoredTurns ∧ ∀ row ∈ newest, row.Asked) := by
  have bound : newest.countP (fun row => row.Asked) ≤ newest.length := countP_le_length
  have all : newest.countP (fun row => row.Asked) = newest.length ↔ ∀ row ∈ newest, row.Asked := by
    rw [countP_eq_length]
    simp only [decide_eq_true_eq]
  have isLimit : rowLimit settings = (settings.maxStoredTurns / 2).toNat := rfl
  apply and_congr_right
  intro positive
  rw [← all]
  omega

/-- After any run from an empty thread, the rebuilt memory says what the live
memory says exactly where no exchange is out of the reach of the rebuild. -/
theorem rebuiltAsLive_iff [Inhabited Detail] (settings : Settings)
    (redaction : Redaction) (maxThreadAge now : Rat)
    (operations : List (TimedOperation Detail))
    (present : ∀ timed ∈ operations, Present redaction timed.operation)
    (young : now - startedAt (run settings redaction operations).records ≤ maxThreadAge) :
    RebuiltAsLive settings redaction maxThreadAge now (run settings redaction operations) ↔
      NoneLost settings (answeredRows (startedAt (run settings redaction operations).records)
          (run settings redaction operations).records) := by
  have live := @run_live _ _ settings _ _ present
    (startedAt (run settings redaction operations).records)
  generalize run settings redaction operations = thread at live young ⊢
  have split := rdrop_append_rtake
    (answeredRows (startedAt thread.records) thread.records) (rowLimit settings)
  have questioned := live.questioned
  rw [← split] at questioned
  rcases keptRows_append questioned with ⟨before, beforeCount, kept⟩
  rw [split] at kept
  have presentNewest : ∀ row ∈ keptRows ((answeredRows (startedAt thread.records)
        thread.records).rtake (rowLimit settings)), RowPresent redaction row := by
    intro row member
    apply live.present
    rw [kept]
    exact mem_append_right _ member
  have newestCount := length_keptRows questioned.right
  rw [RebuiltAsLive, map_said_reseed young presentNewest questioned.right, live.same,
    kept, saidRows_append, eq_comm,
    BoundedMemory.trimmed_append_eq_newer_iff _ _ _ (fun positive => by
      rw [length_saidRows]
      have fits := two_mul_rowLimit_le positive
      have few := length_keptRows_rtake questioned.right
      omega),
    saidRows_eq_nil_iff, length_saidRows, beforeCount, newestCount,
    countP_eq_zero, NoneLost]
  simp only [decide_eq_true_eq]
  apply or_congr_right'
  intro someOlder
  apply fills_iff
  rw [BoundedMemory.length_rtake, Nat.min_eq_left]
  by_contra few
  apply someOlder
  intro row member
  rw [List.rdrop, Nat.sub_eq_zero_of_le (Nat.le_of_not_le few), take_zero] at member
  cases member

def plainText : Redaction where
  redact := id
  redactQuestion := id

def asking (count : Nat) : TimedOperation Unit where
  createdAt := count
  operation :=
    .ask "How many jobs?" "Two." ("ex-" ++ toString count) { details := () }

def regenerating (count : Nat) : TimedOperation Unit where
  createdAt := count + 1
  operation :=
    .regenerate ("ex-" ++ toString count) "Three." ("ex-" ++ toString (count + 1)) { details := () }

/-- Twenty questions fill a memory of forty turns; the last is answered anew. -/
def fullThread : List (TimedOperation Unit) :=
  (List.range 20).map asking ++ [regenerating 19]

theorem not_rebuiltAsLive_of_regenerate :
    ¬RebuiltAsLive {} plainText 14400 30 (run {} plainText fullThread) := by
  decide +kernel

theorem rebuiltAsLive_iff_regenerated : RebuiltAsLive {} plainText 14400 30
        (run {} plainText [asking 1, regenerating 1]) := by
  apply (rebuiltAsLive_iff {} plainText 14400 30 [asking 1, regenerating 1] ?_ ?_).mpr
  · decide +kernel
  · intro timed member
    rcases List.mem_cons.mp member with rfl | last
    · show HasText _ ∧ HasText _ ∧ Settled _ _
      decide +kernel
    · rw [List.mem_singleton.mp last]
      show HasText _
      decide +kernel
  · decide +kernel

end McpAssistant.Conversation.RebuiltMemory
