import McpAssistant.Conversation.TranscriptStores
import McpAssistant.Foundations.PrintedValues
import McpAssistant.Foundations.BoundedMemory

/-!
# A thread's memory rebuilt from its query records

Every answered turn leaves a row among the query records.  When the live copy of
a thread is gone, the newest of its rows give back the text of its exchanges.
-/

namespace McpAssistant.Conversation.DurableHistory

open TranscriptStores
open Foundations List

def turnContentMax : Nat :=
  4000

/-- The redaction of a transcript's text and the one of a row's question. -/
structure Redaction where
  redact : String → String
  redactQuestion : String → String

variable {Detail : Type}

def redactText (redaction : Redaction) (text : String) : String :=
  if text = "" then text else redaction.redact text

def strip (text : String) : String :=
  String.ofList (PrintedValues.strip text.toList)

def clip (text : String) : String :=
  String.ofList (text.toList.take turnContentMax)

def storedQuestion (redaction : Redaction) (question : String) : String :=
  clip (redactText redaction question)

/-- What a live exchange keeps beside its text. -/
structure Attached (Detail : Type) where
  contextMode : Option ContextMode := none
  toolResults : Option (StoredToolResults Detail) := none
  details : Detail

/-- The user's turn and, where the answer is not blank, the assistant's. -/
def buildExchangeTurns [Inhabited Detail] (redaction : Redaction)
    (question answer exchangeId : String) (attached : Attached Detail) :
    List (TranscriptTurn Detail) :=
  let userTurn : TranscriptTurn Detail :=
    { role := .user
      content := storedQuestion redaction question
      exchangeId := some exchangeId
      contextMode := attached.contextMode
      details := default }
  let body := strip (redactText redaction answer)
  if body = "" then [userTurn]
  else
    let assistantTurn : TranscriptTurn Detail :=
      { role := .assistant
        content := clip body
        exchangeId := some exchangeId
        toolResultVersion := attached.toolResults.map (·.toolResultVersion)
        completeness := attached.toolResults.bind (·.completeness)
        omissions := (attached.toolResults.map (·.omissions)).getD []
        components := (attached.toolResults.map (·.components)).getD []
        restoreRef := attached.toolResults.bind (·.restoreRef)
        details := attached.details }
    [userTurn, assistantTurn]

inductive AskOperation where
  | newQuestion
  | regenerate
  | clarificationReply
  | resultPage
deriving DecidableEq

/-- A row of the query records, as far as the rebuild reads it. -/
structure QueryRecordRow where
  operation : Option AskOperation
  exchangeId : Option String
  rawQuestion : Option String
  redactedQuestion : Option String
  answerText : Option String
  createdAt : Rat
deriving DecidableEq

structure ThreadRow where
  exchangeId : String
  operation : Option AskOperation
  question : String
  answer : String
  startedAt : Rat
deriving DecidableEq

def given (text : String) : Option String :=
  if text = "" then none else some text

def QueryRecordRow.question (row : QueryRecordRow) : String :=
  ((row.rawQuestion.bind given).or row.redactedQuestion).getD ""

/-- The time of a thread's first row, of any outcome. -/
def startedAt (records : List QueryRecordRow) : Rat :=
  ((records.map (·.createdAt)).min?).getD 0

def threadRow (started : Rat) (row : QueryRecordRow) : Option ThreadRow := do
  let exchangeId ← row.exchangeId
  let answer ← row.answerText
  return {
    exchangeId := exchangeId
    operation := row.operation
    question := row.question
    answer := answer
    startedAt := started }

/-- The answered rows of a thread whose records are given oldest first. -/
def answeredRows (started : Rat) (records : List QueryRecordRow) : List ThreadRow :=
  records.filterMap (threadRow started)

/-- The newest answered rows, oldest first.  A negative limit fails. -/
def readThreadRows (limit : Int) (records : List QueryRecordRow) : Option (List ThreadRow) :=
  if limit < 0 then none
  else some ((answeredRows (startedAt records) records).rtake limit.toNat)

def keepAsked (kept : List ThreadRow) (row : ThreadRow) : List ThreadRow :=
  if strip row.question = "" then kept else kept ++ [row]

/-- A regeneration takes the place of the exchange before it. -/
def keepRow (kept : List ThreadRow) (row : ThreadRow) : List ThreadRow :=
  match row.operation with
  | some .resultPage => kept
  | some .regenerate =>
    match kept.getLast? with
    | none => kept
    | some replaced =>
      keepAsked kept.dropLast { row with question := replaced.question }
  | some .newQuestion => keepAsked kept row
  | some .clarificationReply => keepAsked kept row
  | none => keepAsked kept row

def keptRows (rows : List ThreadRow) : List ThreadRow :=
  rows.foldl keepRow []

def rebuiltExchange [Inhabited Detail] (redaction : Redaction) (row : ThreadRow) :
    List (TranscriptTurn Detail) :=
  buildExchangeTurns redaction row.question row.answer row.exchangeId { details := default }

def historyFromRows [Inhabited Detail] (settings : Settings)
    (redaction : Redaction) (rows : List ThreadRow) :
    List (TranscriptTurn Detail) :=
  trimForStorage settings ((keptRows rows).flatMap (rebuiltExchange redaction))

/-- The memory of a thread whose live copy is gone.  A thread that started too
long ago has none. -/
def reseedFromDurableHistory [Inhabited Detail] (settings : Settings)
    (redaction : Redaction) (maxThreadAge now : Rat)
    (records : List QueryRecordRow) : List (TranscriptTurn Detail) :=
  match readThreadRows (settings.maxStoredTurns / 2) records with
  | none => []
  | some [] => []
  | some (first :: rest) =>
    if maxThreadAge < now - first.startedAt then []
    else historyFromRows settings redaction (first :: rest)

/-- A row of an exchange of its own. -/
def ThreadRow.Asked (row : ThreadRow) : Prop :=
  row.operation ≠ some .resultPage ∧ row.operation ≠ some .regenerate

instance (row : ThreadRow) : Decidable row.Asked :=
  inferInstanceAs (Decidable (_ ∧ _))

def HasText (text : String) : Prop :=
  strip text ≠ ""

instance (text : String) : Decidable (HasText text) :=
  inferInstanceAs (Decidable (_ ≠ _))

variable {row : ThreadRow}

theorem keepRow_of_asked (asked : row.Asked)
    (question : HasText row.question) (kept : List ThreadRow) :
    keepRow kept row = kept ++ [row] := by
  rcases asked with ⟨notPage, notRegenerate⟩
  have added : keepAsked kept row = kept ++ [row] := if_neg question
  cases operation : row.operation with
  | none => simp only [keepRow, operation, added]
  | some operationName =>
    cases operationName with
    | newQuestion => simp only [keepRow, operation, added]
    | clarificationReply => simp only [keepRow, operation, added]
    | regenerate => exact absurd operation notRegenerate
    | resultPage => exact absurd operation notPage

theorem keepRow_page (page : row.operation = some .resultPage)
    (kept : List ThreadRow) : keepRow kept row = kept := by
  simp only [keepRow, page]

theorem keepRow_regenerate_nil
    (regenerate : row.operation = some .regenerate) : keepRow [] row = [] := by
  simp only [keepRow, regenerate, List.getLast?_nil]

theorem keepRow_regenerate {replaced : ThreadRow} (regenerate : row.operation = some .regenerate)
    (question : HasText replaced.question) (kept : List ThreadRow) :
    keepRow (kept ++ [replaced]) row = kept ++ [{ row with question := replaced.question }] := by
  simp only [keepRow, regenerate, List.getLast?_append, List.getLast?_singleton,
    Option.some_or, dropLast_concat]
  exact if_neg question

def Questioned (rows : List ThreadRow) : Prop :=
  ∀ row ∈ rows, row.Asked → HasText row.question

variable {kept : List ThreadRow}

theorem keepRow_questions (questions : ∀ keptRow ∈ kept, HasText keptRow.question)
    (asked : row.Asked → HasText row.question) :
    ∀ keptRow ∈ keepRow kept row, HasText keptRow.question := by
  by_cases isPage : row.operation = some .resultPage
  · rw [keepRow_page isPage]
    exact questions
  · by_cases isRegenerate : row.operation = some .regenerate
    · rcases eq_nil_or_concat kept with rfl | ⟨older, replaced, rfl⟩
      · rw [keepRow_regenerate_nil isRegenerate]
        exact questions
      · rw [concat_eq_append] at questions ⊢
        have question := questions replaced (mem_append_right _ (.head _))
        rw [keepRow_regenerate isRegenerate question]
        intro keptRow member
        rcases List.mem_append.mp member with isOlder | isNew
        · exact questions keptRow (mem_append_left _ isOlder)
        · rw [List.mem_singleton.mp isNew]
          exact question
    · have isAsked : row.Asked := ⟨isPage, isRegenerate⟩
      rw [keepRow_of_asked isAsked (asked isAsked)]
      intro keptRow member
      rcases List.mem_append.mp member with isOlder | isNew
      · exact questions keptRow isOlder
      · rw [List.mem_singleton.mp isNew]
        exact asked isAsked

theorem length_keepRow (questions : ∀ keptRow ∈ kept, HasText keptRow.question)
    (asked : row.Asked → HasText row.question) :
    (keepRow kept row).length = kept.length + if row.Asked then 1 else 0 := by
  by_cases isPage : row.operation = some .resultPage
  · have notAsked : ¬row.Asked := fun isAsked => isAsked.1 isPage
    rw [keepRow_page isPage, if_neg notAsked, Nat.add_zero]
  · by_cases isRegenerate : row.operation = some .regenerate
    · have notAsked : ¬row.Asked := fun isAsked => isAsked.2 isRegenerate
      rw [if_neg notAsked, Nat.add_zero]
      rcases eq_nil_or_concat kept with rfl | ⟨older, replaced, rfl⟩
      · rw [keepRow_regenerate_nil isRegenerate]
      · rw [concat_eq_append] at questions ⊢
        have question := questions replaced (mem_append_right _ (.head _))
        rw [keepRow_regenerate isRegenerate question, length_append,
          length_append, length_singleton, length_singleton]
    · have isAsked : row.Asked := ⟨isPage, isRegenerate⟩
      rw [keepRow_of_asked isAsked (asked isAsked), if_pos isAsked, length_append, length_singleton]

variable {newer : List ThreadRow}

/-- A row changes the newest of what is kept, and takes nothing from the rest. -/
theorem keepRow_append (questions : ∀ keptRow ∈ kept ++ newer, HasText keptRow.question)
    (asked : row.Asked → HasText row.question) :
    ∃ older, older.length = kept.length ∧
      keepRow (kept ++ newer) row = older ++ keepRow newer row := by
  by_cases isPage : row.operation = some .resultPage
  · refine ⟨kept, rfl, ?_⟩
    rw [keepRow_page isPage, keepRow_page isPage]
  · by_cases isRegenerate : row.operation = some .regenerate
    · rcases eq_nil_or_concat newer with rfl | ⟨before, replaced, rfl⟩
      · refine ⟨keepRow kept row, ?_, ?_⟩
        · rw [append_nil] at questions
          rw [length_keepRow questions asked,
            if_neg fun isAsked => isAsked.2 isRegenerate, Nat.add_zero]
        · rw [keepRow_regenerate_nil isRegenerate, append_nil, append_nil]
      · rw [concat_eq_append] at questions ⊢
        have question := questions replaced (mem_append_right _ (mem_append_right _ (.head _)))
        refine ⟨kept, rfl, ?_⟩
        rw [← append_assoc, keepRow_regenerate isRegenerate question,
          keepRow_regenerate isRegenerate question, append_assoc]
    · have isAsked : row.Asked := ⟨isPage, isRegenerate⟩
      refine ⟨kept, rfl, ?_⟩
      rw [keepRow_of_asked isAsked (asked isAsked),
        keepRow_of_asked isAsked (asked isAsked), append_assoc]

variable {rows : List ThreadRow}

theorem foldl_keepRow_append (questioned : Questioned rows)
    (questions : ∀ keptRow ∈ kept ++ newer, HasText keptRow.question) :
    ∃ older, older.length = kept.length ∧
      rows.foldl keepRow (kept ++ newer) = older ++ rows.foldl keepRow newer := by
  induction rows generalizing kept newer with
  | nil => exact ⟨kept, rfl, rfl⟩
  | cons row rows inductionHypothesis =>
    have asked : row.Asked → HasText row.question := questioned row (.head _)
    have later : Questioned rows := fun next member =>
      questioned next (.tail _ member)
    rcases keepRow_append questions asked with ⟨stepped, sameLength, step⟩
    have steppedQuestions := keepRow_questions questions asked
    rw [step] at steppedQuestions
    rcases inductionHypothesis later steppedQuestions with ⟨older, olderLength, run⟩
    refine ⟨older, olderLength.trans sameLength, ?_⟩
    rw [foldl_cons, foldl_cons, step, run]

theorem foldl_keepRow_questions (questioned : Questioned rows)
    (questions : ∀ keptRow ∈ kept, HasText keptRow.question) :
    ∀ keptRow ∈ rows.foldl keepRow kept, HasText keptRow.question := by
  induction rows generalizing kept with
  | nil => exact questions
  | cons row rows inductionHypothesis =>
    apply inductionHypothesis
    · intro next member
      exact questioned next (.tail _ member)
    · exact keepRow_questions questions (questioned row (.head _))

theorem length_foldl_keepRow (questioned : Questioned rows)
    (questions : ∀ keptRow ∈ kept, HasText keptRow.question) :
    (rows.foldl keepRow kept).length = kept.length + rows.countP (fun row => row.Asked) := by
  induction rows generalizing kept with
  | nil => rfl
  | cons row rows inductionHypothesis =>
    have asked : row.Asked → HasText row.question := questioned row (.head _)
    have later : Questioned rows := fun next member =>
      questioned next (.tail _ member)
    rw [foldl_cons, inductionHypothesis later (keepRow_questions questions asked),
      length_keepRow questions asked, countP_cons]
    simp only [decide_eq_true_eq]
    omega

theorem length_keptRows (questioned : Questioned rows) :
    (keptRows rows).length = rows.countP (fun row => row.Asked) := by
  rw [keptRows, length_foldl_keepRow questioned (forall_mem_nil _), length_nil, Nat.zero_add]

variable {older : List ThreadRow}

theorem Questioned.left (questioned : Questioned (older ++ newer)) : Questioned older :=
  fun row member => questioned row (mem_append_left _ member)

theorem Questioned.right (questioned : Questioned (older ++ newer)) : Questioned newer :=
  fun row member => questioned row (mem_append_right _ member)

theorem keptRows_append (questioned : Questioned (older ++ newer)) :
    ∃ before, before.length = older.countP (fun row => row.Asked) ∧
      keptRows (older ++ newer) = before ++ keptRows newer := by
  have questions : ∀ keptRow ∈ keptRows older, HasText keptRow.question :=
    foldl_keepRow_questions questioned.left (forall_mem_nil _)
  have asNew : ∀ keptRow ∈ keptRows older ++ [], HasText keptRow.question := by
    rw [append_nil]
    exact questions
  rcases foldl_keepRow_append questioned.right asNew with ⟨before, same, run⟩
  refine ⟨before, same.trans (length_keptRows questioned.left), ?_⟩
  rw [append_nil] at run
  rw [keptRows, foldl_append]
  exact run

end McpAssistant.Conversation.DurableHistory
