import McpAssistant.Conversation.Contracts

/-!
# Draft rules

A draft the model finishes with must keep a table of rules.  A broken rule sends
the model back once with a text that says what to fix; the draft itself may
still be published when the rule holds it.
-/

namespace McpAssistant.Conversation.DraftChecks

open Contracts
open BusinessQuery.SetKeys (strip)

/-- What the coordinator's regular expressions read off a text. -/
structure TextReading where
  /-- The figures that follow a currency code. -/
  amounts : String → List Rat
  /-- The decimal a cell's text is. -/
  figure : String → Option Rat
  notANextQuestion : String → Bool
  namesARecordType : String → List String → Bool
  asksForExplanation : String → Bool

/-- What the rules read about the turn so far. -/
structure DraftFacts where
  observations : List Observation
  outcomes : List ActionOutcome
  earlier : List String
  allowed : List ActionName
  unreachable : List String

/-- One rule.  `check` returns the text of the repair.  A draft whose rule holds
it may still publish if the repair round fails; a rule that stops when repeated
ends the turn on a second break. -/
structure DraftRule (Action : Type) where
  name : String
  check : Action → DraftFacts → Option String
  holdsDraft : Bool
  stopsWhenRepeated : Bool

section Evidence

variable (reading : TextReading)

def cells (observations : List Observation) (identifier : Bool) : List Rat :=
  let keys := observations.flatMap fun observation =>
    (observation.columns.filter fun column => column.identifier == identifier).map
      ObservedColumn.key
  observations.flatMap fun observation =>
    observation.rows.flatMap fun row =>
      row.filterMap fun (key, value) =>
        if keys.contains key then reading.figure value else none

def statesAnIdAsAnAmount (draft : FinishAnswer) (observations : List Observation) : Bool :=
  let ids := cells reading observations true
  let amounts := cells reading observations false
  let stated := (draft.blocks.filter fun block =>
    block.claimType == .evidence).flatMap fun block => reading.amounts block.text
  stated.any fun number => ids.contains number && !amounts.contains number

def citesAnEarlierAnswer (allowed : List ActionName) : String :=
  if allowed.contains (.tool .explainSources) then
    "it cites an earlier answer as evidence: restore it with explain_sources and cite what that returns, or write that sentence as a general block with no evidence ids"
  else
    "it cites an earlier answer that this turn did not restore, and no restore is left: write that sentence as a general block with no evidence ids"

def citedIds (draft : FinishAnswer) : List String :=
  draft.blocks.flatMap AnswerBlock.evidenceIds

def citationProblem (draft : FinishAnswer) (facts : DraftFacts) : Option String :=
  let known := facts.observations.flatMap Observation.evidenceIds
  let invented := (citedIds draft).filter fun id => !known.contains id
  if invented.any fun id => facts.earlier.contains id then
    some (citesAnEarlierAnswer facts.allowed)
  else if !invented.isEmpty then
    some "it cites evidence ids that no succeeded action returned"
  else
    none

def amountProblem (draft : FinishAnswer) (facts : DraftFacts) : Option String :=
  if statesAnIdAsAnAmount reading draft facts.observations then
    some "it states a record id as an amount; quote an amount the table shows"
  else
    none

/-- Every reason the draft cannot publish. -/
def draftProblems (draft : FinishAnswer) (facts : DraftFacts) : List String :=
  (citationProblem draft facts).toList ++ (amountProblem reading draft facts).toList

def evidence (draft : FinishAnswer) (facts : DraftFacts) : Option String :=
  match draftProblems reading draft facts with
  | [] => none
  | problems => some ("; ".intercalate problems ++ ".")

end Evidence

/-- An answer that stood on document passages, which a restore does not
carry. -/
def stoodOnDocuments (turn : RestoredTurn) : Bool :=
  turn.selected.contains "document_search" || turn.resourceTypes.contains none

def restoredTurns (outcomes : List ActionOutcome) : List RestoredTurn :=
  outcomes.flatMap fun outcome =>
    match outcome.result with
    | .sources turns => turns
    | _ => []

def searchPassages (outcomes : List ActionOutcome) : List String :=
  outcomes.flatMap fun outcome =>
    match outcome.status, outcome.result with
    | .succeeded, .documents passages => passages
    | _, _ => []

def restatesADocumentAnswer (draft : FinishAnswer) (outcomes : List ActionOutcome) : Bool :=
  let documentIds := ((restoredTurns outcomes).filter stoodOnDocuments).map RestoredTurn.exchangeId
  (citedIds draft).any documentIds.contains &&
    !(citedIds draft).any (searchPassages outcomes).contains

def restatedDocument (draft : FinishAnswer) (facts : DraftFacts) : Option String :=
  let searched := facts.outcomes.any fun outcome =>
    outcome.kind == .searchDocuments && outcome.status == .succeeded
  if !restatesADocumentAnswer draft facts.outcomes then
    none
  else if searched then
    some "it restates a document answer without citing the search passages; cite the passages the search returned."
  else if facts.allowed.contains (.tool .searchDocuments) then
    some "it restates a document answer without its source; search the documents and cite the passages."
  else
    none

def lacksASuggestion (reading : TextReading) (draft : FinishAnswer)
    (observations : List Observation) : Bool :=
  observations.any Observation.hasFailure && !draft.blocks.any fun block =>
      block.claimType == .suggestion && !reading.notANextQuestion block.text

def suggestion (reading : TextReading) (draft : FinishAnswer)
    (facts : DraftFacts) : Option String :=
  if lacksASuggestion reading draft facts.observations then
    some "it offers no next question; add one to three suggestion blocks."
  else
    none

/-- No block carries evidence and the answer's own text ends in a question. -/
def asksThePerson (draft : FinishAnswer) : Bool :=
  let text := " ".intercalate ((draft.blocks.filter fun block =>
    block.claimType != .suggestion).map AnswerBlock.text)
  !(draft.blocks.any fun block => !block.evidenceIds.isEmpty) &&
    (strip text.toList).getLast? == some '?'

def asksBack (draft : FinishAnswer) (facts : DraftFacts) : Option String :=
  if facts.allowed.contains .clarify && asksThePerson draft then
    some "it asks the person a question inside an answer; use clarify with two to four choices, or answer without a question."
  else
    none

def choices (draft : Clarify) (_ : DraftFacts) : Option String :=
  if draft.choices.isEmpty then
    some "it offers no choices; give two to four short choices the person can pick."
  else
    none

def unreachableRecordType (reading : TextReading) (draft : Clarify)
    (facts : DraftFacts) : Option String :=
  if reading.namesARecordType draft.question facts.unreachable then
    some "it asks about a record type this person cannot see; send the question to query_business and explain what is not available."
  else
    none

def finishRules (reading : TextReading) : List (DraftRule FinishAnswer) := [
  ⟨"evidence", evidence reading, false, true⟩,
  ⟨"asks_back", asksBack, true, false⟩,
  ⟨"restated_document", restatedDocument, true, false⟩,
  ⟨"suggestion", suggestion reading, true, false⟩]

def clarifyRules (reading : TextReading) : List (DraftRule Clarify) := [
  ⟨"unreachable_record_type", unreachableRecordType reading, false, false⟩,
  ⟨"choices", choices, true, false⟩]

theorem citationProblem_short {draft : FinishAnswer} {facts : DraftFacts}
    {text : String} (isText : citationProblem draft facts = some text) :
    text.length ≤ 170 := by
  simp only [citationProblem, citesAnEarlierAnswer] at isText
  split_ifs at isText
  all_goals
    cases isText
    rw [String.length_ofList]
    decide +kernel

section Short

variable {reading : TextReading} {draft : FinishAnswer} {facts : DraftFacts} {text : String}

theorem amountProblem_short (isText : amountProblem reading draft facts = some text) :
    text.length ≤ 70 := by
  simp only [amountProblem] at isText
  split_ifs at isText
  cases isText
  rw [String.length_ofList]
  decide +kernel

theorem evidence_short (isText : evidence reading draft facts = some text) : text.length ≤ 300 := by
  rw [evidence, draftProblems] at isText
  cases cited : citationProblem draft facts with
  | none =>
    cases stated : amountProblem reading draft facts with
    | none =>
      rw [cited, stated] at isText
      cases isText
    | some second =>
      rw [cited, stated] at isText
      cases isText
      have short := amountProblem_short stated
      show (second ++ ".").length ≤ 300
      rw [String.length_append]
      have dot : ".".length = 1 := rfl
      omega
  | some first =>
    have firstShort := citationProblem_short cited
    cases stated : amountProblem reading draft facts with
    | none =>
      rw [cited, stated] at isText
      cases isText
      show (first ++ ".").length ≤ 300
      rw [String.length_append]
      have dot : ".".length = 1 := rfl
      omega
    | some second =>
      rw [cited, stated] at isText
      cases isText
      have secondShort := amountProblem_short stated
      show (first ++ "; " ++ second ++ ".").length ≤ 300
      simp only [String.length_append]
      have dot : ".".length = 1 := rfl
      have semicolon : "; ".length = 2 := rfl
      omega

theorem finishRules_short {rule : DraftRule FinishAnswer} (member : rule ∈ finishRules reading)
    (isText : rule.check draft facts = some text) : text.length ≤ 300 := by
  simp only [finishRules, List.mem_cons, List.not_mem_nil, or_false] at member
  rcases member with rfl | rfl | rfl | rfl
  · exact evidence_short isText
  · simp only [asksBack] at isText
    split_ifs at isText
    cases isText
    rw [String.length_ofList]
    decide +kernel
  · simp only [restatedDocument] at isText
    split_ifs at isText
    all_goals
      cases isText
      rw [String.length_ofList]
      decide +kernel
  · simp only [suggestion] at isText
    split_ifs at isText
    cases isText
    rw [String.length_ofList]
    decide +kernel

theorem clarifyRules_short {rule : DraftRule Clarify}
    (member : rule ∈ clarifyRules reading) {draft : Clarify}
    (isText : rule.check draft facts = some text) : text.length ≤ 300 := by
  simp only [clarifyRules, List.mem_cons, List.not_mem_nil, or_false] at member
  rcases member with rfl | rfl
  · simp only [unreachableRecordType] at isText
    split_ifs at isText
    cases isText
    rw [String.length_ofList]
    decide +kernel
  · simp only [choices] at isText
    split_ifs at isText
    cases isText
    rw [String.length_ofList]
    decide +kernel

end Short

end McpAssistant.Conversation.DraftChecks
