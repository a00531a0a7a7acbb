import McpAssistant.Conversation.Contracts
import McpAssistant.Foundations.FlatJson
import McpAssistant.Foundations.JoinedText
import McpAssistant.Foundations.Loops

/-!
# The budget of a model's input

What the coordinator's model is shown has to fit a budget.  Older lines of the history
and older observations are left out, oldest first, and what was left out is noted.
-/

namespace McpAssistant.Conversation.BudgetedContext

open Contracts
open Foundations.FlatJson Foundations.JoinedText Foundations.JsonReading
  Foundations.JsonText Foundations.Loops List

section Printing

variable (letters : String → List Char)

mutual

def dumpsSpaced : Json → List Char
  | .null => ['n', 'u', 'l', 'l']
  | .boolean true => ['t', 'r', 'u', 'e']
  | .boolean false => ['f', 'a', 'l', 's', 'e']
  | .integer value => dumpInteger value
  | .float _ printed => printed.toList
  | .text value => letters value
  | .list [] => ['[', ']']
  | .list (item :: items) => '[' :: (dumpsSpaced item ++ dumpItemsSpaced items)
  | .dict [] => ['\x7b', '\x7d']
  | .dict ((key, value) :: entries) =>
    '\x7b' :: (letters key ++ ':' :: ' ' :: (dumpsSpaced value ++ dumpEntriesSpaced entries))

def dumpItemsSpaced : List Json → List Char
  | [] => [']']
  | item :: items => ',' :: ' ' :: (dumpsSpaced item ++ dumpItemsSpaced items)

def dumpEntriesSpaced : List (String × Json) → List Char
  | [] => ['\x7d']
  | (key, value) :: entries =>
    ',' :: ' ' :: (letters key ++ ':' :: ' ' :: (dumpsSpaced value ++ dumpEntriesSpaced entries))

end

end Printing

/-- `json.dumps(value, ensure_ascii=False)`. -/
def jsonText (value : Json) : String :=
  String.ofList (dumpsSpaced dumpText value)

def asciiJsonText (value : Json) : String :=
  String.ofList (dumpsSpaced (fun text => '"' :: asciiLetters text) value)

structure ShownMember where
  member : String
  values : List String

/-- An earlier exchange.  `digest` is what the prompt does not show. -/
structure HistoryLine (Digest : Type) where
  exchangeId : String
  userText : String
  assistantText : String := ""
  summary : Option String := none
  shown : List ShownMember := []
  facts : List String := []
  documents : List String := []
  choice : Option (String × String) := none
  onCurrentPage : Bool := false
  digest : Option Digest := none

/-- What came of an action.  `detail` is what only the prompt reads. -/
structure Observation (Detail : Type) where
  actionId : String
  kind : ObservationKind
  evidenceIds : List String := []
  rows : List Entries := []
  rowIdentity : Option Entries := none
  summary : String := ""
  detail : Detail

/-- What the model may see before any tool result; `frame` is all but the history. -/
structure CoordinatorContext (Digest Frame : Type) where
  history : List (HistoryLine Digest) := []
  frame : Frame

structure ContextBudget where
  totalTokens : Int := 20000
  totalBytes : Int := 65536
  observationsTokens : Int := 8000
  businessObservationTokens : Int := 3500
  documentObservationTokens : Int := 2500
  restoredSourcesTokens : Int := 8000
  historyTokens : Int := 6000
  outputReserveTokens : Int := 0
  marginTokens : Int := 1024

structure Message where
  role : String
  content : String
deriving DecidableEq

def humanMessage (content : String) : Message :=
  ⟨"human", content⟩

structure ContextMeasure where
  tokens : Nat
  bytes : Nat
deriving DecidableEq

/-- What a model can take, and how much messages and tools are to it. -/
structure ProviderContextCounter (Tool : Type) where
  capacityTokens : Int
  measure : List Message → List Tool → ContextMeasure

structure ActionSchema (Tool : Type) where
  title : Option String := none
  name : String
  tool : Tool

def ActionSchema.offeredIn {Tool : Type} (allowedActions : List String)
    (schema : ActionSchema Tool) : Bool :=
  let name := match schema.title with
    | none => schema.name
    | some title => if title = "" then schema.name else title
  allowedActions.contains name || allowedActions.contains schema.name

def buildActionTools {Tool : Type} (actionSchemas : List (ActionSchema Tool))
    (allowedActions : List String) : List Tool :=
  (actionSchemas.filter (·.offeredIn allowedActions)).map ActionSchema.tool

def renderHistoryLine {Digest : Type} (line : HistoryLine Digest) : String :=
  let pageMark := if line.onCurrentPage then "[current record] " else ""
  let userPart := "[" ++ line.exchangeId ++ "] User: " ++ line.userText ++
    (if line.assistantText = "" then "" else " → Assistant: " ++ line.assistantText)
  let answerParts := (line.summary.filter (· ≠ "")).toList ++
    (if line.shown.isEmpty then [] else
      [joinWith "; " (line.shown.map fun shown =>
        shown.member ++ ": " ++ joinWith ", " shown.values)])
  let segments := [pageMark ++ userPart] ++
    (if answerParts.isEmpty then [] else [joinWith "; " answerParts]) ++
    (if line.facts.isEmpty then [] else ["Filters: " ++ joinWith "; " line.facts]) ++
    (if line.documents.isEmpty then []
      else ["Documents: " ++ joinWith ", " line.documents]) ++
    line.choice.toList.map fun choice =>
      "Asked: " ++ choice.1 ++ " → chose: " ++ choice.2
  joinWith " | " segments

section Builder

variable {Digest Detail Frame Tool : Type}

def observationText (observation : Observation Detail) : String :=
  observation.summary ++
    if observation.rows.isEmpty then ""
    else
      "\n" ++ jsonText (.list (observation.rows.map Json.dict)) ++
        match observation.rowIdentity with
        | some (entry :: entries) => "\n" ++ asciiJsonText (.dict (entry :: entries))
        | _ => ""

variable (counter : ProviderContextCounter Tool) (budget : ContextBudget)

def textTokens (text : String) : Nat :=
  (counter.measure [humanMessage text] []).tokens

def observationTokens (observation : Observation Detail) : Nat :=
  textTokens counter (observationText observation)

/-! ## What is left out -/

/-- A note of what is left out: a line of the history, the rows of an observation or all
of it. -/
inductive Omission where
  | history (exchangeId : String)
  | rows (actionId : String)
  | observation (actionId : String)
deriving DecidableEq

def Omission.text : Omission → String
  | history exchangeId => "history:" ++ exchangeId
  | rows actionId => "obs:" ++ actionId ++ ":rows"
  | observation actionId => "obs:" ++ actionId

/-- Lines are left out, oldest first, until the others fit. -/
def pruneHistory (budgetTokens : Int) :
    List (HistoryLine Digest) → List Omission × List (HistoryLine Digest)
  | [] => ([], [])
  | line :: lines =>
    let messages := (line :: lines).map (humanMessage ∘ renderHistoryLine)
    if (counter.measure messages []).tokens ≤ budgetTokens then
      ([], line :: lines)
    else
      (.history line.exchangeId :: (pruneHistory budgetTokens lines).1,
        (pruneHistory budgetTokens lines).2)

/-- An observation whose rows can be left out. -/
def Observation.hasPrunableRows (observation : Observation Detail) : Bool :=
  (observation.kind = .action .queryBusiness ||
    observation.kind = .action .explainSources) && !observation.rows.isEmpty

def Observation.withoutRows (observation : Observation Detail) : Observation Detail :=
  { observation with rows := [] }

def dropFirstRows : List (Observation Detail) → Option (List (Observation Detail) × Omission)
  | [] => none
  | observation :: rest =>
    if observation.hasPrunableRows then
      some (observation.withoutRows :: rest, .rows observation.actionId)
    else
      (dropFirstRows rest).map fun pruned => (observation :: pruned.1, pruned.2)

def dropFirst : List (Observation Detail) → Option (List (Observation Detail) × Omission)
  | [] => none
  | observation :: rest => some (rest, .observation observation.actionId)

/-- Rows are left out before observations. -/
def pruneRowsFirst (observations : List (Observation Detail)) :
    Option (List (Observation Detail) × Omission) :=
  (dropFirstRows observations).or (dropFirst observations)

def isKind (kind : ToolKind) (observation : Observation Detail) : Bool :=
  observation.kind = .action kind

def businessTokens (observations : List (Observation Detail)) : Nat :=
  ((observations.filter (isKind .queryBusiness)).map (observationTokens counter)).sum

/-- Documents are measured without their rows. -/
def documentTokens (observations : List (Observation Detail)) : Nat :=
  ((observations.filter (isKind .searchDocuments)).map fun observation =>
    textTokens counter observation.summary).sum

def restoredTokens (observations : List (Observation Detail)) : Nat :=
  ((observations.filter (isKind .explainSources)).map (observationTokens counter)).sum

def totalObservationTokens (observations : List (Observation Detail)) : Nat :=
  businessTokens counter observations + documentTokens counter observations +
    restoredTokens counter observations

def withinKindBudgets (observations : List (Observation Detail)) : Bool :=
  businessTokens counter observations ≤ budget.businessObservationTokens &&
    documentTokens counter observations ≤ budget.documentObservationTokens &&
    restoredTokens counter observations ≤ budget.restoredSourcesTokens &&
    totalObservationTokens counter observations ≤ budget.observationsTokens

def rowsOverBudget (observations : List (Observation Detail)) : Bool :=
  budget.businessObservationTokens < businessTokens counter observations ||
    budget.restoredSourcesTokens < restoredTokens counter observations ||
    budget.observationsTokens < totalObservationTokens counter observations

/-- One step towards the budgets of the kinds, while they are exceeded. -/
def pruneToKindBudgets (observations : List (Observation Detail)) :
    Option (List (Observation Detail) × Omission) :=
  if withinKindBudgets counter budget observations then none
  else if rowsOverBudget counter budget observations then pruneRowsFirst observations
  else dropFirst observations

/-- One step towards the total budget: the history goes first, then rows, then
observations. -/
def pruneOneStep : List (HistoryLine Digest) × List (Observation Detail) →
      Option ((List (HistoryLine Digest) × List (Observation Detail)) × Omission)
  | (line :: lines, observations) =>
    some ((lines, observations), .history line.exchangeId)
  | ([], observations) =>
    (pruneRowsFirst observations).map fun pruned => (([], pruned.1), pruned.2)

/-- What is left to leave out. -/
def remaining (observations : List (Observation Detail)) : Nat :=
  observations.length + (observations.filter Observation.hasPrunableRows).length

theorem withoutRows_hasPrunableRows (observation : Observation Detail) :
    observation.withoutRows.hasPrunableRows = false := by
  simp [Observation.hasPrunableRows, Observation.withoutRows]

theorem remaining_cons (observation : Observation Detail) (rest : List (Observation Detail)) :
    remaining (observation :: rest) =
      remaining rest + (if observation.hasPrunableRows then 2 else 1) := by
  simp only [remaining, length_cons, filter_cons]
  split
  · rw [length_cons]
    omega
  · omega

variable {observations next : List (Observation Detail)} {note : Omission}

theorem remaining_dropFirstRows (pruned : dropFirstRows observations = some (next, note)) :
    remaining next < remaining observations := by
  induction observations generalizing next with
  | nil => cases pruned
  | cons observation rest ih =>
    rw [dropFirstRows] at pruned
    split at pruned
    · rename_i prunable
      cases pruned
      rw [remaining_cons, remaining_cons, prunable, withoutRows_hasPrunableRows]
      simp
    · rcases Option.map_eq_some_iff.mp pruned with ⟨⟨rest', found⟩, isFound, same⟩
      cases same
      rw [remaining_cons, remaining_cons]
      have smaller := ih isFound
      dsimp only
      omega

theorem remaining_dropFirst (pruned : dropFirst observations = some (next, note)) :
    remaining next < remaining observations := by
  cases observations with
  | nil => cases pruned
  | cons observation rest =>
    cases pruned
    rw [remaining_cons]
    split <;> omega

theorem remaining_pruneRowsFirst (pruned : pruneRowsFirst observations = some (next, note)) :
    remaining next < remaining observations := by
  rcases Option.or_eq_some_iff.mp pruned with rows | ⟨-, whole⟩
  · exact remaining_dropFirstRows rows
  · exact remaining_dropFirst whole

def kindLoop : Loop (List (Observation Detail)) Omission where
  step := pruneToKindBudgets counter budget
  size := remaining
  decreases := by
    intro state next note stepped
    rw [pruneToKindBudgets] at stepped
    split at stepped
    · cases stepped
    · split at stepped
      · exact remaining_pruneRowsFirst stepped
      · exact remaining_dropFirst stepped

variable (prompt : CoordinatorContext Digest Frame → List (Observation Detail) →
    List String → List Message)
  (actionSchemas : List (ActionSchema Tool)) (allowedActions : List String)

def effectiveMaxTokens : Int :=
  min budget.totalTokens (counter.capacityTokens - budget.outputReserveTokens - budget.marginTokens)

/-- How much the model's input is with this history and these observations. -/
def inputMeasure (context : CoordinatorContext Digest Frame)
    (history : List (HistoryLine Digest)) (observations : List (Observation Detail)) :
    ContextMeasure :=
  counter.measure (prompt { context with history := history } observations allowedActions)
    (buildActionTools actionSchemas allowedActions)

def ContextMeasure.fits (measure : ContextMeasure) : Bool :=
  measure.tokens ≤ effectiveMaxTokens counter budget && measure.bytes ≤ budget.totalBytes

/-- The loop that brings the whole input within the total budget, as far as there is
something to leave out. -/
def totalLoop (context : CoordinatorContext Digest Frame) :
    Loop (List (HistoryLine Digest) × List (Observation Detail)) Omission where
  step state :=
    if (inputMeasure counter prompt actionSchemas allowedActions context state.1
        state.2).fits counter budget then
      none
    else
      pruneOneStep state
  size state := state.1.length + remaining state.2
  decreases := by
    rintro ⟨history, observations⟩ next note stepped
    split at stepped
    · cases stepped
    · cases history with
      | nil =>
        rcases Option.map_eq_some_iff.mp stepped with ⟨pruned, isPruned, same⟩
        cases same
        have smaller := remaining_pruneRowsFirst isPruned
        simpa using smaller
      | cons line lines =>
        cases stepped
        simp

structure BudgetedModelInput (Tool : Type) where
  messages : List Message
  tools : List Tool
  tokens : Nat
  bytes : Nat
  retainedEvidenceIds : List String
  omissions : List String

structure ContextTooLarge where
  tokens : Nat
  bytes : Nat
  mandatoryOnly : Bool
deriving DecidableEq

def buildBudgetedInput (context : CoordinatorContext Digest Frame)
    (observations : List (Observation Detail)) :
    Except ContextTooLarge (BudgetedModelInput Tool) :=
  let mandatoryMeasure :=
    inputMeasure counter prompt actionSchemas allowedActions context [] []
  if mandatoryMeasure.fits counter budget then
    let history := pruneHistory counter budget.historyTokens context.history
    let byKind : Loop (List (Observation Detail)) Omission := kindLoop counter budget
    let byTotal := totalLoop counter budget prompt actionSchemas allowedActions context
    let started := (history.2, byKind.final observations)
    let (retainedHistory, retained) := byTotal.final started
    let measure := inputMeasure counter prompt actionSchemas allowedActions context
      retainedHistory retained
    if measure.fits counter budget then
      .ok
        { messages := prompt { context with history := retainedHistory } retained allowedActions
          tools := buildActionTools actionSchemas allowedActions
          tokens := measure.tokens
          bytes := measure.bytes
          retainedEvidenceIds := retained.flatMap Observation.evidenceIds
          omissions := (history.1 ++ byKind.notes observations ++
            byTotal.notes started).map Omission.text }
    else
      .error ⟨measure.tokens, measure.bytes, true⟩
  else
    .error ⟨mandatoryMeasure.tokens, mandatoryMeasure.bytes, true⟩

end Builder

section Accounts

variable {Digest Detail Frame Tool : Type}

def Omission.line : Omission → Option String
  | history exchangeId => some exchangeId
  | _ => none

def Omission.droppedRows : Omission → Option String
  | rows actionId => some actionId
  | _ => none

def Omission.dropped : Omission → Option String
  | observation actionId => some actionId
  | _ => none

def shown (marked : Observation Detail × Bool) : Observation Detail :=
  if marked.2 then marked.1.withoutRows else marked.1

/-- The observations are kept from some place on, and the ones that are marked had rows
that are left out.  The notes name the ones that are dropped, and those marked. -/
structure AccountsFor (observations : List (Observation Detail)) (notes : List Omission)
    (marked : List (Observation Detail × Bool)) (count : Nat)
    (retained : List (Observation Detail)) : Prop where
  every : marked.map Prod.fst = observations
  bounded : count ≤ observations.length
  had : ∀ entry ∈ marked, entry.2 = true → entry.1.hasPrunableRows = true
  kept : retained = (marked.drop count).map shown
  dropped : notes.filterMap Omission.dropped = (observations.take count).map Observation.actionId
  droppedRows : (notes.filterMap Omission.droppedRows).Perm
    ((marked.filter Prod.snd).map fun entry => entry.1.actionId)

/-- The history is kept from some place on; the notes name the lines before it. -/
structure AccountsForLines (history : List (HistoryLine Digest)) (notes : List Omission)
    (count : Nat) (retained : List (HistoryLine Digest)) : Prop where
  bounded : count ≤ history.length
  kept : retained = history.drop count
  lines : notes.filterMap Omission.line = (history.take count).map HistoryLine.exchangeId

def Accounted (history : List (HistoryLine Digest))
    (observations : List (Observation Detail)) (notes : List Omission)
    (retainedHistory : List (HistoryLine Digest))
    (retained : List (Observation Detail)) : Prop :=
  (∃ count, AccountsForLines history notes count retainedHistory) ∧
    ∃ marked count, AccountsFor observations notes marked count retained

theorem Accounted.refl (history : List (HistoryLine Digest))
    (observations : List (Observation Detail)) :
    Accounted history observations [] history observations := by
  constructor
  · exact ⟨0, Nat.zero_le _, rfl, rfl⟩
  · refine ⟨observations.map fun observation => (observation, false), 0, ?_⟩
    have unmarked : (observations.map fun observation =>
        (observation, false)).filter Prod.snd = [] := by
      apply List.filter_eq_nil_iff.mpr
      intro entry member
      rcases List.mem_map.mp member with ⟨observation, -, rfl⟩
      exact Bool.false_ne_true
    constructor
    · rw [map_map]
      exact map_id _
    · exact Nat.zero_le _
    · intro entry member marked
      rcases List.mem_map.mp member with ⟨observation, -, rfl⟩
      cases marked
    · rw [drop_zero, map_map]
      exact (map_id _).symm
    · rfl
    · rw [unmarked]
      exact List.Perm.refl _

variable {history retainedHistory : List (HistoryLine Digest)}
  {observations retained : List (Observation Detail)} {notes : List Omission}

theorem Accounted.line {line : HistoryLine Digest}
    (accounted : Accounted history observations notes retainedHistory retained) :
    Accounted (line :: history) observations (.history line.exchangeId :: notes)
      retainedHistory retained := by
  rcases accounted with ⟨⟨count, lines⟩, marked, kept, whole⟩
  constructor
  · refine ⟨count + 1, Nat.succ_le_succ lines.bounded, lines.kept, ?_⟩
    rw [filterMap_cons_some (by rfl), lines.lines]
    rfl
  · exact ⟨marked, kept, whole.every, whole.bounded, whole.had, whole.kept, whole.dropped,
      whole.droppedRows⟩

theorem Accounted.observation {observation : Observation Detail}
    (accounted : Accounted history observations notes retainedHistory retained) :
    Accounted history (observation :: observations)
      (.observation observation.actionId :: notes) retainedHistory retained := by
  rcases accounted with ⟨⟨count, lines⟩, marked, kept, whole⟩
  constructor
  · exact ⟨count, lines.bounded, lines.kept, lines.lines⟩
  · refine ⟨(observation, false) :: marked, kept + 1, ?_⟩
    constructor
    · rw [map_cons, whole.every]
    · exact Nat.succ_le_succ whole.bounded
    · intro entry member isMarked
      rcases List.mem_cons.mp member with rfl | member
      · cases isMarked
      · exact whole.had entry member isMarked
    · exact whole.kept
    · rw [filterMap_cons_some (by rfl), whole.dropped]
      rfl
    · exact whole.droppedRows

variable {next : List (Observation Detail)} {note : Omission}

theorem dropFirstRows_spec (pruned : dropFirstRows observations = some (next, note)) :
    ∃ before observation after, observations = before ++ observation :: after ∧
      observation.hasPrunableRows = true ∧ note = .rows observation.actionId ∧
      next = before ++ observation.withoutRows :: after := by
  induction observations generalizing next with
  | nil => cases pruned
  | cons observation rest ih =>
    rw [dropFirstRows] at pruned
    split at pruned
    · rename_i prunable
      cases pruned
      exact ⟨[], observation, rest, rfl, prunable, rfl, rfl⟩
    · rcases Option.map_eq_some_iff.mp pruned with ⟨⟨rest', found⟩, isFound, same⟩
      cases same
      rcases ih isFound with ⟨before, first, after, rfl, prunable, isNote, rfl⟩
      exact ⟨observation :: before, first, after, rfl, prunable, isNote, rfl⟩

theorem dropFirst_spec (pruned : dropFirst observations = some (next, note)) :
    ∃ observation, observations = observation :: next ∧
      note = .observation observation.actionId := by
  cases observations with
  | nil => cases pruned
  | cons observation rest =>
    cases pruned
    exact ⟨observation, rfl, rfl⟩

theorem Accounted.rows (pruned : dropFirstRows observations = some (next, note))
    (accounted : Accounted history next notes retainedHistory retained) :
    Accounted history observations (note :: notes) retainedHistory retained := by
  rcases dropFirstRows_spec pruned with ⟨before, observation, after, rfl, prunable, rfl, rfl⟩
  rcases accounted with ⟨⟨count, lines⟩, marked, kept, whole⟩
  constructor
  · exact ⟨count, lines.bounded, lines.kept, lines.lines⟩
  · rcases List.map_eq_append_iff.mp whole.every with ⟨first, tail, rfl, isFirst, isTail⟩
    rcases List.map_eq_cons_iff.mp isTail with ⟨⟨stripped, mark⟩, last, rfl, rfl, isLast⟩
    have unmarked : mark = false := by
      cases mark with
      | false => rfl
      | true =>
        have had := whole.had (observation.withoutRows, true) (by simp) rfl
        rw [withoutRows_hasPrunableRows] at had
        cases had
    subst unmarked
    have sameShown : (first ++ (observation, true) :: last).map shown =
        (first ++ (observation.withoutRows, false) :: last).map shown := by
      rw [map_append, map_append]
      rfl
    have bounded := whole.bounded
    refine ⟨first ++ (observation, true) :: last, kept, ?_⟩
    constructor
    · rw [map_append, map_cons, isFirst, isLast]
    · simpa using bounded
    · intro entry member isMarked
      rcases List.mem_append.mp member with early | late
      · exact whole.had entry (mem_append_left _ early) isMarked
      · rcases List.mem_cons.mp late with rfl | late
        · exact prunable
        · exact whole.had entry (mem_append_right _ (mem_cons_of_mem _ late)) isMarked
    · rw [map_drop, sameShown, ← map_drop]
      exact whole.kept
    · rw [filterMap_cons_none (by rfl), whole.dropped, map_take, map_take]
      congr 1
      rw [map_append, map_append]
      rfl
    · have rest := whole.droppedRows
      rw [filter_append, filter_cons_of_neg Bool.false_ne_true] at rest
      rw [filterMap_cons_some (by rfl), filter_append, filter_cons_of_pos rfl, map_append, map_cons]
      apply (List.Perm.cons _ rest).trans
      rw [map_append]
      exact List.perm_middle.symm

theorem Accounted.pruned (pruned : pruneRowsFirst observations = some (next, note) ∨
      dropFirst observations = some (next, note))
    (accounted : Accounted history next notes retainedHistory retained) :
    Accounted history observations (note :: notes) retainedHistory retained := by
  have whole : dropFirst observations = some (next, note) →
      Accounted history observations (note :: notes) retainedHistory retained := by
    intro dropped
    rcases dropFirst_spec dropped with ⟨observation, rfl, rfl⟩
    exact accounted.observation
  rcases pruned with rowsFirst | dropped
  · rcases Option.or_eq_some_iff.mp rowsFirst with rows | ⟨-, dropped⟩
    · exact Accounted.rows rows accounted
    · exact whole dropped
  · exact whole dropped

variable {counter : ProviderContextCounter Tool} {budget : ContextBudget}

theorem pruneHistory_accounted {budgetTokens : Int}
    (accounted : Accounted (pruneHistory counter budgetTokens history).2 observations
      notes retainedHistory retained) :
    Accounted history observations
      ((pruneHistory counter budgetTokens history).1 ++ notes) retainedHistory retained := by
  induction history with
  | nil => exact accounted
  | cons line lines ih =>
    simp only [pruneHistory] at accounted ⊢
    split at accounted
    · rename_i fits
      rw [if_pos fits]
      exact accounted
    · rename_i tooLong
      rw [if_neg tooLong]
      exact (ih accounted).line

theorem kindLoop_accounted (history : List (HistoryLine Digest))
    (observations : List (Observation Detail))
    (accounted : Accounted history ((kindLoop counter budget).final observations) notes
      retainedHistory retained) :
    Accounted history observations ((kindLoop counter budget).notes observations ++ notes)
      retainedHistory retained := by
  induction observations using (kindLoop counter budget).induction with
  | stop observations stopped =>
    rw [Loop.final_of_none stopped] at accounted
    rw [Loop.notes_of_none stopped]
    exact accounted
  | step observations next note stepped ih =>
    rw [Loop.final_of_some stepped] at accounted
    rw [Loop.notes_of_some stepped, cons_append]
    apply Accounted.pruned _ (ih accounted)
    change pruneToKindBudgets counter budget observations = some (next, note) at stepped
    rw [pruneToKindBudgets] at stepped
    split at stepped
    · cases stepped
    · split at stepped
      · exact .inl stepped
      · exact .inr stepped

variable {prompt : CoordinatorContext Digest Frame → List (Observation Detail) →
    List String → List Message}
  {actionSchemas : List (ActionSchema Tool)} {allowedActions : List String}
  {context : CoordinatorContext Digest Frame}

theorem totalLoop_accounted (state : List (HistoryLine Digest) × List (Observation Detail)) :
    Accounted state.1 state.2
      ((totalLoop counter budget prompt actionSchemas allowedActions context).notes state)
      ((totalLoop counter budget prompt actionSchemas allowedActions context).final state).1
      ((totalLoop counter budget prompt actionSchemas allowedActions context).final state).2 := by
  induction state using (totalLoop counter budget prompt actionSchemas allowedActions
    context).induction with
  | stop state stopped =>
    rw [Loop.final_of_none stopped, Loop.notes_of_none stopped]
    exact Accounted.refl _ _
  | step state next note stepped ih =>
    rw [Loop.final_of_some stepped, Loop.notes_of_some stepped]
    rcases state with ⟨history, observations⟩
    change (if _ then none else pruneOneStep _) = _ at stepped
    split at stepped
    · cases stepped
    · cases history with
      | nil =>
        rcases Option.map_eq_some_iff.mp stepped with ⟨pruned, isPruned, same⟩
        cases same
        exact Accounted.pruned (.inl isPruned) ih
      | cons line lines =>
        cases stepped
        exact ih.line

theorem pruneRowsFirst_eq_none
    (stuck : pruneRowsFirst observations = none) : observations = [] := by
  cases observations with
  | nil => rfl
  | cons observation rest =>
    rw [pruneRowsFirst, Option.or_eq_none_iff] at stuck
    cases stuck.2

theorem totalLoop_fits
    (mandatory : (inputMeasure counter prompt actionSchemas allowedActions context []
      []).fits counter budget = true)
    (state : List (HistoryLine Digest) × List (Observation Detail)) :
    (inputMeasure counter prompt actionSchemas allowedActions context
      ((totalLoop counter budget prompt actionSchemas allowedActions context).final state).1
      ((totalLoop counter budget prompt actionSchemas allowedActions context).final
        state).2).fits counter budget = true := by
  have ended := (totalLoop counter budget prompt actionSchemas allowedActions
    context).step_final state
  generalize (totalLoop counter budget prompt actionSchemas allowedActions context).final
    state = last at ended
  change (if _ then none else pruneOneStep last) = none at ended
  split at ended
  · next fits => exact fits
  · rcases last with ⟨history, observations⟩
    cases history with
    | nil =>
      rw [pruneRowsFirst_eq_none (Option.map_eq_none_iff.mp ended)]
      exact mandatory
    | cons line lines => cases ended

/-- An input that is within the budget and shows the retained part of what is given. -/
structure Budgeted (counter : ProviderContextCounter Tool) (budget : ContextBudget)
    (prompt : CoordinatorContext Digest Frame → List (Observation Detail) →
      List String → List Message)
    (allowedActions : List String) (context : CoordinatorContext Digest Frame)
    (observations : List (Observation Detail)) (input : BudgetedModelInput Tool)
    (notes : List Omission) (retainedHistory : List (HistoryLine Digest))
    (retained : List (Observation Detail)) : Prop where
  measured : counter.measure input.messages input.tools = ⟨input.tokens, input.bytes⟩
  tokens : input.tokens ≤ effectiveMaxTokens counter budget
  bytes : input.bytes ≤ budget.totalBytes
  rendered : input.messages =
    prompt { context with history := retainedHistory } retained allowedActions
  evidence : input.retainedEvidenceIds = retained.flatMap Observation.evidenceIds
  noted : input.omissions = notes.map Omission.text
  accounted : Accounted context.history observations notes retainedHistory retained

/-- The builder refuses mandatory content that does not fit, and nothing else; otherwise
its input fits, and the notes account for exactly what it leaves out. -/
theorem buildBudgetedInput_exact (counter : ProviderContextCounter Tool) (budget : ContextBudget)
    (prompt : CoordinatorContext Digest Frame → List (Observation Detail) →
      List String → List Message)
    (actionSchemas : List (ActionSchema Tool)) (allowedActions : List String)
    (context : CoordinatorContext Digest Frame)
    (observations : List (Observation Detail)) :
    let mandatory := inputMeasure counter prompt actionSchemas allowedActions context [] []
    (mandatory.fits counter budget = false ∧
        buildBudgetedInput counter budget prompt actionSchemas allowedActions context
          observations = .error ⟨mandatory.tokens, mandatory.bytes, true⟩) ∨
      (mandatory.fits counter budget = true ∧ ∃ input notes retainedHistory retained,
          buildBudgetedInput counter budget prompt actionSchemas allowedActions context
            observations = .ok input ∧
          input.tools = buildActionTools actionSchemas allowedActions ∧
          Budgeted counter budget prompt allowedActions context observations input notes
            retainedHistory retained) := by
  intro mandatory
  by_cases fits : mandatory.fits counter budget = true
  · right
    refine ⟨fits, ?_⟩
    have within := totalLoop_fits fits
      ((pruneHistory counter budget.historyTokens context.history).2,
        (kindLoop counter budget).final observations)
    have limits := within
    rw [ContextMeasure.fits, Bool.and_eq_true, decide_eq_true_iff, decide_eq_true_iff] at limits
    have accounted := pruneHistory_accounted (kindLoop_accounted _ observations
      (@totalLoop_accounted _ _ _ _ counter budget prompt actionSchemas allowedActions context
        ((pruneHistory counter budget.historyTokens context.history).2,
          (kindLoop counter budget).final observations)))
    exact ⟨_, _, _, _, (if_pos fits).trans (if_pos within), rfl,
      { measured := rfl
        tokens := limits.1
        bytes := limits.2
        rendered := rfl
        evidence := rfl
        noted := by rw [append_assoc]
        accounted := accounted }⟩
  · left
    rw [Bool.not_eq_true] at fits
    refine ⟨fits, ?_⟩
    rw [buildBudgetedInput]
    dsimp only
    rw [if_neg]
    rw [Bool.not_eq_true]
    exact fits

end Accounts

def letterCounter : ProviderContextCounter Unit where
  capacityTokens := 1000000
  measure messages _ :=
    let letters := (messages.map fun message => message.content.length).sum
    ⟨letters, letters⟩

/-- A prompt that shows nothing but the observations. -/
def plainPrompt (_ : CoordinatorContext Unit Unit) (observations : List (Observation Unit))
    (_ : List String) : List Message :=
  observations.map (humanMessage ∘ observationText)

def revenueObservation : Observation Unit where
  actionId := "a1"
  kind := .action .queryBusiness
  rows := [[("revenue", .integer 1200)]]
  detail := ()

/-- An observation whose rows do not fit is shown without them, so what is shown is no
part of what was given. -/
theorem revenueObservation_changed : ¬ ∀ (observations : List (Observation Unit)) input,
      buildBudgetedInput letterCounter { businessObservationTokens := 5 } plainPrompt [] []
        { frame := () } observations = .ok input →
      ∃ history retained, retained.Sublist observations ∧
        input.messages = plainPrompt { history := history, frame := () } retained [] := by
  intro unchanged
  have built : buildBudgetedInput letterCounter { businessObservationTokens := 5 }
      plainPrompt [] [] { frame := () } [revenueObservation] = .ok
        { messages := [humanMessage ""]
          tools := []
          tokens := 0
          bytes := 0
          retainedEvidenceIds := []
          omissions := ["obs:a1:rows"] } := by rfl
  rcases unchanged _ _ built with ⟨history, retained, part, same⟩
  rcases List.sublist_cons_iff.mp part with inNothing | ⟨rest, rfl, inNothing⟩
  · rw [List.sublist_nil.mp inNothing] at same
    cases same
  · rw [List.sublist_nil.mp inNothing] at same
    have text : observationText revenueObservation ≠ "" := by decide +kernel
    exact text (congrArg Message.content (List.cons.inj same).1).symm

end McpAssistant.Conversation.BudgetedContext
