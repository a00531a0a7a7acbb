import McpAssistant.BusinessQuery.DetailFacts

/-!
# The detail reads of an answer

The executor gathers the ids of an answer's records, finds the scope they are
read in, and asks the engine for the facts they own.  One list of ids serves
every selected family.
-/

namespace McpAssistant.BusinessQuery.DetailReads

open Definitions QueryPlan Visibility Scopes DetailSources DetailEngine
open EvidenceSealing (CellValue)

def denyMessage : String :=
  "business query tools are currently unavailable"

/-- An answer row, its cells by member name. -/
abbrev AnswerRow := List (String × CellValue)

/-- A reference to a record of the answer. -/
structure RecordRef where
  resource : String
  recordId : Int
deriving DecidableEq

inductive DetailReadOutcome where
  | read (recordDetails : List RecordDetail) (failedFamilies : List String)
  | denied (message reasonCode : String)
  | incomplete (reasonCode : String)

def selectedSources (bundle : DetailBundle)
    (selections : List DetailSelection) : List DetailSource :=
  selections.filterMap fun selection => bundle.sourceFor selection.family

def ownerResources (bundle : DetailBundle) (selections : List DetailSelection) : List String :=
  sortedSet ((selectedSources bundle selections).map DetailSource.ownerResource)

def heldId (row : AnswerRow) (member : String) : Option CellValue :=
  (row.lookup member).filter fun value => value ≠ .null

def rowOwnerIds (resources : List String) (row : AnswerRow) : List CellValue :=
  (resources.filterMap fun resource => heldId row (resource ++ ".id")) ++
    if resources.length = 1 then (heldId row "id").toList else []

def gatherOwnerIds (bundle : DetailBundle) (selections : List DetailSelection)
    (rows : List AnswerRow) (recordRefs : List RecordRef) : List CellValue :=
  let parentIds := rows.flatMap (rowOwnerIds (ownerResources bundle selections))
  if parentIds.isEmpty then
    (recordRefs.filter fun ref =>
      ref.resource = "job" || ref.resource = "work_order").map fun ref => .integer ref.recordId
  else parentIds

def entityFor (principal : Option Principal) (plan : ScopedPlan) : Option FilterValue :=
  match principal.bind Principal.entityId with
  | some entity => some (.integer entity)
  | none =>
    match plan.principal.bind Principal.entityId with
    | some entity => some (.integer entity)
    | none =>
      (plan.forced.find? fun predicate =>
        predicate.column = "entity_id" && !predicate.values.isEmpty).bind
          fun predicate => predicate.values.head?

def departmentRequired (bundle : DetailBundle) (plan : ScopedPlan) : Bool :=
  plan.forced.any fun predicate =>
    predicate.operator = .eq &&
      (selectedSources bundle plan.plan.detailSelections).any fun source =>
        predicate.resource = source.ownerResource &&
          some predicate.column = source.scopeColumns.department

def scopedPrincipal (principal : Option Principal) (plan : ScopedPlan) : Option Principal :=
  plan.principal <|> principal

def departmentOf (principal : Principal) : Option Int :=
  principal.scopeValues.bind ScopeValues.departmentId

def readOutcome (plan : ScopedPlan) :
    Except ReadFailure DetailReadResult → Except ReadFailure DetailReadOutcome
  | .ok result =>
    if result.failedFamilies ≠ [] ∧ plan.responsePolicy = .strict then
      .ok (.incomplete "detail_source_unavailable")
    else .ok (.read result.details result.failedFamilies)
  | .error (.refused reason) =>
    if reason ≠ "detail_source_unavailable" ∨ plan.responsePolicy = .strict then
      .ok (.incomplete "detail_source_unavailable")
    else
      .ok (.read [] (sortedSet (plan.plan.detailSelections.map DetailSelection.family)))
  | .error failure => .error failure

section Reads

variable (sql : Sql) (contents : Contents) (schema : Schema) (bundle : DetailBundle)

/-- What the executor asks the engine for, once there are ids and an entity. -/
def readScope (plan : ScopedPlan) (parentIds : List CellValue)
    (entityId : FilterValue) (principal : Principal) : ReadScope where
  parentIds := parentIds
  principal := principal
  entityId := entityId
  departmentId := departmentOf principal
  departmentRequired := departmentRequired bundle plan

def executeDetailReads (plan : ScopedPlan) (rows : List AnswerRow)
    (recordRefs : List RecordRef) (principal : Option Principal) :
    Except ReadFailure DetailReadOutcome :=
  let selections := plan.plan.detailSelections
  if selections.isEmpty ∨ bundle.detailSources.isEmpty then .ok (.read [] [])
  else
    let parentIds := gatherOwnerIds bundle selections rows recordRefs
    if parentIds.isEmpty then .ok (.read [] [])
    else
      match entityFor principal plan with
      | none => .ok (.denied denyMessage "policy_denied")
      | some entityId =>
        match scopedPrincipal principal plan with
        | none => .error .attributeError
        | some reader =>
          readOutcome plan (readRecordDetailsResult sql contents schema bundle
            (readScope bundle plan parentIds entityId reader) selections)

end Reads

end McpAssistant.BusinessQuery.DetailReads
