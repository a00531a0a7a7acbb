import McpAssistant.BusinessQuery.PlanJson

/-!
# Normalizing a raw plan

A raw plan is rewritten before its fields are validated: filters are brought to
groups and operators to their names, the limit is clamped, neutral groups are
dropped, date filters at the top of the filters move to the period, and a
period keeps one range.
-/

namespace McpAssistant.BusinessQuery.PlanNormalization

open FilterJson PlanJson Foundations.JsonReading

/-- A leaf under another name for its member, or another sign for its operator.
An operator that no set can hold raises a `TypeError`. -/
def normalizeLeaf (raw : Entries) : Reading PlanRule Entries :=
  let entries := renameAlias "member" ["dimension", "field", "name"] raw
  match entries.lookup "operator" with
  | some (.text ">") => .ok (putKey "operator" (.text "gt") entries)
  | some (.text "equals") => .ok (putKey "operator" (.text "eq") entries)
  | some (.text "=") => .ok (putKey "operator" (.text "eq") entries)
  | some json => if json.hashable then .ok entries else .error .escaped
  | none => .ok entries

mutual

def normalizeFilterNode : Json → Reading PlanRule Json
  | .dict entries =>
    if hasKey entries "all" || hasKey entries "any" then
      (normalizeBranches entries).map .dict
    else
      (normalizeLeaf entries).map .dict
  | json => .ok json

/-- The entries of a group, the nodes of its branches normalized. -/
def normalizeBranches : List (String × Json) → Reading PlanRule (List (String × Json))
  | [] => .ok []
  | (key, value) :: rest => do
      let value ←
        if key = "all" ∨ key = "any" then normalizeBranch value else .ok value
      let rest ← normalizeBranches rest
      return (key, value) :: rest

def normalizeBranch : Json → Reading PlanRule Json
  | .list items => (normalizeFilterNodes items).map .list
  | json => .ok json

def normalizeFilterNodes : List Json → Reading PlanRule (List Json)
  | [] => .ok []
  | item :: items => do
      let item ← normalizeFilterNode item
      let items ← normalizeFilterNodes items
      return item :: items

end

def normalizeFilterGroup : Json → Reading PlanRule Json
  | .list items =>
    (normalizeFilterNodes items).map fun items => .dict [("all", .list items)]
  | .dict entries => (normalizeBranches entries).map .dict
  | json => .ok json

def normalizeFilterOperators (key : String) (entries : Entries) : Reading PlanRule Entries :=
  match entries.lookup key with
  | none => .ok entries
  | some .null => .ok entries
  | some group =>
    (normalizeFilterGroup group).map fun normalized =>
      putKey key normalized entries

/-- A bare list of filters is a conjunction. -/
def listAsGroup (key : String) (entries : Entries) : Entries :=
  match entries.lookup key with
  | some (.list items) => putKey key (.dict [("all", .list items)]) entries
  | _ => entries

def dropNeutralGroup (key : String) (entries : Entries) : Entries :=
  match entries.lookup key with
  | some group =>
    if isNeutralGroupNode group then putKey key .null entries else entries
  | none => entries

def minPlanLimit : Int := 1

def maxPlanLimit : Int := 50

def clampLimit (entries : Entries) : Entries :=
  match entries.lookup "limit" with
  | some (.integer limit) =>
    putKey "limit" (.integer (min maxPlanLimit (max minPlanLimit limit))) entries
  | _ => entries

/-- A period that states two bounds drops its other ranges. -/
def collapsePeriod (period : Entries) : Entries :=
  match period.lookup "between" with
  | none => period
  | some .null => period
  | some _ =>
    period.filter fun entry =>
      !(["since", "on", "relative"].contains entry.1) || entry.2.isNull

/-- The period a date filter states. -/
def asPeriod (entry : Entries) : Reading PlanRule (Option Entries) :=
  let member := (entry.lookup "member").getD .null
  match entry.lookup "operator", entry.lookup "values" with
  | some (.text "between"), some (.list [first, last]) =>
    .ok (some [("between", .list [first, last]), ("time_dimension", member)])
  | some (.text "since"), some (.list (first :: _)) =>
    .ok (some [("since", first), ("time_dimension", member)])
  | some (.text "on"), some (.list (first :: _)) =>
    .ok (some [("on", first), ("time_dimension", member)])
  | some operator, some (.list (_ :: _)) =>
    if operator.hashable then .ok none else .error .escaped
  | _, _ => .ok none

def nodeAsPeriod : Json → Reading PlanRule (Option Entries)
  | .dict entry => asPeriod entry
  | _ => .ok none

/-- The nodes of a branch that stay, and the periods of those that do not. -/
def splitDates : List Json → Reading PlanRule (List Json × List Entries)
  | [] => .ok ([], [])
  | item :: items => do
      let candidate ← nodeAsPeriod item
      let (kept, periods) ← splitDates items
      match candidate with
      | none => return (item :: kept, periods)
      | some period => return (kept, period :: periods)

/-- A group without the date filters of one branch, and their periods. -/
def takeBranch (key : String) (group : Entries) : Reading PlanRule (Entries × List Entries) :=
  match group.lookup key with
  | some (.list items) =>
    (splitDates items).map fun parts =>
      (putKey key (.list parts.1) group, parts.2)
  | _ => .ok (group, [])

def takeDateFilters (entries : Entries) : Reading PlanRule (Entries × Option Entries) :=
  match entries.lookup "filters" with
  | some (.dict group) => do
      let (cleaned, conjuncts) ← takeBranch "all" group
      let (cleaned, alternatives) ← takeBranch "any" cleaned
      match conjuncts ++ alternatives with
      | [] => return (entries, none)
      | first :: _ => return (putKey "filters" (.dict cleaned) entries, some first)
  | _ => .ok (entries, none)

def placePeriod (lifted : Option Entries) (entries : Entries) : Entries :=
  match entries.lookup "period", lifted with
  | some (.dict period), _ => putKey "period" (.dict (collapsePeriod period)) entries
  | none, some period => putKey "period" (.dict period) entries
  | some .null, some period => putKey "period" (.dict period) entries
  | _, _ => entries

def collapseCompareTo (entries : Entries) : Entries :=
  match entries.lookup "compare_to" with
  | some (.dict period) =>
    putKey "compare_to" (.dict (collapsePeriod period)) entries
  | _ => entries

def normalizePeriodAndDateFilters (raw : Entries) : Reading PlanRule Entries := do
  let entries ← normalizeFilterOperators "filters" raw
  let entries ← normalizeFilterOperators "having" entries
  let entries := clampLimit entries
  let entries := listAsGroup "having" (listAsGroup "filters" entries)
  let entries := dropNeutralGroup "having" (dropNeutralGroup "filters" entries)
  let (entries, lifted) ← takeDateFilters entries
  let entries :=
    if lifted.isSome then dropNeutralGroup "filters" entries else entries
  return collapseCompareTo (placePeriod lifted entries)

end McpAssistant.BusinessQuery.PlanNormalization
