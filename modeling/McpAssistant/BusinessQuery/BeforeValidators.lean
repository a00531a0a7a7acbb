import McpAssistant.BusinessQuery.PlanValidation
import McpAssistant.Foundations.PythonExceptions

/-!
# The validators that run before the types are checked

Before a plan's fields are read, validators rewrite the raw dictionaries: they rename
fields, drop what is empty and move date filters.  They inspect values of any type, and
every access of theirs may raise an exception.  Those that walk filter trees take frames
of the interpreter's stack on the way down.
-/

namespace McpAssistant.BusinessQuery.BeforeValidators

open FilterJson PlanJson Foundations.JsonReading Foundations.IsoDate
  Foundations.PythonExceptions Foundations.Fallible

/-- A field under the first of its other names, when its own is absent. -/
def takeAlias (field : String) (names : List String) (entries : Entries) : Raising Entries :=
  if hasKey entries field then .ok entries
  else
    match names.find? (hasKey entries) with
    | none => .ok entries
    | some name => do
        let (value, rest) ← pop name entries
        return putKey field value rest

/-- An order clause's member. -/
def aliasMember (data : Entries) : Raising Entries :=
  takeAlias "member" ["measure", "field"] data

/-- A detail selection's family; a bare text is one. -/
def normalizeFamily : Json → Raising Json
  | .text family =>
    .ok (.dict [("family", .text family), ("revision_mode", .text "recorded")])
  | .dict data =>
    (takeAlias "family" ["family_id", "family_key", "name", "key"] data).map .dict
  | data => .ok data

/-- A bound of a period: a date where the text was one. -/
inductive Bound where
  | date (day : Int)
  | raw (value : Json)

def dateFromIsoFormat (value : String) : Raising Int :=
  match fromIsoFormat value with
  | some day => .ok day
  | none => .error .valueError

def parseIsoDate : Json → Raising Bound
  | .text value =>
    match dateFromIsoFormat value with
    | .ok day => .ok (.date day)
    | .error .valueError => .ok (.raw (.text value))
    | .error raised => .error raised
  | value => .ok (.raw value)

def startEndDict (entries : Entries) : Raising Json :=
  if hasKey entries "start" && hasKey entries "end" &&
      entries.all fun entry => ["start", "end"].contains entry.1 then do
    let first ← subscript "start" entries
    let last ← subscript "end" entries
    return .list [first, last]
  else .ok (.dict entries)

def startEndPair : Json → Raising Json
  | .list items =>
    if items.length = 1 then do
      match ← elementAt items 0 with
      | .dict entries => startEndDict entries
      | _ => return .list items
    else .ok (.list items)
  | .dict entries => startEndDict entries
  | value => .ok value

def parseBound : Json → Raising Bound
  | .text value => (dateFromIsoFormat value).map .date
  | value => .ok (.raw value)

/-- The bounds become dates together or stay as they are. -/
def parseBounds (items : List Json) : Raising (List Bound ⊕ Json) :=
  match items.mapM parseBound with
  | .ok bounds => .ok (.inl bounds)
  | .error .valueError => .ok (.inr (.list items))
  | .error raised => .error raised

def acceptStartEndObject (value : Json) : Raising (List Bound ⊕ Json) := do
  match ← startEndPair value with
  | .list items =>
    if items.length = 2 then parseBounds items else return .inr (.list items)
  | value => return .inr value

def singularValueMeansValues (data : Entries) : Raising Entries :=
  if !hasKey data "values" && hasKey data "value" then do
    let (value, rest) ← pop "value" data
    return putKey "values" (.list [value]) rest
  else .ok (eraseKey data "value")

def planFilterBefore (data : Entries) : Raising Entries :=
  singularValueMeansValues
    (match data.lookup "operator" with
      | some (.text ">") => putKey "operator" (.text "gt") data
      | _ => data)

/-- Of two spellings of a field, the one given stands for the other. -/
def alignBefore (first second : String) (data : Entries) : Raising Entries :=
  if !hasKey data first && hasKey data second then do
    let value ← subscript second data
    return putKey first value data
  else if !hasKey data second && hasKey data first then do
    let value ← subscript first data
    return putKey second value data
  else .ok data

def mapOperatorBefore (data : Entries) : Raising Entries := do
  if ← isIn (operatorAliases.map Prod.fst) ((data.lookup "operator").getD .null) then
    let operator ← subscript "operator" data
    let canonical ← subscriptName operatorAliases operator
    return putKey "operator" (.text canonical) data
  else return data

def attributePredicateBefore (data : Entries) : Raising Entries := do
  let data ← alignBefore "family_key" "attribute_key" data
  let data ← alignBefore "revision_hash" "definition_revision" data
  let data ← mapOperatorBefore data
  singularValueMeansValues data

mutual

/-- A group whose branches are absent, empty or themselves neutral. -/
def isNeutralGroupNode : Nat → Json → Raising Bool
  | frames, .dict entries => call frames fun left =>
    if !(hasKey entries "all" || hasKey entries "any") then .ok false
    else if leafKeys.any (hasKey entries) then .ok false
    else do
      if ← ((neutralBranches left entries).lookup "all").getD (.ok true) then
        ((neutralBranches left entries).lookup "any").getD (.ok true)
      else return false
  | frames, _ => call frames fun _ => .ok false

def neutralBranches : Nat → List (String × Json) → List (String × Raising Bool)
  | _, [] => []
  | frames, (key, value) :: rest =>
    (key, isNeutralBranch frames value) :: neutralBranches frames rest

def isNeutralBranch : Nat → Json → Raising Bool
  | _, .null => .ok true
  | frames, .list items => call frames fun left => allNeutral left items
  | _, _ => .ok false

def allNeutral : Nat → List Json → Raising Bool
  | _, [] => .ok true
  | frames, item :: items => do
      if ← isNeutralGroupNode frames item then allNeutral frames items
      else return false

end

def keptNodes (frames : Nat) : List Json → Raising (List Json)
  | [] => .ok []
  | item :: items => do
      let neutral ← isNeutralGroupNode frames item
      let kept ← keptNodes frames items
      return if neutral then kept else item :: kept

/-- A branch that keeps no node is deleted. -/
def dropNeutralBranch (frames : Nat) (key : String) (data : Entries) : Raising Entries :=
  match data.lookup key with
  | some (.list items) => do
      let kept ← call frames fun left => keptNodes left items
      if kept.isEmpty then delete key data
      else return putKey key (.list kept) data
  | _ => .ok data

def dropNeutralBranchesAndNodes (frames : Nat) (data : Entries) : Raising Entries :=
  if !hasKey data "all" && !hasKey data "any" then .error .valueError
  else do
    let data ← dropNeutralBranch frames "all" data
    dropNeutralBranch frames "any" data

def orderedModes : List String := ["pick", "ranked"]

/-- An ordered set's raw plan states its limit; what is no dictionary states none. -/
def validateRawPayload (data : Entries) : Raising Unit := do
  if ← isIn orderedModes ((data.lookup "mode").getD .null) then
    match data.lookup "plan" with
    | some (.dict plan) =>
      match plan.lookup "limit" with
      | some (.integer limit) =>
        if PlanNormalization.minPlanLimit ≤ limit ∧
            limit ≤ PlanNormalization.maxPlanLimit then .ok ()
        else .error .valueError
      | _ => .error .valueError
    | _ => .error .valueError
  else return ()

def normalizeLeaf (data : Entries) : Raising Entries := do
  let data ← takeAlias "member" ["dimension", "field", "name"] data
  match data.lookup "operator" with
  | some (.text ">") => return putKey "operator" (.text "gt") data
  | operator =>
    if ← isIn ["equals", "="] (operator.getD .null) then
      return putKey "operator" (.text "eq") data
    else return data

mutual

def normalizeFilterNode : Nat → Json → Raising Json
  | frames, .dict entries => call frames fun left =>
    if hasKey entries "all" || hasKey entries "any" then
      call left fun inner => (normalizeBranches inner entries).map .dict
    else (normalizeLeaf entries).map .dict
  | frames, node => call frames fun _ => .ok node

/-- The entries of a group, the nodes of its branches normalized. -/
def normalizeBranches : Nat → List (String × Json) → Raising (List (String × Json))
  | _, [] => .ok []
  | frames, (key, value) :: rest => do
      let value ←
        if key = "all" ∨ key = "any" then normalizeBranch frames value else .ok value
      let rest ← normalizeBranches frames rest
      return (key, value) :: rest

def normalizeBranch : Nat → Json → Raising Json
  | frames, .list items => call frames fun left => (normalizeFilterNodes left items).map .list
  | _, json => .ok json

def normalizeFilterNodes : Nat → List Json → Raising (List Json)
  | _, [] => .ok []
  | frames, item :: items => do
      let item ← normalizeFilterNode frames item
      let items ← normalizeFilterNodes frames items
      return item :: items

end

def normalizeFilterGroup (frames : Nat) : Json → Raising Json
  | .list items => call frames fun left => call left fun inner =>
    (normalizeFilterNodes inner items).map fun items => .dict [("all", .list items)]
  | .dict entries => call frames fun left => (normalizeBranches left entries).map .dict
  | group => call frames fun _ => .ok group

def normalizeFilterOperators (frames : Nat) (key : String) (data : Entries) : Raising Entries :=
  match data.lookup key with
  | none => .ok data
  | some .null => .ok data
  | some group =>
    (normalizeFilterGroup frames group).map fun normalized => putKey key normalized data

def dropNeutralGroup (frames : Nat) (key : String) (data : Entries) : Raising Entries :=
  match data.lookup key with
  | some group => do
      if ← isNeutralGroupNode frames group then return putKey key .null data
      else return data
  | none => call frames fun _ => .ok data

/-- The period a date filter states. -/
def asPeriod (entry : Entries) : Raising (Option Entries) :=
  let member := (entry.lookup "member").getD .null
  match entry.lookup "values" with
  | some (.list (value :: rest)) =>
    let values := value :: rest
    match entry.lookup "operator", values.length with
    | some (.text "between"), 2 => do
        let first ← elementAt values 0
        let last ← elementAt values 1
        return some [("between", .list [first, last]), ("time_dimension", member)]
    | operator, _ => do
        if ← isIn ["since", "on"] (operator.getD .null) then
          let first ← elementAt values 0
          match operator with
          | some (.text name) => return some [(name, first), ("time_dimension", member)]
          | _ => return none
        else return none
  | _ => .ok none

def nodeAsPeriod : Json → Raising (Option Entries)
  | .dict entry => asPeriod entry
  | _ => .ok none

/-- The nodes of a branch that stay, and the periods of those that do not. -/
def splitDates : List Json → Raising (List Json × List Entries)
  | [] => .ok ([], [])
  | item :: items => do
      let candidate ← nodeAsPeriod item
      let (kept, periods) ← splitDates items
      match candidate with
      | none => return (item :: kept, periods)
      | some period => return (kept, period :: periods)

def takeBranch (key : String) (group : Entries) : Raising (Entries × List Entries) :=
  match group.lookup key with
  | some (.list items) =>
    (splitDates items).map fun parts =>
      (putKey key (.list parts.1) group, parts.2)
  | _ => .ok (group, [])

def takeDateFilters (data : Entries) : Raising (Entries × Option Entries) :=
  match data.lookup "filters" with
  | some (.dict group) => do
      let (cleaned, conjuncts) ← takeBranch "all" group
      let (cleaned, alternatives) ← takeBranch "any" cleaned
      match conjuncts ++ alternatives with
      | [] => return (data, none)
      | first :: _ => return (putKey "filters" (.dict cleaned) data, some first)
  | _ => .ok (data, none)

def normalizePeriodAndDateFilters (frames : Nat) (raw : Entries) : Raising Entries := do
  let data ← normalizeFilterOperators frames "filters" raw
  let data ← normalizeFilterOperators frames "having" data
  let data := PlanNormalization.clampLimit data
  let data := PlanNormalization.listAsGroup "having" (PlanNormalization.listAsGroup "filters" data)
  let data ← dropNeutralGroup frames "filters" data
  let data ← dropNeutralGroup frames "having" data
  let (data, lifted) ← takeDateFilters data
  let data ← if lifted.isSome then dropNeutralGroup frames "filters" data else .ok data
  return PlanNormalization.collapseCompareTo (PlanNormalization.placePeriod lifted data)

theorem hasKey_iff {entries : Entries} {key : String} :
    hasKey entries key = true ↔ ∃ value, entries.lookup key = some value :=
  Option.isSome_iff_exists

theorem takeAlias_eq (field : String) (names : List String) (data : Entries) :
    takeAlias field names data = .ok (renameAlias field names data) := by
  rw [takeAlias, renameAlias]
  split
  · rfl
  · cases found : names.find? (hasKey data) with
    | none => rfl
    | some name =>
      rcases hasKey_iff.mp (List.find?_some found) with ⟨value, held⟩
      dsimp only
      rw [pop_of_lookup held, held]
      rfl

theorem singularValueMeansValues_eq (data : Entries) :
    singularValueMeansValues data = .ok (singularValue data) := by
  rw [singularValueMeansValues, singularValue, hasKey, hasKey]
  cases values : data.lookup "values" with
  | some held => rfl
  | none =>
    cases value : data.lookup "value" with
    | none => rfl
    | some single =>
      rw [pop_of_lookup value]
      rfl

theorem planFilterBefore_eq (data : Entries) :
    planFilterBefore data = .ok (planFilterEntries data) :=
  singularValueMeansValues_eq _

theorem alignBefore_eq (first second : String) (data : Entries) :
    alignBefore first second data = .ok (alignSpellings first second data) := by
  rw [alignBefore, alignSpellings, hasKey, hasKey]
  cases one : data.lookup first with
  | none =>
    cases other : data.lookup second with
    | none => rfl
    | some value =>
      rw [subscript_of_lookup other]
      rfl
  | some value =>
    cases other : data.lookup second with
    | none =>
      rw [subscript_of_lookup one]
      rfl
    | some held => rfl

theorem startEndDict_eq (entries : Entries) :
    startEndDict entries = .ok (acceptStartEnd.acceptDict entries) := by
  rw [startEndDict, acceptStartEnd.acceptDict, hasKey, hasKey]
  cases first : entries.lookup "start" with
  | none => rfl
  | some start =>
    cases last : entries.lookup "end" with
    | none => rfl
    | some finish =>
      rw [subscript_of_lookup first, subscript_of_lookup last, apply_ite Except.ok]
      rfl

theorem startEndPair_eq (value : Json) : startEndPair value = .ok (acceptStartEnd value) := by
  cases value with
  | list items =>
    rcases items with _ | ⟨item, _ | ⟨other, items⟩⟩
    · rfl
    · cases item with
      | dict entries => exact startEndDict_eq entries
      | _ => rfl
    · rw [startEndPair, if_neg (by simp)]
      cases item with
      | _ => rfl
  | dict entries => exact startEndDict_eq entries
  | _ => rfl

theorem parseBound_failsOnly (value : Json) : FailsOnly (· = .valueError) (parseBound value) := by
  unfold parseBound
  split
  · unfold dateFromIsoFormat
    split
    · exact failsOnly_ok
    · exact failsOnly_error.mpr rfl
  · exact failsOnly_ok

theorem parseBounds_succeeds (items : List Json) : Succeeds (parseBounds items) := by
  have only : FailsOnly (· = .valueError) (items.mapM parseBound) := by
    rw [failsOnly_mapM]
    intro before item after split earlier
    exact parseBound_failsOnly item
  unfold parseBounds
  cases parsed : items.mapM parseBound with
  | ok bounds => exact ⟨_, rfl⟩
  | error raised =>
    rw [parsed, failsOnly_error] at only
    subst only
    exact ⟨_, rfl⟩

theorem acceptStartEndObject_succeeds (value : Json) : Succeeds (acceptStartEndObject value) := by
  rw [acceptStartEndObject, startEndPair_eq]
  cases acceptStartEnd value with
  | list items =>
    show Succeeds (if items.length = 2 then parseBounds items else .ok (.inr (.list items)))
    split
    · exact parseBounds_succeeds items
    · exact ⟨_, rfl⟩
  | _ => exact ⟨_, rfl⟩

theorem parseIsoDate_succeeds (value : Json) : Succeeds (parseIsoDate value) := by
  unfold parseIsoDate
  split
  · unfold dateFromIsoFormat
    cases fromIsoFormat _ with
    | some day => exact ⟨_, rfl⟩
    | none => exact ⟨_, rfl⟩
  · exact ⟨_, rfl⟩

mutual

/-- The lists of nodes around the innermost one. -/
def groupDepth : Json → Nat
  | .dict entries => branchesDepth entries
  | _ => 0

def branchesDepth : List (String × Json) → Nat
  | [] => 0
  | (key, value) :: rest =>
    max (if key = "all" ∨ key = "any" then branchDepth value else 0) (branchesDepth rest)

def branchDepth : Json → Nat
  | .list items => 1 + itemsDepth items
  | _ => 0

def itemsDepth : List Json → Nat
  | [] => 0
  | item :: items => max (groupDepth item) (itemsDepth items)

end

inductive Agrees (deep : Prop) {Value : Type} : Raising Value → Reading PlanRule Value → Prop
  | returned (value : Value) : Agrees deep (.ok value) (.ok value)
  | escaped : Agrees deep (.error .typeError) (.error .escaped)
  | overflow (reading : Reading PlanRule Value) (tooDeep : deep) :
      Agrees deep (.error .recursionError) reading

section Agreement

variable {Value Result : Type} {deep : Prop}

theorem agrees_ok (value : Value) : Agrees deep (.ok value) (.ok value) := .returned value

variable {run : Raising Value} {reading : Reading PlanRule Value}
  {next : Value → Raising Result} {nextReading : Value → Reading PlanRule Result}

theorem Agrees.bind_ok (first : Agrees deep run reading)
    (rest : ∀ value, reading = .ok value → Agrees deep (next value) (nextReading value)) :
    Agrees deep (run >>= next) (reading >>= nextReading) := by
  cases first with
  | returned value => exact rest value rfl
  | escaped => exact .escaped
  | overflow reading tooDeep => exact .overflow _ tooDeep

theorem Agrees.bind (first : Agrees deep run reading)
    (rest : ∀ value, Agrees deep (next value) (nextReading value)) :
    Agrees deep (run >>= next) (reading >>= nextReading) :=
  first.bind_ok fun value _ => rest value

theorem Agrees.followed {value : Value} {reading : Reading PlanRule Result}
    (first : Agrees deep run (.ok value)) (rest : Agrees deep (next value) reading) :
    Agrees deep (run >>= next) reading := by
  cases first with
  | returned value => exact rest
  | overflow reading tooDeep => exact .overflow _ tooDeep

theorem Agrees.map (agrees : Agrees deep run reading) (next : Value → Result) :
    Agrees deep (run.map next) (reading.map next) := by
  cases agrees with
  | returned value => exact .returned (next value)
  | escaped => exact .escaped
  | overflow reading tooDeep => exact .overflow _ tooDeep

theorem Agrees.imp {other : Prop}
    (agrees : Agrees deep run reading) (still : deep → other) : Agrees other run reading := by
  cases agrees with
  | returned value => exact .returned value
  | escaped => exact .escaped
  | overflow reading tooDeep => exact .overflow reading (still tooDeep)

theorem agrees_call {frames : Nat} {body : Nat → Raising Value} (empty : frames = 0 → deep)
    (agrees : ∀ left, frames = left + 1 → Agrees deep (body left) reading) :
    Agrees deep (call frames body) reading := by
  cases frames with
  | zero => exact .overflow reading (empty rfl)
  | succ left => exact agrees left rfl

theorem agrees_and {first second : Raising Bool} {left right : Bool}
    (one : Agrees deep first (.ok left)) (other : Agrees deep second (.ok right)) :
    Agrees deep (do if ← first then second else return false) (.ok (left && right)) := by
  cases one with
  | returned left =>
    cases left with
    | true => exact other
    | false => exact .returned false
  | overflow reading tooDeep => exact .overflow _ tooDeep

end Agreement

section Leaves

variable {deep : Prop}

theorem mapOperatorBefore_agrees (data : Entries) :
    Agrees deep (mapOperatorBefore data) (mapOperator data) := by
  rw [mapOperatorBefore, mapOperator]
  cases held : data.lookup "operator" with
  | none => exact agrees_ok data
  | some operator =>
    cases operator with
    | text name =>
      dsimp only [Option.getD_some, isIn]
      rw [contains_keys, subscript_of_lookup held]
      cases found : operatorAliases.lookup name with
      | none => exact agrees_ok data
      | some canonical =>
        show Agrees deep (subscriptName operatorAliases (.text name) >>= _) _
        rw [subscriptName, found]
        exact agrees_ok _
    | list items => exact .escaped
    | dict entries => exact .escaped
    | _ => exact agrees_ok data

theorem attributePredicateBefore_agrees (data : Entries) :
    Agrees deep (attributePredicateBefore data) (predicateEntries data) := by
  rw [attributePredicateBefore, alignBefore_eq, predicateEntries]
  show Agrees deep (alignBefore "revision_hash" "definition_revision" _ >>= _) _
  rw [alignBefore_eq]
  have singular : singularValueMeansValues = fun entries => .ok (singularValue entries) :=
    funext singularValueMeansValues_eq
  show Agrees deep (mapOperatorBefore _ >>= singularValueMeansValues) _
  rw [singular]
  exact (mapOperatorBefore_agrees _).map singularValue

theorem normalizeLeaf_agrees (data : Entries) :
    Agrees deep (normalizeLeaf data) (PlanNormalization.normalizeLeaf data) := by
  rw [normalizeLeaf, takeAlias_eq, PlanNormalization.normalizeLeaf]
  generalize renameAlias "member" ["dimension", "field", "name"] data = entries
  dsimp only [bind, Except.bind]
  cases held : entries.lookup "operator" with
  | none => exact agrees_ok entries
  | some operator =>
    cases operator with
    | text name =>
      by_cases more : name = ">"
      · subst more
        exact agrees_ok _
      by_cases equals : name = "equals"
      · subst equals
        exact agrees_ok _
      by_cases sign : name = "="
      · subst sign
        exact agrees_ok _
      have other : isIn ["equals", "="] (.text name) = .ok false := by
        simp [isIn, equals, sign]
      split
      next same => exact absurd (Json.text.inj (Option.some.inj same)) more
      next =>
        rw [Option.getD_some, other]
        show Agrees deep (.ok entries) _
        split
        next same => exact absurd (Json.text.inj (Option.some.inj same)) more
        next same => exact absurd (Json.text.inj (Option.some.inj same)) equals
        next same => exact absurd (Json.text.inj (Option.some.inj same)) sign
        next json isText =>
          cases isText
          exact agrees_ok entries
        next missing => cases missing
    | list items => exact .escaped
    | dict items => exact .escaped
    | _ => exact agrees_ok entries

end Leaves

mutual

theorem isNeutralGroupNode_agrees : ∀ (node : Json) (frames : Nat),
    Agrees (frames < 2 * groupDepth node + 1) (isNeutralGroupNode frames node)
      (.ok (FilterJson.isNeutralGroupNode node))
  | .dict entries, frames => by
      rw [isNeutralGroupNode, groupDepth, FilterJson.isNeutralGroupNode]
      apply agrees_call (by omega)
      rintro left rfl
      cases hasKey entries "all" || hasKey entries "any" with
      | false => exact agrees_ok false
      | true =>
        cases leafKeys.any (hasKey entries) with
        | true => exact agrees_ok false
        | false =>
          rw [Bool.true_and, Bool.not_false, Bool.true_and]
          exact agrees_and ((lookup_neutralBranches entries left (.inl rfl)).imp (by omega))
            ((lookup_neutralBranches entries left (.inr rfl)).imp (by omega))
  | .null, 0 | .boolean _, 0 | .integer _, 0 | .float _ _, 0 | .text _, 0 | .list _, 0 =>
    .overflow _ (Nat.succ_pos _)
  | .null, _ + 1 | .boolean _, _ + 1 | .integer _, _ + 1 | .float _ _, _ + 1
  | .text _, _ + 1 | .list _, _ + 1 => agrees_ok false

theorem lookup_neutralBranches : ∀ (entries : List (String × Json)) (frames : Nat)
    {key : String}, key = "all" ∨ key = "any" →
      Agrees (frames < 2 * branchesDepth entries)
        (((neutralBranches frames entries).lookup key).getD (.ok true))
        (.ok (((FilterJson.neutralBranches entries).lookup key).getD true))
  | [], _, _, _ => agrees_ok true
  | (name, value) :: rest, frames, key, branch => by
      rw [branchesDepth, neutralBranches, FilterJson.neutralBranches, List.lookup_cons,
        List.lookup_cons]
      cases same : key == name with
      | false => exact (lookup_neutralBranches rest frames branch).imp (by omega)
      | true =>
        cases beq_iff_eq.mp same
        rw [if_pos branch]
        exact (isNeutralBranch_agrees value frames).imp (by omega)

theorem isNeutralBranch_agrees : ∀ (value : Json) (frames : Nat),
    Agrees (frames < 2 * branchDepth value) (isNeutralBranch frames value)
      (.ok (FilterJson.isNeutralBranch value))
  | .list items, frames => by
      rw [isNeutralBranch, branchDepth, FilterJson.isNeutralBranch]
      apply agrees_call (by omega)
      rintro left rfl
      exact (allNeutral_agrees items left).imp (by omega)
  | .null, _ => agrees_ok true
  | .boolean _, _ | .integer _, _ | .float _ _, _ | .text _, _ | .dict _, _ =>
    agrees_ok false

theorem allNeutral_agrees : ∀ (items : List Json) (frames : Nat),
    Agrees (frames < 2 * itemsDepth items + 1) (allNeutral frames items)
      (.ok (FilterJson.allNeutral items))
  | [], _ => agrees_ok true
  | item :: items, frames => by
      rw [allNeutral, itemsDepth, FilterJson.allNeutral]
      exact agrees_and ((isNeutralGroupNode_agrees item frames).imp (by omega))
        ((allNeutral_agrees items frames).imp (by omega))

end

mutual

theorem normalizeFilterNode_agrees : ∀ (node : Json) (frames : Nat),
    Agrees (frames < 3 * groupDepth node + 2) (normalizeFilterNode frames node)
      (PlanNormalization.normalizeFilterNode node)
  | .dict entries, frames => by
      rw [normalizeFilterNode, groupDepth, PlanNormalization.normalizeFilterNode]
      apply agrees_call (by omega)
      rintro left rfl
      cases hasKey entries "all" || hasKey entries "any" with
      | false => exact (normalizeLeaf_agrees entries).map Json.dict
      | true =>
        apply agrees_call (by omega)
        rintro inner rfl
        exact ((normalizeBranches_agrees entries inner).imp (by omega)).map Json.dict
  | .null, 0 | .boolean _, 0 | .integer _, 0 | .float _ _, 0 | .text _, 0 | .list _, 0 =>
    .overflow _ (Nat.succ_pos _)
  | .null, _ + 1 | .boolean _, _ + 1 | .integer _, _ + 1 | .float _ _, _ + 1
  | .text _, _ + 1 | .list _, _ + 1 => agrees_ok _

theorem normalizeBranches_agrees : ∀ (entries : List (String × Json)) (frames : Nat),
    Agrees (frames < 3 * branchesDepth entries) (normalizeBranches frames entries)
      (PlanNormalization.normalizeBranches entries)
  | [], _ => agrees_ok []
  | (key, value) :: rest, frames => by
      rw [normalizeBranches, branchesDepth, PlanNormalization.normalizeBranches]
      have others := normalizeBranches_agrees rest frames
      split
      next branch =>
        apply ((normalizeBranch_agrees value frames).imp (by omega)).bind
        intro value
        apply (others.imp (by omega)).bind
        intro rest
        exact agrees_ok _
      next =>
        apply (others.imp (by omega)).bind
        intro rest
        exact agrees_ok _

theorem normalizeBranch_agrees : ∀ (value : Json) (frames : Nat),
    Agrees (frames < 3 * branchDepth value) (normalizeBranch frames value)
      (PlanNormalization.normalizeBranch value)
  | .list items, frames => by
      rw [normalizeBranch, branchDepth, PlanNormalization.normalizeBranch]
      apply agrees_call (by omega)
      rintro left rfl
      exact ((normalizeFilterNodes_agrees items left).imp (by omega)).map Json.list
  | .null, _ | .boolean _, _ | .integer _, _ | .float _ _, _ | .text _, _ | .dict _, _ =>
    agrees_ok _

theorem normalizeFilterNodes_agrees : ∀ (items : List Json) (frames : Nat),
    Agrees (frames < 3 * itemsDepth items + 2) (normalizeFilterNodes frames items)
      (PlanNormalization.normalizeFilterNodes items)
  | [], _ => agrees_ok []
  | item :: items, frames => by
      rw [normalizeFilterNodes, itemsDepth, PlanNormalization.normalizeFilterNodes]
      apply ((normalizeFilterNode_agrees item frames).imp (by omega)).bind
      intro item
      apply ((normalizeFilterNodes_agrees items frames).imp (by omega)).bind
      intro items
      exact agrees_ok _

end

end McpAssistant.BusinessQuery.BeforeValidators
