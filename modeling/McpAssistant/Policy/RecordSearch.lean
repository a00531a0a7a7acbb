import McpAssistant.BusinessQuery.FilterEvaluation
import McpAssistant.Foundations.Dictionaries
import McpAssistant.Foundations.Fallible
import McpAssistant.Foundations.IsoDate
import McpAssistant.Foundations.LikePatterns

/-!
# Searching records

A search reads the records of a resource that lie in the principal's scope, pass the
filters of the caller and hold a text.  The caller supplies values; which columns are
compared, and with what the scope binds them, comes from the manifest and the principal.
-/

namespace McpAssistant.Policy.RecordSearch

open BusinessQuery.Definitions (ScopeColumns DepartmentScopeMode)
open BusinessQuery.FilterEvaluation
open Foundations.Dictionaries Foundations.Fallible Foundations.LikePatterns
open Foundations.IsoDate (fromIsoFormat isoFormat fromIsoFormat_isoFormat inRange_of_fromIsoFormat)

inductive FilterOperator
  | eq
  | gt
  | gte
  | lt
  | lte
deriving DecidableEq

inductive FilterType
  | int
  | string
  | datetime
deriving DecidableEq

structure ManifestFilterSpec where
  field : String
  operators : List FilterOperator := [.eq]
  type : FilterType

structure ManifestResource where
  canonicalLinkKey : String
  departmentScopeMode : Option DepartmentScopeMode
  fieldSetFields : List (String × List String)
  fieldSets : List String
  filters : List ManifestFilterSpec
  projectionName : String
  readableFields : List String
  recordPredicates : List (String × String)
  scopeColumns : ScopeColumns

structure ResourceGrant where
  actions : List String
  fieldSets : List String

structure Principal where
  entityId : Int
  crossEntity : Option Bool := none
  departmentId : Option Int := none
  resources : List (String × ResourceGrant)

/-! ## The query -/

inductive ClauseValue
  | int (value : Int)
  | text (value : String)
deriving DecidableEq

structure FilterClause where
  field : String
  operator : FilterOperator := .eq
  value : ClauseValue
deriving DecidableEq

/-- A value bound to a statement; a moment is a business-local instant. -/
inductive BoundValue
  | int (value : Int)
  | text (value : String)
  | moment (value : Int)
deriving DecidableEq

/-- How a text is read as a moment of the business timezone, and how a moment is
written; what is written reads as itself. -/
structure BusinessClock where
  normalize : String → Option Int
  isoFormat : Int → String
  reread : ∀ text moment, normalize text = some moment → normalize (isoFormat moment) = some moment

inductive Predicate
  | compare (field : String) (operator : FilterOperator) (value : BoundValue)
  | anyLike (fields : List String) (pattern : List Char)

structure SearchStatement where
  table : String
  columns : List String
  predicates : List Predicate
  limit : Nat

/-- A refusal, which names no reason. -/
inductive RecordAccessDenied
  | denied
deriving DecidableEq

def maxRows : Int := 50

def maxFilterClauses : Nat := 8

def backslash : Escape where
  letter := '\\'

def orDeny {Found : Type} (found : Option Found) : Except RecordAccessDenied Found :=
  match found with
  | some value => .ok value
  | none => .error .denied

def require (holds : Bool) : Except RecordAccessDenied Unit :=
  if holds then .ok () else .error .denied

section Clauses

variable (clock : BusinessClock)

/-- The value of a clause as the clauses are checked: a datetime is written anew. -/
def normalizedClause (datetimeFields : List String) (clause : FilterClause) :
    Except RecordAccessDenied FilterClause :=
  if datetimeFields.contains clause.field then
    match clause.value with
    | .int _ => .error .denied
    | .text text => do
        let moment ← orDeny (clock.normalize text)
        pure { clause with value := .text (clock.isoFormat moment) }
  else .ok clause

def momentOf (clause : FilterClause) : Option Int :=
  match clause.value with
  | .int _ => none
  | .text text => clock.normalize text

/-- The bounds of one datetime field: an equality stands alone, and there is at most one
bound on each side, the lower before the upper. -/
def boundsAgree (clauses : List FilterClause) : Bool :=
  let lower := clauses.filter fun clause => clause.operator = .gt ∨ clause.operator = .gte
  let upper := clauses.filter fun clause => clause.operator = .lt ∨ clause.operator = .lte
  (!(clauses.any fun clause => clause.operator = .eq) ||
    clauses.all fun clause => clause.operator = .eq) &&
  lower.length ≤ 1 && upper.length ≤ 1 &&
  match lower, upper with
  | first :: _, last :: _ =>
    match momentOf clock first, momentOf clock last with
    | some start, some finish => start < finish
    | _, _ => false
  | _, _ => true

def validateCanonicalFilterClauses (clauses : List FilterClause)
    (datetimeFields : List String) : Except RecordAccessDenied (List FilterClause) := do
  require (clauses.length ≤ maxFilterClauses)
  require ((clauses.map fun clause => (clause.field, clause.operator)).Nodup)
  let normalized ← clauses.mapM (normalizedClause clock datetimeFields)
  require (datetimeFields.all fun field =>
    boundsAgree clock (normalized.filter fun clause => clause.field = field))
  pure normalized

end Clauses

section Executor

variable (clock : BusinessClock) (filterSchemaV2 : Bool) (principal : Principal)
  (resource : ManifestResource)

def entityPredicates : Except RecordAccessDenied (List Predicate) :=
  if principal.crossEntity = some true then .ok []
  else (orDeny resource.scopeColumns.entity).map fun column =>
    [.compare column .eq (.int principal.entityId)]

def departmentPredicates : Except RecordAccessDenied (List Predicate) :=
  match resource.scopeColumns.department with
  | none => .ok []
  | some column =>
    match resource.departmentScopeMode, principal.departmentId with
    | none, _ => .error .denied
    | some .none, _ => .ok []
    | some .requiredMatch, none => .error .denied
    | _, none => .ok []
    | _, some departmentId => .ok [.compare column .eq (.int departmentId)]

def scopePredicates : Except RecordAccessDenied (List Predicate) := do
  let entity ← entityPredicates principal resource
  let department ← departmentPredicates principal resource
  pure (entity ++ department ++ resource.recordPredicates.map fun pinned =>
    .compare pinned.1 .eq (.text pinned.2))

def reservedColumns : List String :=
  resource.scopeColumns.entity.toList ++ resource.scopeColumns.department.toList ++
    resource.recordPredicates.map Prod.fst

def userFilterFields : List (String × ManifestFilterSpec) :=
  ofPairs ((resource.filters.filter fun spec =>
    !(reservedColumns resource).contains spec.field).map fun spec => (spec.field, spec))

def boundFilterValue (declaredType : FilterType) (value : ClauseValue) :
    Except RecordAccessDenied BoundValue :=
  match declaredType, value with
  | .int, .int number => .ok (.int number)
  | .string, .text text => .ok (.text text)
  | .datetime, .text text => (orDeny (clock.normalize text)).map .moment
  | _, _ => .error .denied

def bindUserFilter (clause : FilterClause) : Except RecordAccessDenied Predicate := do
  let spec ← orDeny (lookup (userFilterFields resource) clause.field)
  require (spec.operators.contains clause.operator)
  require (clause.operator = .eq || filterSchemaV2)
  let value ← boundFilterValue clock spec.type clause.value
  pure (.compare clause.field clause.operator value)

def datetimeFields : List String :=
  ((userFilterFields resource).filter fun entry => entry.2.type = .datetime).map Prod.fst

def bindUserFilters (filters : List FilterClause) : Except RecordAccessDenied (List Predicate) := do
  let clauses ← validateCanonicalFilterClauses clock filters (datetimeFields resource)
  clauses.mapM (bindUserFilter clock filterSchemaV2 resource)

def searchableFields : List String :=
  resource.readableFields.filter fun field => field ≠ resource.canonicalLinkKey

def searchPattern (query : String) : List Char :=
  '%' :: (escapeLike backslash query.toList ++ ['%'])

/-- At least one row, at most fifty. -/
def boundedLimit (limit : Int) : Nat :=
  (max 1 (min limit maxRows)).toNat

def resourceFor (manifest : List (String × ManifestResource)) (resourceType fieldSet : String) :
    Except RecordAccessDenied ManifestResource := do
  let resource ← orDeny (lookup manifest resourceType)
  let grant ← orDeny (lookup principal.resources resourceType)
  require (grant.actions.contains "search")
  require (resource.fieldSets.contains fieldSet && grant.fieldSets.contains fieldSet)
  pure resource

def searchStatement (query : String) (filters : List FilterClause) (fieldSet : String)
    (limit : Int) : Except RecordAccessDenied (Option SearchStatement) := do
  let scope ← scopePredicates principal resource
  let own ← bindUserFilters clock filterSchemaV2 resource filters
  let statement (predicates : List Predicate) : SearchStatement := {
    table := resource.projectionName
    columns := (lookup resource.fieldSetFields fieldSet).getD []
    predicates
    limit := boundedLimit limit }
  if query = "" then pure (some (statement (scope ++ own)))
  else if searchableFields resource = [] then pure none
  else pure (some (statement (scope ++ own ++
    [.anyLike (searchableFields resource) (searchPattern query)])))

def search (manifest : List (String × ManifestResource)) (resourceType query : String)
    (filters : List FilterClause) (fieldSet : String) (limit : Int) :
    Except RecordAccessDenied (Option SearchStatement) := do
  let resource ← resourceFor principal manifest resourceType fieldSet
  searchStatement clock filterSchemaV2 principal resource query filters fieldSet limit

end Executor

/-- A column as its database reads it: the order of its values, what a bound value is
among them, how LIKE spells a value and which letters it takes for one. -/
structure RecordColumn where
  Key : Type
  order : LinearOrder Key
  rank : BoundValue → Key
  letters : Key → List Char
  same : Char → Char → Bool

instance (column : RecordColumn) : LinearOrder column.Key :=
  column.order

/-- The columns of a projection, by name. -/
abbrev Columns := String → RecordColumn

/-- A row, null being `none`. -/
abbrev Row (columns : Columns) := (name : String) → Option (columns name).Key

section Reading

variable {columns : Columns}

def compare (row : Row columns) (field : String) (operator : FilterOperator)
    (value : BoundValue) : Truth :=
  (row field).map fun found =>
    match operator with
    | .eq => decide (found = (columns field).rank value)
    | .gt => decide ((columns field).rank value < found)
    | .gte => decide ((columns field).rank value ≤ found)
    | .lt => decide (found < (columns field).rank value)
    | .lte => decide (found ≤ (columns field).rank value)

def like (row : Row columns) (pattern : List Char) (field : String) : Truth :=
  (row field).map fun found =>
    likeMatches (columns field).same backslash pattern ((columns field).letters found)

def Predicate.truth (row : Row columns) : Predicate → Truth
  | .compare field operator value => RecordSearch.compare row field operator value
  | .anyLike fields pattern => disjunction (fields.map (like row pattern))

def SearchStatement.passes (statement : SearchStatement) (row : Row columns) : Bool :=
  conjunction (statement.predicates.map (Predicate.truth row)) = some true

/-- What a database may return: as many of the passing rows, in some order. -/
def SearchStatement.Returns (statement : SearchStatement) (rows result : List (Row columns)) :
    Prop :=
  ∃ ordered : List (Row columns), ordered.Perm (rows.filter statement.passes) ∧
    result = ordered.take statement.limit

end Reading

section Asking

variable {columns : Columns} (clock : BusinessClock) (principal : Principal)
  (resource : ManifestResource)

def Has (row : Row columns) (field : String) (value : BoundValue) : Prop :=
  row field = some ((columns field).rank value)

/-- A row in the principal's scope: of the entity, unless every entity may be seen, of
the department where one is bound, and with the pinned values. -/
structure InScope (row : Row columns) : Prop where
  entity : principal.crossEntity ≠ some true → ∃ column,
    resource.scopeColumns.entity = some column ∧ Has row column (.int principal.entityId)
  department : ∀ column departmentId, resource.scopeColumns.department = some column →
    resource.departmentScopeMode ≠ some .none → principal.departmentId = some departmentId →
      Has row column (.int departmentId)
  pinned : ∀ pinned ∈ resource.recordPredicates, Has row pinned.1 (.text pinned.2)

/-- The value a clause compares with, by the type its field is declared with. -/
def clauseValue (clause : FilterClause) : BoundValue :=
  match clause.value with
  | .int value => .int value
  | .text text =>
    if (datetimeFields resource).contains clause.field then
      .moment ((clock.normalize text).getD 0)
    else .text text

def Passes (row : Row columns) (clause : FilterClause) : Prop :=
  compare row clause.field clause.operator (clauseValue clock resource clause) = some true

def Holds (row : Row columns) (query : String) : Prop :=
  ∃ field ∈ searchableFields resource, ∃ found, row field = some found ∧
    Occurs (columns field).same query.toList ((columns field).letters found)

structure Asked (query : String) (filters : List FilterClause) (row : Row columns) : Prop where
  scope : InScope principal resource row
  filters : ∀ clause ∈ filters, Passes clock resource row clause
  text : query ≠ "" → Holds resource row query

noncomputable def askedRows (query : String) (filters : List FilterClause)
    (rows : List (Row columns)) : List (Row columns) := by
  classical
  exact rows.filter fun row => Asked clock principal resource query filters row

end Asking

section Proofs

variable {columns : Columns} {clock : BusinessClock} {filterSchemaV2 : Bool}
  {principal : Principal} {resource : ManifestResource} {row : Row columns}

theorem orDeny_eq_ok {Found : Type} {found : Option Found} {value : Found} :
    orDeny found = .ok value ↔ found = some value := by
  cases found with
  | none => exact iff_of_false nofun nofun
  | some other =>
    constructor
    · rintro ⟨⟩
      rfl
    · rintro ⟨⟩
      rfl

variable {field : String} {value : BoundValue}

theorem compare_eq : compare row field .eq value = some true ↔ Has row field value := by
  rw [compare, Has, Option.map_eq_some_iff]
  constructor
  · rintro ⟨found, isFound, same⟩
    rw [isFound, of_decide_eq_true same]
  · intro isValue
    exact ⟨_, isValue, decide_eq_true rfl⟩

theorem truth_compare :
    Predicate.truth row (.compare field .eq value) = some true ↔ Has row field value :=
  compare_eq

variable {predicates : List Predicate}

theorem entityPredicates_iff (bound : entityPredicates principal resource = .ok predicates) :
    (∀ predicate ∈ predicates, predicate.truth row = some true) ↔
      (principal.crossEntity ≠ some true → ∃ column, resource.scopeColumns.entity = some column ∧
          Has row column (.int principal.entityId)) := by
  rw [entityPredicates] at bound
  split at bound
  · rename_i crosses
    cases bound
    exact iff_of_true (List.forall_mem_nil _) fun bounded => absurd crosses bounded
  · rename_i bounded
    rcases map_eq_ok.mp bound with ⟨column, isColumn, rfl⟩
    rw [orDeny_eq_ok] at isColumn
    rw [List.forall_mem_singleton, truth_compare, isColumn]
    constructor
    · intro has _
      exact ⟨column, rfl, has⟩
    · intro has
      rcases has bounded with ⟨_, ⟨⟩, has⟩
      exact has

theorem departmentPredicates_iff
    (bound : departmentPredicates principal resource = .ok predicates) :
    (∀ predicate ∈ predicates, predicate.truth row = some true) ↔
      ∀ column departmentId, resource.scopeColumns.department = some column →
        resource.departmentScopeMode ≠ some .none →
          principal.departmentId = some departmentId → Has row column (.int departmentId) := by
  rw [departmentPredicates] at bound
  rcases isColumn : resource.scopeColumns.department with _ | column
  · rw [isColumn] at bound
    cases bound
    exact iff_of_true (List.forall_mem_nil _) nofun
  · rw [isColumn] at bound
    rcases isMode : resource.departmentScopeMode with _ | mode
    · rw [isMode] at bound
      cases bound
    · rcases isDepartment : principal.departmentId with _ | departmentId
      · apply iff_of_true _ nofun
        rw [isMode, isDepartment] at bound
        cases mode <;> cases bound <;> exact List.forall_mem_nil _
      · rw [isMode, isDepartment] at bound
        cases mode with
        | none =>
          cases bound
          exact iff_of_true (List.forall_mem_nil _) fun _ _ _ bounded => absurd rfl bounded
        | filterWhenPresent | requiredMatch =>
          cases bound
          rw [List.forall_mem_singleton, truth_compare]
          constructor
          · rintro has _ _ ⟨⟩ _ ⟨⟩
            exact has
          · intro has
            exact has column departmentId rfl nofun rfl

theorem scopePredicates_iff (bound : scopePredicates principal resource = .ok predicates) :
    (∀ predicate ∈ predicates, predicate.truth row = some true) ↔
      InScope principal resource row := by
  simp only [scopePredicates, bind_eq_ok, pure_eq_ok] at bound
  rcases bound with ⟨entity, isEntity, department, isDepartment, rfl⟩
  rw [List.forall_mem_append, List.forall_mem_append, entityPredicates_iff isEntity,
    departmentPredicates_iff isDepartment, List.forall_mem_map]
  constructor
  · rintro ⟨⟨entity, department⟩, pinned⟩
    exact ⟨entity, department, fun entry listed => truth_compare.mp (pinned entry listed)⟩
  · intro visible
    exact ⟨⟨visible.entity, visible.department⟩,
      fun entry listed => truth_compare.mpr (visible.pinned entry listed)⟩

theorem lookup_of_mem {Value : Type} {entries : List (String × Value)}
    (distinct : (entries.map Prod.fst).Nodup) {entry : String × Value}
    (member : entry ∈ entries) : lookup entries entry.1 = some entry.2 := by
  rw [lookup]
  rcases found : entries.find? fun other => other.1 = entry.1 with _ | other
  · have none := List.find?_eq_none.mp found entry member
    exact absurd (decide_eq_true rfl) none
  · have fits := List.find?_some found
    have isKey := of_decide_eq_true fits
    have same := List.inj_on_of_nodup_map distinct (List.mem_of_find?_eq_some found) member isKey
    rw [found, same]
    rfl

variable {spec : ManifestFilterSpec}

theorem contains_datetimeFields (isSpec : lookup (userFilterFields resource) field = some spec) :
    (datetimeFields resource).contains field = true ↔ spec.type = .datetime := by
  rw [List.contains_iff_mem, datetimeFields, List.mem_map]
  constructor
  · rintro ⟨entry, listed, rfl⟩
    rcases List.mem_filter.mp listed with ⟨member, isDatetime⟩
    have distinct : ((userFilterFields resource).map Prod.fst).Nodup := nodup_keys_ofPairs _
    rw [lookup_of_mem distinct member] at isSpec
    cases isSpec
    exact of_decide_eq_true isDatetime
  · intro isDatetime
    exact ⟨(field, spec),
      List.mem_filter.mpr ⟨mem_of_lookup isSpec, decide_eq_true isDatetime⟩, rfl⟩

theorem notReserved_of_lookup (isSpec : lookup (userFilterFields resource) field = some spec) :
    field ∉ reservedColumns resource := by
  have listed := mem_of_mem_ofPairs (mem_of_lookup isSpec)
  rcases List.mem_map.mp listed with ⟨found, kept, same⟩
  have free := (List.mem_filter.mp kept).2
  cases same
  rw [Bool.not_eq_true', ← Bool.not_eq_true, List.contains_iff_mem] at free
  exact free

theorem bindUserFilter_normalized {clause normalized : FilterClause} {predicate : Predicate}
    (isNormalized : normalizedClause clock (datetimeFields resource) clause = .ok normalized)
    (bound : bindUserFilter clock filterSchemaV2 resource normalized = .ok predicate) :
    predicate = .compare clause.field clause.operator (clauseValue clock resource clause) ∧
      clause.field ∉ reservedColumns resource := by
  simp only [bindUserFilter, bind_eq_ok, pure_eq_ok, orDeny_eq_ok] at bound
  rcases bound with ⟨spec, isSpec, _, _, _, _, value, isValue, rfl⟩
  rw [normalizedClause] at isNormalized
  rcases clause with ⟨field, operator, given⟩
  by_cases isDatetime : (datetimeFields resource).contains field = true
  · rw [if_pos isDatetime] at isNormalized
    rcases given with number | text
    · cases isNormalized
    · simp only [bind_eq_ok, pure_eq_ok, orDeny_eq_ok] at isNormalized
      rcases isNormalized with ⟨moment, isMoment, rfl⟩
      have typed := (contains_datetimeFields isSpec).mp isDatetime
      rw [typed] at isValue
      rcases map_eq_ok.mp isValue with ⟨again, reread, rfl⟩
      rw [orDeny_eq_ok, clock.reread text moment isMoment] at reread
      cases reread
      refine ⟨?_, notReserved_of_lookup isSpec⟩
      simp only [clauseValue, isDatetime, if_true, isMoment, Option.getD_some]
  · rw [if_neg isDatetime] at isNormalized
    cases isNormalized
    have typed : spec.type ≠ .datetime := by
      intro other
      exact isDatetime ((contains_datetimeFields isSpec).mpr other)
    refine ⟨?_, notReserved_of_lookup isSpec⟩
    rcases type : spec.type with _ | _ | _
    · rw [type] at isValue
      rcases given with number | text
      · cases isValue
        rfl
      · cases isValue
    · rw [type] at isValue
      rcases given with number | text
      · cases isValue
      · cases isValue
        simp only [clauseValue, isDatetime, if_false, Bool.false_eq_true]
    · exact absurd type typed

variable {filters : List FilterClause}

theorem normalized_of_validate {clauses : List FilterClause} {fields : List String}
    (valid : validateCanonicalFilterClauses clock filters fields = .ok clauses) :
    filters.mapM (normalizedClause clock fields) = .ok clauses := by
  simp only [validateCanonicalFilterClauses, bind_eq_ok, pure_eq_ok] at valid
  rcases valid with ⟨_, _, _, _, normalized, isNormalized, _, _, rfl⟩
  exact isNormalized

theorem bindUserFilters_spec
    (bound : bindUserFilters clock filterSchemaV2 resource filters = .ok predicates) :
    (∀ clause ∈ filters, clause.field ∉ reservedColumns resource ∧
      .compare clause.field clause.operator (clauseValue clock resource clause) ∈ predicates) ∧
    ∀ predicate ∈ predicates, ∃ clause ∈ filters, predicate =
      .compare clause.field clause.operator (clauseValue clock resource clause) := by
  rcases bind_eq_ok.mp bound with ⟨clauses, valid, ran⟩
  rcases mapM_eq_ok (normalized_of_validate valid) with ⟨normal, origin⟩
  rcases mapM_eq_ok ran with ⟨binds, source⟩
  constructor
  · intro clause listed
    rcases normal clause listed with ⟨normalized, inClauses, isNormalized⟩
    rcases binds normalized inClauses with ⟨predicate, inPredicates, isPredicate⟩
    rcases bindUserFilter_normalized isNormalized isPredicate with ⟨rfl, free⟩
    exact ⟨free, inPredicates⟩
  · intro predicate inPredicates
    rcases source predicate inPredicates with ⟨normalized, inClauses, isPredicate⟩
    rcases origin normalized inClauses with ⟨clause, listed, isNormalized⟩
    exact ⟨clause, listed, (bindUserFilter_normalized isNormalized isPredicate).1⟩

theorem bindUserFilters_iff
    (bound : bindUserFilters clock filterSchemaV2 resource filters = .ok predicates) :
    (∀ predicate ∈ predicates, predicate.truth row = some true) ↔
      ∀ clause ∈ filters, Passes clock resource row clause := by
  rcases bindUserFilters_spec bound with ⟨binds, source⟩
  constructor
  · intro all clause listed
    exact all _ (binds clause listed).2
  · intro all predicate inPredicates
    rcases source predicate inPredicates with ⟨clause, listed, rfl⟩
    exact all clause listed

variable {query : String}

theorem truth_anyLike :
    Predicate.truth row (.anyLike (searchableFields resource) (searchPattern query)) =
      some true ↔ Holds resource row query := by
  show disjunction _ = some true ↔ _
  rw [disjunction_eq_true]
  constructor
  · rintro ⟨clause, listed, isTrue⟩
    rcases List.mem_map.mp listed with ⟨field, searched, rfl⟩
    rcases Option.map_eq_some_iff.mp isTrue with ⟨found, isFound, fits⟩
    exact ⟨field, searched, found, isFound, (likeMatches_occurs _ _).mp fits⟩
  · rintro ⟨field, searched, found, isFound, occurs⟩
    refine ⟨_, List.mem_map_of_mem searched, ?_⟩
    exact Option.map_eq_some_iff.mpr ⟨found, isFound, (likeMatches_occurs _ _).mpr occurs⟩

theorem conjunction_passes : conjunction (predicates.map (Predicate.truth row)) = some true ↔
      ∀ predicate ∈ predicates, predicate.truth row = some true := by
  rw [conjunction_eq_true, List.forall_mem_map]

variable (row) in
theorem searchStatement_asked {fieldSet : String} {limit : Int} {found : Option SearchStatement}
    (built : searchStatement clock filterSchemaV2 principal resource query filters fieldSet
      limit = .ok found) :
    (found = none → ¬ Asked clock principal resource query filters row) ∧
      ∀ statement, found = some statement → statement.limit = boundedLimit limit ∧
        (statement.passes row = true ↔ Asked clock principal resource query filters row) := by
  simp only [searchStatement, bind_eq_ok] at built
  rcases built with ⟨scope, isScope, own, isOwn, built⟩
  have visible : (∀ predicate ∈ scope, predicate.truth row = some true) ↔
      InScope principal resource row := scopePredicates_iff isScope
  have kept : (∀ predicate ∈ own, predicate.truth row = some true) ↔
      ∀ clause ∈ filters, Passes clock resource row clause := bindUserFilters_iff isOwn
  split at built
  · rename_i noText
    cases built
    refine ⟨nofun, ?_⟩
    rintro statement ⟨⟩
    refine ⟨rfl, ?_⟩
    rw [SearchStatement.passes, decide_eq_true_iff, conjunction_passes,
      List.forall_mem_append, visible, kept]
    constructor
    · rintro ⟨inScope, passes⟩
      exact ⟨inScope, passes, fun some => absurd noText some⟩
    · intro asked
      exact ⟨asked.scope, asked.filters⟩
  · rename_i hasText
    split at built
    · rename_i noField
      cases built
      refine ⟨fun _ => ?_, nofun⟩
      intro asked
      rcases asked.text hasText with ⟨field, searched, _⟩
      rw [noField] at searched
      cases searched
    · cases built
      refine ⟨nofun, ?_⟩
      rintro statement ⟨⟩
      refine ⟨rfl, ?_⟩
      rw [SearchStatement.passes, decide_eq_true_iff, conjunction_passes,
        List.forall_mem_append, List.forall_mem_append, visible, kept,
        List.forall_mem_singleton, truth_anyLike]
      constructor
      · rintro ⟨⟨inScope, passes⟩, holds⟩
        exact ⟨inScope, passes, fun _ => holds⟩
      · intro asked
        exact ⟨⟨asked.scope, asked.filters⟩, asked.text hasText⟩

theorem mem_askedRows {rows : List (Row columns)} :
    row ∈ askedRows clock principal resource query filters rows ↔
      row ∈ rows ∧ Asked clock principal resource query filters row := by
  classical
  rw [askedRows, List.mem_filter]
  exact and_congr_right fun _ => decide_eq_true_iff

theorem boundedLimit_bounds (limit : Int) : 1 ≤ boundedLimit limit ∧ boundedLimit limit ≤ 50 := by
  rw [boundedLimit, maxRows]
  omega

end Proofs

structure Accepted where
  clock : BusinessClock
  filterSchemaV2 : Bool
  principal : Principal
  manifest : List (String × ManifestResource)
  resourceType : String
  resource : ManifestResource
  query : String
  filters : List FilterClause
  fieldSet : String
  limit : Int
  found : Option SearchStatement
  granted : resourceFor principal manifest resourceType fieldSet = .ok resource
  built : searchStatement clock filterSchemaV2 principal resource query filters fieldSet
    limit = .ok found

namespace Accepted

variable (accepted : Accepted) {columns : Columns}

def Returns (rows result : List (Row columns)) : Prop :=
  match accepted.found with
  | none => result = []
  | some statement => statement.Returns rows result

def Asks (row : Row columns) : Prop :=
  Asked accepted.clock accepted.principal accepted.resource accepted.query accepted.filters row

noncomputable def asked (rows : List (Row columns)) : List (Row columns) :=
  askedRows accepted.clock accepted.principal accepted.resource accepted.query accepted.filters rows

def Exact (columns : Columns) : Prop :=
  ∀ rows result : List (Row columns), accepted.Returns rows result →
    ∀ row ∈ rows, row ∈ result ↔ accepted.Asks row

/-- A search returns rows it asks for, as many as its limit lets it, and no filter is
about a column of the scope. -/
structure Literal (columns : Columns) : Prop where
  returns : ∀ rows result : List (Row columns), accepted.Returns rows result ↔
    ∃ ordered : List (Row columns), ordered.Perm (accepted.asked rows) ∧
      result = ordered.take (boundedLimit accepted.limit)
  bounds : 1 ≤ boundedLimit accepted.limit ∧ boundedLimit accepted.limit ≤ 50
  asks : ∀ rows result : List (Row columns), accepted.Returns rows result →
    ∀ row ∈ result, row ∈ rows ∧ accepted.Asks row
  complete : ∀ rows result : List (Row columns), accepted.Returns rows result →
    (accepted.asked rows).length ≤ boundedLimit accepted.limit →
      ∀ row ∈ rows, row ∈ result ↔ accepted.Asks row
  free : ∀ clause ∈ accepted.filters, clause.field ∉ reservedColumns accepted.resource

variable {accepted}

theorem returns_iff {rows result : List (Row columns)} :
    accepted.Returns rows result ↔ ∃ ordered : List (Row columns),
      ordered.Perm (accepted.asked rows) ∧ result = ordered.take (boundedLimit accepted.limit) := by
  have each (row : Row columns) := searchStatement_asked row accepted.built
  rw [Returns]
  rcases isFound : accepted.found with _ | statement
  · have empty : accepted.asked rows = [] := by
      apply List.eq_nil_iff_forall_not_mem.mpr
      intro row listed
      exact (each row).1 isFound (mem_askedRows.mp listed).2
    rw [empty]
    constructor
    · rintro rfl
      exact ⟨[], .nil, List.take_nil.symm⟩
    · rintro ⟨ordered, perm, rfl⟩
      rw [perm.eq_nil]
      exact List.take_nil
  · have same : rows.filter statement.passes = accepted.asked rows := by
      classical
      apply List.filter_congr
      intro row _
      apply Bool.eq_iff_iff.mpr
      rw [((each row).2 statement isFound).2]
      exact decide_eq_true_iff.symm
    show statement.Returns rows result ↔ _
    rw [SearchStatement.Returns, same, ((each fun _ => none).2 statement isFound).1]

theorem asks_of_returns {rows result : List (Row columns)}
    (returned : accepted.Returns rows result) {row : Row columns} (listed : row ∈ result) :
    row ∈ rows ∧ accepted.Asks row := by
  rcases returns_iff.mp returned with ⟨ordered, perm, rfl⟩
  exact mem_askedRows.mp (perm.mem_iff.mp (List.mem_of_mem_take listed))

theorem complete_of_returns {rows result : List (Row columns)}
    (returned : accepted.Returns rows result)
    (fit : (accepted.asked rows).length ≤ boundedLimit accepted.limit) {row : Row columns}
    (stored : row ∈ rows) : row ∈ result ↔ accepted.Asks row := by
  constructor
  · intro listed
    exact (asks_of_returns returned listed).2
  · intro asks
    rcases returns_iff.mp returned with ⟨ordered, perm, rfl⟩
    rw [List.take_of_length_le (perm.length_eq.trans_le fit), perm.mem_iff]
    exact mem_askedRows.mpr ⟨stored, asks⟩

theorem free_of_built {clause : FilterClause} (listed : clause ∈ accepted.filters) :
    clause.field ∉ reservedColumns accepted.resource := by
  have built := accepted.built
  simp only [searchStatement, bind_eq_ok] at built
  rcases built with ⟨_, _, own, isOwn, _⟩
  exact ((bindUserFilters_spec isOwn).1 clause listed).1

/-- Every search that is run is literal and scoped, over any columns. -/
theorem literal (accepted : Accepted) (columns : Columns) : accepted.Literal columns where
  returns _ _ := returns_iff
  bounds := boundedLimit_bounds accepted.limit
  asks _ _ returned _ := asks_of_returns returned
  complete _ _ returned fit _ := complete_of_returns returned fit
  free _ := free_of_built

end Accepted

def bills : ManifestResource where
  canonicalLinkKey := "id"
  departmentScopeMode := none
  fieldSetFields := [("summary", ["id", "description"])]
  fieldSets := ["summary"]
  filters := []
  projectionName := "bills"
  readableFields := ["id", "description"]
  recordPredicates := []
  scopeColumns := { entity := none, department := none }

/-- A search for bolts that may return one row. -/
def oneBolt : Accepted where
  clock := {
    normalize := fromIsoFormat
    isoFormat := isoFormat
    reread _ _ read := fromIsoFormat_isoFormat (inRange_of_fromIsoFormat read) }
  filterSchemaV2 := false
  principal := {
    entityId := 1
    crossEntity := some true
    resources := [("bill", { actions := ["search"], fieldSets := ["summary"] })] }
  manifest := [("bill", bills)]
  resourceType := "bill"
  resource := bills
  query := "bolt"
  filters := []
  fieldSet := "summary"
  limit := 1
  found := some {
    table := "bills"
    columns := ["id", "description"]
    predicates := [.anyLike ["description"] (searchPattern "bolt")]
    limit := 1 }
  granted := by rfl
  built := by rfl

def plainColumns : Columns := fun _ => {
  Key := String
  order := inferInstance
  rank value := match value with
    | .text text => text
    | _ => ""
  letters := String.toList
  same := (· == ·) }

def described (text : String) : Row plainColumns :=
  fun _ => some text

/-- Two records hold a bolt; one of them is returned. -/
theorem oneBolt_not_exact : ¬ oneBolt.Exact plainColumns := by
  intro exact
  have returned : oneBolt.Returns [described "bolt", described "bolts"] [described "bolt"] :=
    ⟨[described "bolt", described "bolts"], .refl _, rfl⟩
  have second := exact _ _ returned (described "bolts") (by simp)
  have passes : (described "bolts") ∈ [described "bolt"] := by
    apply second.mpr
    exact ((searchStatement_asked _ oneBolt.built).2 _ rfl).2.mp (by decide)
  have same := congrFun (List.mem_singleton.mp passes) "description"
  have letters : "bolts".toList = "bolt".toList := congrArg String.toList (Option.some.inj same)
  revert letters
  decide

end McpAssistant.Policy.RecordSearch
