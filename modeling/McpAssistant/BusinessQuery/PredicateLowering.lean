import McpAssistant.BusinessQuery.OperatorClauses
import McpAssistant.BusinessQuery.AttributeAliases

/-!
# Lowering a typed predicate

A typed predicate asks for the records whose facts of a family satisfy an operator:
at least one of them, every one, or exactly the listed values.  It is lowered to one
`EXISTS` over the fact view, whatever it asks for.
-/

namespace McpAssistant.BusinessQuery.PredicateLowering

open Definitions FilterTree FilterEvaluation Outcomes DetailSources Visibility
open OperatorClauses Foundations Foundations.Fallible List
open AttributeAliases (isNumericKind ordersValues revisionsDiffer)

/-! ## Lowering -/

structure ParentTable where
  columns : List String
  primaryKey : List String

structure FactExists where
  view : String
  parentKey : String
  ownerColumn : String
  familyKey : String
  valueColumn : String
  clause : Clause
  entityId : Option Int
  departmentId : Option Int
  revisionHash : Option String

def require (holds : Bool) (reason : ReasonCode) : Except ClauseError Unit :=
  if holds then .ok () else .error (.refused (refused reason))

def orRefuse {Found : Type} (found : Option Found) (reason : ReasonCode) :
    Except ClauseError Found :=
  match found with
  | some value => .ok value
  | none => .error (.refused (refused reason))

theorem orRefuse_eq_ok {Found : Type} {found : Option Found} {reason : ReasonCode}
    {value : Found} : orRefuse found reason = .ok value ↔ found = some value := by
  cases found with
  | none => exact iff_of_false nofun nofun
  | some other =>
    constructor
    · rintro ⟨⟩
      rfl
    · rintro ⟨⟩
      rfl

section Lowering

variable (bundle : DetailBundle)

def definitionsFor (familyKey : String) : List SignedDetail :=
  bundle.detailDefinitions.filter fun detail => detail.familyKey == familyKey

/-- The pinned revision, else the only one, else the current one. -/
def resolveDetail (familyKey : String) (revisionHash : Option String) : Option SignedDetail :=
  match revisionHash, definitionsFor bundle familyKey with
  | some hash, signed => signed.find? fun detail => detail.revisionHash == hash
  | none, [only] => some only
  | none, several => several.find? fun detail => detail.isCurrent

/-- The columns of a fact view: those it was registered with, else those its source
signs. -/
def getFactTable (registered : String → Option (List String)) (viewName familyKey : String) :
    Except ClauseError (List String) := do
  let source ← orRefuse (bundle.detailSources.find? fun source =>
    source.projectionView = viewName ∧ source.familyKey = familyKey) .memberNotFound
  require (!(detailSourceColumns source).isEmpty) .memberNotFound
  pure ((registered viewName).getD (detailSourceColumns source))

/-- The column a fact's owner is compared with. -/
def parentKey (parent : ParentTable) (ownerResource : String) : Option String :=
  if "id" ∈ parent.columns then some "id"
  else if ownerResource ++ "_id" ∈ parent.columns then some (ownerResource ++ "_id")
  else
    match parent.primaryKey with
    | [only] => some only
    | _ => none

def isColumn (columns : List String) (column : Option String) : Bool :=
  column.any fun name => columns.contains name

/-- The entity a fact must be of, where the view has the column. -/
def entityScope (principal : Option Principal) (definition : SignedDetail)
    (columns : List String) : Option Int :=
  principal.bind fun reader =>
    if !reader.isCrossEntity && isColumn columns definition.scopeColumns.entity then
      reader.entityId
    else none

def departmentScope (principal : Option Principal) (definition : SignedDetail)
    (columns : List String) : Option Int :=
  principal.bind fun reader =>
    if isColumn columns definition.scopeColumns.department then
      reader.scopeValues.bind (·.departmentId)
    else none

def lowerAttributePredicate (registered : String → Option (List String))
    (parent : ParentTable) (principal : Option Principal) (pred : AttributePredicate) :
    Except ClauseError FactExists := do
  require (!revisionsDiffer pred) .memberNotFound
  let definition ← orRefuse (resolveDetail bundle pred.familyKey pred.revisionHash) .memberNotFound
  let columns ← getFactTable bundle registered definition.physicalSource definition.familyKey
  let key ← orRefuse (parentKey parent definition.ownerResource) .noJoinPath
  require (columns.contains definition.ownerColumn) .noJoinPath
  require (columns.contains "family_key") .memberNotFound
  require (columns.contains definition.valueColumn) .memberNotFound
  require (!ordersValues pred.operator || isNumericKind definition.valueKind) .unsupportedOperator
  let clause ← operatorClause pred.operator pred.values
  require (pred.revisionHash.isNone || columns.contains "revision_hash") .memberNotFound
  pure {
    view := definition.physicalSource
    parentKey := key
    ownerColumn := definition.ownerColumn
    familyKey := definition.familyKey
    valueColumn := definition.valueColumn
    clause
    entityId := entityScope principal definition columns
    departmentId := departmentScope principal definition columns
    revisionHash := pred.revisionHash }

end Lowering

/-- A row of the fact view, by what its definition names: the columns are different
ones. -/
structure Fact (column : Column) where
  owner : Option FilterValue
  familyKey : Option String
  attributeKey : Option String
  revisionHash : Option String
  value : Option column.Key
  entityId : Option Int
  departmentId : Option Int

section Passing

variable {column : Column}

/-- A condition of the statement on a cell, if there is one. -/
def equalsWhere {Cell : Type} [DecidableEq Cell] (wanted cell : Option Cell) : Bool :=
  wanted.all fun value => cell = some value

/-- A fact of an owner, as far as the statement looks. -/
def FactExists.isOwn (lowered : FactExists) (owner : FilterValue) (fact : Fact column) : Bool :=
  fact.owner = some owner && fact.familyKey = some lowered.familyKey &&
    equalsWhere lowered.entityId fact.entityId &&
    equalsWhere lowered.departmentId fact.departmentId &&
    equalsWhere lowered.revisionHash fact.revisionHash

/-- A record passes the lowered predicate. -/
def FactExists.passes (lowered : FactExists) (facts : List (Fact column))
    (owner : FilterValue) : Bool :=
  facts.any fun fact =>
    lowered.isOwn owner fact && column.truth fact.value lowered.clause = some true

end Passing

/-- The revision a predicate pins under either of its names. -/
def pinned (pred : AttributePredicate) : Option String :=
  pred.revisionHash.or pred.definitionRevision

section Asking

variable {column : Column}

/-- What a principal may see of a view, where the view has the column of its scope. -/
structure InScope (principal : Option Principal) (definition : SignedDetail)
    (columns : List String) (fact : Fact column) : Prop where
  entity : ∀ reader, principal = some reader → reader.isCrossEntity = false →
    isColumn columns definition.scopeColumns.entity = true →
      ∀ entityId, reader.entityId = some entityId → fact.entityId = some entityId
  department : ∀ reader, principal = some reader →
    isColumn columns definition.scopeColumns.department = true →
      ∀ values departmentId, reader.scopeValues = some values →
        values.departmentId = some departmentId → fact.departmentId = some departmentId

structure IsAsked (pred : AttributePredicate) (owner : FilterValue) (fact : Fact column) :
    Prop where
  owner : fact.owner = some owner
  family : fact.familyKey = some pred.familyKey
  key : ∀ attributeKey, pred.attributeKey = some attributeKey →
    fact.attributeKey = some attributeKey
  revision : ∀ hash, pinned pred = some hash → fact.revisionHash = some hash

def Satisfies (pred : AttributePredicate) (fact : Fact column) : Prop :=
  meaning column fact.value pred.operator pred.values = some true

def Holds (pred : AttributePredicate) (facts : List (Fact column))
    (asked : Fact column → Prop) : Prop :=
  match pred.quantifier with
  | .any => ∃ fact ∈ facts, asked fact ∧ Satisfies pred fact
  | .all => ∀ fact ∈ facts, asked fact → Satisfies pred fact
  | .exact =>
    (∀ value ∈ pred.values, ∃ fact ∈ facts, asked fact ∧ fact.value = some (column.rank value)) ∧
    ∀ fact ∈ facts, asked fact → ∃ value ∈ pred.values, fact.value = some (column.rank value)

end Asking

structure Accepted (bundle : DetailBundle) (registered : String → Option (List String))
    (parent : ParentTable) (principal : Option Principal) where
  pred : AttributePredicate
  definition : SignedDetail
  columns : List String
  lowered : FactExists
  resolved : resolveDetail bundle pred.familyKey pred.revisionHash = some definition
  found : getFactTable bundle registered definition.physicalSource definition.familyKey =
    .ok columns
  compiled : lowerAttributePredicate bundle registered parent principal pred = .ok lowered

/-- The clause of an operator is about all of its values. -/
structure UsesValues (operator : FilterOperator) (values : List FilterValue) : Prop where
  compares : comparesOne operator = true → values.length = 1
  contains : operator = .contains → ∀ first rest, values = first :: rest →
    ∀ value ∈ rest, first.pyStr.toList <:+: value.pyStr.toList

section Accepted

variable {bundle : DetailBundle} {registered : String → Option (List String)}
  {parent : ParentTable} {principal : Option Principal}

/-- A record's fact a predicate asks about, in the principal's scope. -/
def Accepted.asks {column : Column} (accepted : Accepted bundle registered parent principal)
    (owner : FilterValue) (fact : Fact column) : Prop :=
  IsAsked accepted.pred owner fact ∧ InScope principal accepted.definition accepted.columns fact

/-- Whatever the facts, the records that pass are those asked for. -/
def Meant (accepted : Accepted bundle registered parent principal) : Prop :=
  ∀ (column : Column) (facts : List (Fact column)) (owner : FilterValue),
    accepted.lowered.passes facts owner = true ↔ Holds accepted.pred facts (accepted.asks owner)

structure IsExists (pred : AttributePredicate) : Prop where
  any : pred.quantifier = .any
  key : pred.attributeKey = none
  revision : pred.revisionHash = none → pred.definitionRevision = none
  values : UsesValues pred.operator pred.values

theorem familyKey_resolveDetail {familyKey : String} {revisionHash : Option String}
    {definition : SignedDetail}
    (resolved : resolveDetail bundle familyKey revisionHash = some definition) :
    definition.familyKey = familyKey := by
  have signed : ∀ detail ∈ definitionsFor bundle familyKey, detail.familyKey = familyKey := by
    intro detail member
    exact beq_iff_eq.mp (List.mem_filter.mp member).2
  unfold resolveDetail at resolved
  split at resolved
  · exact signed _ (mem_of_find?_eq_some resolved)
  · rename_i only
    cases resolved
    exact signed _ (only ▸ mem_cons_self)
  · exact signed _ (mem_of_find?_eq_some resolved)

structure Lowers (accepted : Accepted bundle registered parent principal) : Prop where
  family : accepted.lowered.familyKey = accepted.pred.familyKey
  clause : operatorClause accepted.pred.operator accepted.pred.values = .ok accepted.lowered.clause
  entity : accepted.lowered.entityId = entityScope principal accepted.definition accepted.columns
  department : accepted.lowered.departmentId =
    departmentScope principal accepted.definition accepted.columns
  revision : accepted.lowered.revisionHash = accepted.pred.revisionHash

theorem Accepted.lowers (accepted : Accepted bundle registered parent principal) :
    Lowers accepted := by
  rcases accepted with ⟨pred, definition, columns, lowered, resolved, found, compiled⟩
  simp only [lowerAttributePredicate, bind_eq_ok, pure_eq_ok, orRefuse_eq_ok] at compiled
  rcases compiled with ⟨_, _, other, resolvedTo, others, foundTo, _, _, _, _, _, _, _, _, _, _,
    clause, made, _, _, rfl⟩
  cases resolved.symm.trans resolvedTo
  cases found.symm.trans foundTo
  exact ⟨familyKey_resolveDetail resolved, made, rfl, rfl, rfl⟩

variable {column : Column} {fact : Fact column}

theorem equalsWhere_iff {Cell : Type} [DecidableEq Cell] {wanted cell : Option Cell} :
    equalsWhere wanted cell = true ↔ ∀ value, wanted = some value → cell = some value := by
  rw [equalsWhere, Option.all_eq_true]
  apply forall_congr'
  intro value
  rw [decide_eq_true_iff]

theorem inScope_iff (principal : Option Principal) (definition : SignedDetail)
    (columns : List String) : InScope principal definition columns fact ↔
    equalsWhere (entityScope principal definition columns) fact.entityId = true ∧
      equalsWhere (departmentScope principal definition columns) fact.departmentId = true := by
  rw [equalsWhere_iff, equalsWhere_iff]
  constructor
  · intro visible
    constructor
    · intro entityId wanted
      rcases Option.bind_eq_some_iff.mp wanted with ⟨reader, isReader, own⟩
      split at own
      · rename_i bound
        rw [Bool.and_eq_true, Bool.not_eq_true'] at bound
        exact visible.entity reader isReader bound.1 bound.2 entityId own
      · cases own
    · intro departmentId wanted
      rcases Option.bind_eq_some_iff.mp wanted with ⟨reader, isReader, own⟩
      split at own
      · rename_i bound
        rcases Option.bind_eq_some_iff.mp own with ⟨values, isValues, isDepartment⟩
        exact visible.department reader isReader bound values departmentId isValues isDepartment
      · cases own
  · rintro ⟨entity, department⟩
    constructor
    · intro reader isReader bound isColumn entityId own
      apply entity
      rw [entityScope, isReader, Option.bind_some, bound, isColumn]
      exact own
    · intro reader isReader isColumn values departmentId isValues own
      apply department
      rw [departmentScope, isReader, Option.bind_some, if_pos isColumn, isValues]
      exact own

theorem isOwn_iff (accepted : Accepted bundle registered parent principal)
    (owner : FilterValue) : accepted.lowered.isOwn owner fact = true ↔
    fact.owner = some owner ∧ fact.familyKey = some accepted.pred.familyKey ∧
      InScope principal accepted.definition accepted.columns fact ∧
        ∀ hash, accepted.pred.revisionHash = some hash → fact.revisionHash = some hash := by
  have lowers := accepted.lowers
  rw [inScope_iff, FactExists.isOwn, lowers.family, lowers.entity, lowers.department,
    lowers.revision, ← equalsWhere_iff]
  simp only [Bool.and_eq_true, decide_eq_true_iff]
  tauto

end Accepted

/-- A column that ranks every value alike and spells every cell as the word. -/
def flatColumn (word : List Char) : Column where
  Key := Int
  order := inferInstance
  rank _ := 0
  letters _ := word
  same letter other := letter == other
  inSet _ _ := none

section Truth

variable {operator : FilterOperator} {values : List FilterValue} {clause : Clause}

theorem flat_compare (word : List Char) (comparison : Comparison) (value : FilterValue) :
    ∃ cell, (flatColumn word).truth cell (.compare comparison value) = some true := by
  cases comparison with
  | neq => exact ⟨some (1 : Int), rfl⟩
  | gt => exact ⟨some (1 : Int), rfl⟩
  | lt => exact ⟨some (-1 : Int), rfl⟩
  | _ => exact ⟨some (0 : Int), rfl⟩

theorem exists_true (arity : operator.acceptsValues values = true)
    (made : operatorClause operator values = .ok clause) :
    ∃ word cell, (flatColumn word).truth cell clause = some true := by
  rcases values with _ | ⟨first, rest⟩
  · cases operator with
    | isNull =>
      cases made
      exact ⟨[], none, rfl⟩
    | notNull =>
      cases made
      exact ⟨[], some (0 : Int), rfl⟩
    | inSet | notInSet => cases made
    | _ => cases arity
  · have equal : disjunction ((first :: rest).map
        ((flatColumn []).compare .eq (some (0 : Int)))) = some true :=
      disjunction_eq_true.mpr ⟨_, mem_map_of_mem mem_cons_self, rfl⟩
    have differ : conjunction ((first :: rest).map
        ((flatColumn []).compare .neq (some (1 : Int)))) = some true :=
      conjunction_eq_true.mpr (List.forall_mem_map.mpr fun value _ => rfl)
    cases operator with
    | eq =>
      refine ⟨[], some (0 : Int), ?_⟩
      cases rest <;> cases made
      · rfl
      · exact equal
    | neq =>
      refine ⟨[], some (1 : Int), ?_⟩
      cases rest <;> cases made
      · rfl
      · exact differ
    | isIn =>
      cases made
      exact ⟨[], some (0 : Int), (truth_isIn (cons_ne_nil first rest)).trans equal⟩
    | notIn =>
      cases made
      exact ⟨[], some (1 : Int), (truth_notIn (cons_ne_nil first rest)).trans differ⟩
    | gt | gte | lt | lte =>
      cases made
      exact ⟨[], flat_compare [] _ first⟩
    | contains =>
      cases made
      refine ⟨first.pyStr.toList, some (0 : Int), congrArg some ?_⟩
      exact (LikePatterns.likeMatches_occurs _ _).mpr (occurs_self first.pyStr)
    | isNull | notNull => cases arity
    | inSet | notInSet => cases made

theorem infix_of_occurs {word text : String}
    (occurs : LikePatterns.Occurs textColumn.same word.toList text.toList) :
    word.toList <:+: text.toList := by
  rcases occurs with ⟨part, infixed, letters⟩
  have same : word.toList = part := by
    apply forall₂_eq_eq_eq ▸ letters.imp _
    intro letter other equal
    exact beq_iff_eq.mp equal
  rw [same]
  exact infixed

/-- What holds a longer word holds its parts. -/
theorem occurs_of_infix {same : Char → Char → Bool} {word longer text : List Char}
    (inside : word <:+: longer) (occurs : LikePatterns.Occurs same longer text) :
    LikePatterns.Occurs same word text := by
  rcases inside with ⟨before, after, rfl⟩
  rcases occurs with ⟨part, infixed, letters⟩
  refine ⟨(part.drop before.length).take word.length, ?_, ?_⟩
  · apply List.IsInfix.trans _ infixed
    exact (List.take_prefix _ _).isInfix.trans (drop_suffix _ _).isInfix
  · have own := forall₂_take word.length (forall₂_drop before.length letters)
    rw [append_assoc, drop_left, take_left] at own
    exact own

theorem containsLiterally_eq_true {column : Column} {cell : Option column.Key}
    {value : FilterValue} : containsLiterally column cell value = some true ↔
    ∃ found, cell = some found ∧
      LikePatterns.Occurs column.same value.pyStr.toList (column.letters found) := by
  rw [containsLiterally, Option.map_eq_some_iff]
  apply exists_congr
  intro found
  rw [@decide_eq_true_iff _ (Classical.propDecidable _)]

theorem usesValues_iff (arity : operator.acceptsValues values = true)
    (made : operatorClause operator values = .ok clause) :
    UsesValues operator values ↔ ∀ (column : Column) (cell : Option column.Key),
      column.truth cell clause = some true ↔ meaning column cell operator values = some true := by
  constructor
  · intro uses column cell
    by_cases contains : operator = .contains
    · subst contains
      rcases values with _ | ⟨first, rest⟩
      · cases arity
      · cases made
        rw [truth_contains]
        show _ ↔ disjunction _ = some true
        rw [disjunction_eq_true]
        constructor
        · intro isTrue
          exact ⟨_, mem_map_of_mem mem_cons_self, isTrue⟩
        · rintro ⟨clause, listed, isTrue⟩
          rcases List.mem_map.mp listed with ⟨value, member, rfl⟩
          rcases List.mem_cons.mp member with rfl | inRest
          · exact isTrue
          · rcases containsLiterally_eq_true.mp isTrue with ⟨found, isFound, occurs⟩
            have inside := uses.contains rfl first rest rfl value inRest
            exact containsLiterally_eq_true.mpr ⟨found, isFound, occurs_of_infix inside occurs⟩
    · rw [truth_meaning arity made]
      intro first
      apply uses.compares
      cases operator with
      | contains => exact absurd rfl contains
      | gt | gte | lt | lte => rfl
      | _ => cases first
  · intro means
    constructor
    · intro compares
      rcases exists_true arity made with ⟨word, cell, isTrue⟩
      have meant := (means _ cell).mp isTrue
      cases operator with
      | gt | gte | lt | lte =>
        rcases values with _ | ⟨first, _ | ⟨second, rest⟩⟩
        · cases arity
        · rfl
        · cases meant
      | _ => cases compares
    · rintro rfl first rest rfl value inRest
      cases made
      have literal : meaning textColumn (some value.pyStr) .contains (first :: rest) =
          some true := by
        show disjunction _ = some true
        rw [disjunction_eq_true]
        refine ⟨_, mem_map_of_mem (mem_cons_of_mem _ inRest), ?_⟩
        exact containsLiterally_eq_true.mpr ⟨_, rfl, occurs_self value.pyStr⟩
      have isTrue := (means textColumn (some value.pyStr)).mpr literal
      rw [truth_contains] at isTrue
      rcases containsLiterally_eq_true.mp isTrue with ⟨found, isFound, occurs⟩
      cases isFound
      exact infix_of_occurs occurs

end Truth

section Meant

variable {bundle : DetailBundle} {registered : String → Option (List String)}
  {parent : ParentTable} {principal : Option Principal} {column : Column}

def askedFact (accepted : Accepted bundle registered parent principal) (owner : FilterValue)
    (attributeKey revisionHash : Option String) (cell : Option column.Key) : Fact column where
  owner := some owner
  familyKey := some accepted.pred.familyKey
  attributeKey := attributeKey
  revisionHash := revisionHash
  value := cell
  entityId := principal.bind (·.entityId)
  departmentId := principal.bind fun reader => reader.scopeValues.bind (·.departmentId)

variable (accepted : Accepted bundle registered parent principal) (owner : FilterValue)
  {attributeKey revisionHash : Option String} {cell : Option column.Key}

theorem inScope_askedFact : InScope principal accepted.definition accepted.columns
    (askedFact accepted owner attributeKey revisionHash cell) where
  entity reader isReader _ _ entityId own := by
    show principal.bind (·.entityId) = some entityId
    rw [isReader]
    exact own
  department reader isReader _ values departmentId isValues own := by
    show (principal.bind fun reader => reader.scopeValues.bind (·.departmentId)) = _
    rw [isReader, Option.bind_some, isValues]
    exact own

theorem asks_askedFact : accepted.asks owner
    (askedFact accepted owner accepted.pred.attributeKey (pinned accepted.pred) cell) where
  left := {
    owner := rfl
    family := rfl
    key := fun _ isKey => isKey
    revision := fun _ isPinned => isPinned }
  right := inScope_askedFact accepted owner

variable (attributeKey) in
/-- The statement does not look at the attribute key, nor at a revision pinned by its
other name only. -/
theorem passes_askedFact (rest : List (Fact column))
    (revision : ∀ hash, accepted.pred.revisionHash = some hash → revisionHash = some hash)
    (isTrue : column.truth cell accepted.lowered.clause = some true) :
    accepted.lowered.passes
      (askedFact accepted owner attributeKey revisionHash cell :: rest) owner = true := by
  apply List.any_eq_true.mpr
  refine ⟨_, mem_cons_self, ?_⟩
  rw [Bool.and_eq_true, decide_eq_true_iff]
  exact ⟨(isOwn_iff accepted owner).mpr
    ⟨rfl, rfl, inScope_askedFact accepted owner, revision⟩, isTrue⟩

theorem pinned_of_revisionHash {pred : AttributePredicate} {hash : String}
    (isHash : pred.revisionHash = some hash) : pinned pred = some hash := by
  rw [pinned, isHash]
  rfl

/-- Only a predicate about at least one fact is lowered to what it asks for. -/
theorem quantifier_of_meant (meant : Meant accepted) : accepted.pred.quantifier = .any := by
  rcases quantifier : accepted.pred.quantifier with _ | _ | _
  · rfl
  · have vacuous : Holds accepted.pred ([] : List (Fact textColumn))
        (accepted.asks (.integer 0)) := by
      rw [Holds, quantifier]
      exact forall_mem_nil _
    have passes := (meant textColumn [] (.integer 0)).mpr vacuous
    cases passes
  · rcases exists_true accepted.pred.arity accepted.lowers.clause with ⟨word, cell, isTrue⟩
    let unlisted : Fact (flatColumn word) := askedFact accepted (.integer 0)
      accepted.pred.attributeKey (pinned accepted.pred) (some (1 : Int))
    have holds := (meant (flatColumn word) _ (.integer 0)).mp
      (passes_askedFact accepted (.integer 0) none [unlisted]
        (fun _ isHash => pinned_of_revisionHash isHash) isTrue)
    rw [Holds, quantifier] at holds
    rcases holds.2 unlisted (mem_cons_of_mem _ mem_cons_self)
      (asks_askedFact accepted (.integer 0)) with ⟨value, _, same⟩
    cases same

variable (attributeKey revisionHash cell) in
theorem holds_askedFact (meant : Meant accepted)
    (revision : ∀ hash, accepted.pred.revisionHash = some hash → revisionHash = some hash)
    (isTrue : column.truth cell accepted.lowered.clause = some true) :
    accepted.asks owner (askedFact accepted owner attributeKey revisionHash cell) ∧
      Satisfies accepted.pred (askedFact accepted owner attributeKey revisionHash cell) := by
  have holds := (meant column _ owner).mp (passes_askedFact accepted owner attributeKey [] revision isTrue)
  rw [Holds, quantifier_of_meant accepted meant] at holds
  rcases holds with ⟨fact, listed, asked⟩
  rw [List.mem_singleton.mp listed] at asked
  exact asked

end Meant

def printSides : SignedDetail where
  familyKey := "print.sides"
  revisionHash := "hash"
  ownerResource := "job"
  physicalSource := "job_facts"
  ownerColumn := "job_id"
  valueColumn := "typed_value"
  valueKind := .enum
  cardinality := .oneToMany
  scopeColumns := { entity := some "entity_id", department := none }

def printBundle : DetailBundle where
  detailDefinitions := [printSides]
  detailSources := [{
    familyKey := "print.sides"
    projectionView := "job_facts"
    ownerResource := "job"
    ownerColumn := "job_id"
    scopeColumns := { entity := some "entity_id", department := none }
    typedValueColumn := "typed_value"
    displayValueColumn := "display_value"
    columns := ["job_id", "entity_id", "family_key", "attribute_key", "typed_value",
      "display_value"] }]
  oneSourceEach := by decide

def jobs : ParentTable where
  columns := ["id", "entity_id"]
  primaryKey := ["id"]

def allOneSide : Accepted printBundle (fun _ => none) jobs none where
  pred := {
    familyKey := "print.sides"
    operator := .eq
    values := [.text "one_side"]
    notSet := AttributeAliases.oneSided.notSet
    valueKind := .string
    quantifier := .all }
  definition := printSides
  columns := ["job_id", "entity_id", "family_key", "attribute_key", "typed_value", "display_value"]
  lowered := {
    view := "job_facts"
    parentKey := "id"
    ownerColumn := "job_id"
    familyKey := "print.sides"
    valueColumn := "typed_value"
    clause := .compare .eq (.text "one_side")
    entityId := none
    departmentId := none
    revisionHash := none }
  resolved := by decide
  found := by rfl
  compiled := by rfl

end McpAssistant.BusinessQuery.PredicateLowering
