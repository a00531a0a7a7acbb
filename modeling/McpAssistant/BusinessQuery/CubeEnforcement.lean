import McpAssistant.BusinessQuery.CubeRequests
import McpAssistant.BusinessQuery.ValueResolution

/-!
# Forced predicates in Cube requests

A forced predicate is enforced when the relation of its resource's cube states the
same equality, or when it becomes a filter on a member that reads its column.  The
adapter compares column names only.  It enforces what it accepts exactly when the
predicates on relation columns are the ones the relation states, and the department
dimension reads the department column.
-/

namespace McpAssistant.BusinessQuery.CubeEnforcement

open Definitions QueryPlan Visibility Scopes Outcomes CubeGeneration CubeQueries CubeRequests
open Foundations.Dictionaries
open Foundations.Fallible
open Foundations.JoinedText List

def fixedValue (context : SecurityContext) : RelationPredicate → Option (String × FilterValue)
  | .equals column value => some (column, value)
  | .entityScope column =>
    if context.crossEntity.getD false then none
    else context.entityId.map fun entity => (column, .integer entity)

def RelationStates (cube : CubeDef) (context : SecurityContext)
    (predicate : ForcedPredicate) : Prop :=
  predicate.operator = .eq ∧
  ∃ condition ∈ cube.relation, ∃ value, predicate.values = [value] ∧
    fixedValue context condition = some (predicate.column, value)

def FilterStates (model : CubeModel) (members : CubeMemberMap) (cube : CubeDef)
    (filters : List CubeFilter) (predicate : ForcedPredicate) : Prop :=
  ∃ dimension ∈ cube.dimensions, dimension.sql = predicate.column ∧
    departmentFilter model members predicate =
      .ok (some (.item (model.viewMember cube dimension.name) (forcedOperator predicate.operator)
        (some (predicate.values.map FilterValue.pyStr)))) ∧
    .item (model.viewMember cube dimension.name) (forcedOperator predicate.operator)
      (some (predicate.values.map FilterValue.pyStr)) ∈ filters

def Enforced (adapter : CubeAdapter) (payload : Payload) (predicate : ForcedPredicate) : Prop :=
  ∃ cube, adapter.model.cubeNamed predicate.resource = some cube ∧
    (RelationStates cube payload.securityContext predicate ∨
      FilterStates adapter.model adapter.members cube payload.query.filters predicate)

def EnforcesForced (adapter : CubeAdapter) (scope : ScopedPlan) (payload : Payload) : Prop :=
  ∀ predicate ∈ scope.forced, Enforced adapter payload predicate

def firstResource (bundle : DefinitionBundle) (name : String) : Option ResourceBinding :=
  bundle.resources.find? fun resource => resource.name = name

def FixedByResource (resource : ResourceBinding) (principal : Principal)
    (predicate : ForcedPredicate) : Prop :=
  predicate.operator = .eq ∧
  ∃ value, predicate.values = [value] ∧ ((predicate.column, value) ∈ resource.recordPredicates ∨
      resource.scopeColumns.entity = some predicate.column ∧
      principal.isCrossEntity = false ∧
      ∃ entity, principal.entityId = some entity ∧ value = .integer entity)

/-- The resource's department column, which no dimension of its name reads
otherwise. -/
def OnDepartment (bundle : DefinitionBundle) (resource : ResourceBinding)
    (predicate : ForcedPredicate) : Prop :=
  departmentOf resource = some predicate.column ∧
  ⟨predicate.column, predicate.column⟩ ∈ dimensionsFor resource bundle

def AccountedFor (bundle : DefinitionBundle) (principal : Principal)
    (predicate : ForcedPredicate) : Prop :=
  ∃ resource, firstResource bundle predicate.resource = some resource ∧
    (FixedByResource resource principal predicate ∨ OnDepartment bundle resource predicate)

variable {Item : Type} {wanted : Item → Bool}

theorem find?_orderedInsert {before : Item → Item → Prop}
    [DecidableRel before] (item : Item) (items : List Item)
    (equals : ∀ first second, wanted first = true → wanted second = true → before first second) :
    (items.orderedInsert before item).find? wanted =
      if wanted item then some item else items.find? wanted := by
  induction items with
  | nil => rw [orderedInsert_nil, List.find?_singleton]; rfl
  | cons head items ih =>
    rw [List.orderedInsert]
    split
    · rw [List.find?_cons]
      split <;> simp_all
    · next late =>
        rw [List.find?_cons, List.find?_cons]
        split
        · next isHead =>
            have notItem : wanted item ≠ true := fun isItem => late (equals item head isItem isHead)
            rw [if_neg notItem]
        · exact ih

theorem find?_insertionSort {before : Item → Item → Prop} [DecidableRel before] (items : List Item)
    (equals : ∀ first second, wanted first = true → wanted second = true → before first second) :
    (items.insertionSort before).find? wanted = items.find? wanted := by
  induction items with
  | nil => rfl
  | cons item items ih =>
    rw [insertionSort_cons, find?_orderedInsert item _ equals, ih, List.find?_cons]
    cases wanted item <;> rfl

theorem find?_of_mapM {Failure Value : Type} {run : Item → Except Failure Value}
    {found : Value → Bool} {items : List Item}
    {values : List Value} {value : Value}
    (agree : ∀ item value, run item = .ok value → found value = wanted item)
    (traversed : items.mapM run = .ok values) :
    values.find? found = some value ↔
      ∃ item, items.find? wanted = some item ∧ run item = .ok value := by
  induction items generalizing values with
  | nil =>
    cases traversed
    simp
  | cons item items ih =>
    rw [mapM_cons] at traversed
    rcases bind_eq_ok.mp traversed with ⟨first, ran, traversed⟩
    rcases bind_eq_ok.mp traversed with ⟨others, ranOthers, traversed⟩
    cases traversed
    rw [List.find?_cons, List.find?_cons, agree item first ran]
    cases wanted item with
    | true => simp [ran]
    | false => exact ih ranOthers

variable {bundle : DefinitionBundle} {model : CubeModel}
  {resource : ResourceBinding} {cube : CubeDef}

theorem cubeFor_name (isCube : cubeFor resource bundle = .ok cube) :
    cube.name = resource.name ∧ cube.relation = relationFor resource ∧
    cube.dimensions = dimensionsFor resource bundle ∧
    cube.departmentColumn = departmentOf resource := by
  unfold cubeFor at isCube
  split at isCube
  · cases isCube
  · rcases bind_eq_ok.mp isCube with ⟨measures, -, isCube⟩
    cases isCube
    exact ⟨rfl, rfl, rfl, rfl⟩

theorem cubeNamed_generated (isModel : generateCubeModel bundle = .ok model) {name : String} :
    model.cubeNamed name = some cube ↔ ∃ resource, firstResource bundle name = some resource ∧
        cubeFor resource bundle = .ok cube := by
  rcases bind_eq_ok.mp isModel with ⟨cubes, isCubes, isModel⟩
  cases isModel
  have sameName : ∀ (resource : ResourceBinding) (cube : CubeDef),
      cubeFor resource bundle = .ok cube →
      decide (cube.name = name) = decide (resource.name = name) := by
    intro resource cube isCube
    rw [(cubeFor_name isCube).1]
  show cubes.find? (fun cube => cube.name = name) = some cube ↔ _
  rw [find?_of_mapM sameName isCubes, find?_insertionSort]
  · rfl
  · intro first second isFirst isSecond
    rw [of_decide_eq_true isFirst, of_decide_eq_true isSecond]

theorem cubeFor_of_generated (isModel : generateCubeModel bundle = .ok model)
    (inside : resource ∈ bundle.resources) :
    ∃ cube, cubeFor resource bundle = .ok cube := by
  rcases bind_eq_ok.mp isModel with ⟨cubes, isCubes, -⟩
  rcases (mapM_eq_ok isCubes).1 resource ((mem_insertionSort _).mpr inside) with ⟨cube, -, isCube⟩
  exact ⟨cube, isCube⟩

variable {condition : RelationPredicate}

theorem fixedValue_eq_some {context : SecurityContext} {column : String} {value : FilterValue} :
    fixedValue context condition = some (column, value) ↔ condition = .equals column value ∨
      condition = .entityScope column ∧ context.crossEntity.getD false = false ∧
        ∃ entity, context.entityId = some entity ∧ value = .integer entity := by
  cases condition with
  | equals name fixed =>
    simp [fixedValue]
  | entityScope name =>
    simp only [fixedValue]
    split
    · next crosses => simp [crosses]
    · next stays =>
        rw [Option.map_eq_some_iff]
        constructor
        · rintro ⟨entity, isEntity, same⟩
          cases same
          exact .inr ⟨rfl, Bool.eq_false_iff.mpr stays, entity, isEntity, rfl⟩
        · rintro (impossible | ⟨sameName, -, entity, isEntity, rfl⟩)
          · cases impossible
          · cases sameName
            exact ⟨entity, isEntity, rfl⟩

theorem mem_relationFor : condition ∈ relationFor resource ↔
      (∃ column value, (column, value) ∈ resource.recordPredicates ∧
        condition = .equals column value) ∨
      ∃ column, resource.scopeColumns.entity = some column ∧ condition = .entityScope column := by
  unfold relationFor
  rw [mem_append, mem_map, mem_map]
  simp only [mem_insertionSort, Option.mem_toList, Prod.exists, eq_comm]

theorem relationStates_iff {principal : Principal} {predicate : ForcedPredicate}
    (isCube : cubeFor resource bundle = .ok cube) :
    RelationStates cube (principalSecurityContext principal) predicate ↔
      FixedByResource resource principal predicate := by
  unfold RelationStates FixedByResource
  rw [(cubeFor_name isCube).2.1]
  apply and_congr_right
  intro _
  constructor
  · rintro ⟨condition, inside, value, values, fixed⟩
    refine ⟨value, values, ?_⟩
    rcases fixedValue_eq_some.mp fixed with rfl | ⟨rfl, stays, known⟩
    · rcases mem_relationFor.mp inside with ⟨column, fixed, isEntry, same⟩ | ⟨column, -, same⟩
      · cases same
        exact .inl isEntry
      · cases same
    · rcases mem_relationFor.mp inside with ⟨column, fixed, -, same⟩ | ⟨column, isColumn, same⟩
      · cases same
      · cases same
        exact .inr ⟨isColumn, stays, known⟩
  · rintro ⟨value, values, fixed | ⟨isColumn, stays, known⟩⟩
    · exact ⟨_, mem_relationFor.mpr (.inl ⟨_, _, fixed, rfl⟩), value, values,
        fixedValue_eq_some.mpr (.inl rfl)⟩
    · exact ⟨_, mem_relationFor.mpr (.inr ⟨_, isColumn, rfl⟩), value, values,
        fixedValue_eq_some.mpr (.inr ⟨rfl, stays, known⟩)⟩

/-- Cube names its cubes and its measures without dots. -/
structure Servable (model : CubeModel) : Prop where
  cubes : ∀ cube ∈ model.cubes, Clear '.' cube.name
  measures : ∀ cube ∈ model.cubes, ∀ name ∈ cube.measures, Clear '.' name

theorem markedDot : Marked "." '.' := ⟨[], [], by decide, by decide⟩

theorem viewMember_inj {first second : String} :
    model.viewMember cube first = model.viewMember cube second ↔ first = second := by
  unfold CubeModel.viewMember
  rw [String.append_right_inj]

theorem toView_dotted {members : CubeMemberMap} (servable : Servable model)
    (isMap : memberMap model = .ok members) (inside : cube ∈ model.cubes)
    {name member : String}
    (isView : members.toView (cube.name ++ "." ++ name) = some member) :
    member = model.viewMember cube name := by
  unfold memberMap at isMap
  simp only at isMap
  split at isMap
  · cases isMap
    have assigned := mem_of_mem_ofPairs (mem_of_lookup isView)
    rcases List.mem_flatMap.mp assigned with ⟨other, isOther, isPair⟩
    rcases List.mem_append.mp isPair with ofDimension | ofMeasure
    · rcases List.mem_map.mp ofDimension with ⟨dimension, -, same⟩
      rcases Prod.mk.inj same with ⟨names, views⟩
      rcases word_append_inj markedDot (servable.cubes other isOther)
        (servable.cubes cube inside) names with ⟨sameCube, sameName⟩
      rw [← views, ← sameName]
      unfold CubeModel.viewMember
      rw [sameCube]
    · rcases List.mem_map.mp ofMeasure with ⟨measure, isMeasure, same⟩
      exact absurd (Prod.mk.inj same).1 (clear_ne_append markedDot
        (servable.measures other isOther measure isMeasure))
  · cases isMap

section Sent

variable {adapter : CubeAdapter} {clock : Except Raised Int}
  {parts : FilterCompilation.CompilerParts} {scope : ScopedPlan} {payload : Payload}

theorem carried_of_execute (isSent : adapter.execute clock parts scope = .ok payload) :
    payload.securityContext = principalSecurityContext adapter.principal ∧
    ∃ query department,
      departmentFilters scope.forced adapter.model adapter.members = .ok department ∧
      payload.query.filters = query ++ department := by
  unfold CubeAdapter.execute at isSent
  split at isSent
  · cases isSent
  split at isSent
  · cases isSent
  split at isSent
  · cases isSent
  split at isSent
  · cases isSent
  next otherPrincipal =>
    split at isSent
    · cases isSent
    split at isSent
    · cases isSent
    split at isSent
    · cases isSent
    split at isSent
    · cases isSent
    split at isSent
    · cases isSent
    rcases bind_eq_ok.mp (mapError_eq_ok.mp isSent) with ⟨query, -, isPayload⟩
    rcases bind_eq_ok.mp isPayload with ⟨department, isDepartment, isPayload⟩
    cases isPayload
    refine ⟨?_, query.filters, department, isDepartment, rfl⟩
    cases isPrincipal : scope.principal with
    | none => rfl
    | some principal =>
      rw [isPrincipal] at otherPrincipal
      have same : principal = adapter.principal := by
        simpa using otherPrincipal
      rw [same]
      rfl

variable {predicate : ForcedPredicate}

theorem departmentFilter_sent (isSent : adapter.execute clock parts scope = .ok payload)
    (isForced : predicate ∈ scope.forced)
    (onColumn : departmentColumnOf adapter.model predicate.resource = some predicate.column) :
    ∃ member,
      adapter.members.toView (predicate.resource ++ "." ++ predicate.column) = some member ∧
      departmentFilter adapter.model adapter.members predicate =
        .ok (some (.item member (forcedOperator predicate.operator)
          (some (predicate.values.map FilterValue.pyStr)))) ∧
      .item member (forcedOperator predicate.operator)
        (some (predicate.values.map FilterValue.pyStr)) ∈ payload.query.filters := by
  rcases carried_of_execute isSent with ⟨-, query, department, isDepartment, isFilters⟩
  rcases map_eq_ok.mp isDepartment with ⟨filters, isFilter, rfl⟩
  rcases (mapM_eq_ok isFilter).1 predicate isForced with ⟨filter, inside, ran⟩
  have translated := ran
  unfold departmentFilter at ran
  rw [if_pos onColumn] at ran
  split at ran
  · cases ran
  · next member isView =>
      cases ran
      refine ⟨member, isView, translated, ?_⟩
      rw [isFilters]
      apply mem_append_right
      exact List.mem_filterMap.mpr ⟨_, inside, rfl⟩

theorem filterStates_iff (servable : Servable adapter.model)
    (isMap : memberMap adapter.model = .ok adapter.members)
    (isSent : adapter.execute clock parts scope = .ok payload)
    {resource : ResourceBinding} {cube : CubeDef}
    (isForced : predicate ∈ scope.forced)
    (isCube : cubeFor resource bundle = .ok cube)
    (found : adapter.model.cubeNamed predicate.resource = some cube) :
    FilterStates adapter.model adapter.members cube payload.query.filters predicate ↔
      OnDepartment bundle resource predicate := by
  have inside := mem_of_find?_eq_some found
  have named : cube.name = predicate.resource := by
    simpa using List.find?_some found
  rcases cubeFor_name isCube with ⟨-, -, dimensions, department⟩
  have column : departmentColumnOf adapter.model predicate.resource = departmentOf resource := by
    unfold departmentColumnOf
    rw [found, ← department]
    rfl
  unfold FilterStates OnDepartment
  rw [dimensions]
  constructor
  · rintro ⟨dimension, isDimension, reads, translated, -⟩
    have onColumn : departmentColumnOf adapter.model predicate.resource =
        some predicate.column := by
      unfold departmentFilter at translated
      split at translated
      · assumption
      · cases translated
    rcases departmentFilter_sent isSent isForced onColumn with ⟨member, isView, same, -⟩
    have isMember := toView_dotted servable isMap inside (named ▸ isView)
    rw [translated, Except.ok.injEq, Option.some.injEq, CubeFilter.item.injEq] at same
    have sameName := viewMember_inj.mp (same.1.trans isMember)
    refine ⟨column.symm.trans onColumn, ?_⟩
    have same : dimension = ⟨predicate.column, predicate.column⟩ := by
      cases dimension
      rw [CubeDimension.mk.injEq]
      exact ⟨sameName, reads⟩
    rwa [same] at isDimension
  · rintro ⟨isColumn, isDimension⟩
    rcases departmentFilter_sent isSent isForced (column.trans isColumn) with
      ⟨member, isView, translated, isFilter⟩
    have isMember := toView_dotted servable isMap inside (named ▸ isView)
    rw [isMember] at translated isFilter
    exact ⟨_, isDimension, rfl, translated, isFilter⟩

/-- **A sent request enforces every forced predicate exactly when each is an equality
that its resource fixes, or stands on a department column that is read under its own
name.** -/
theorem enforced_iff_accountedFor (isModel : generateCubeModel adapter.bundle = .ok adapter.model)
    (isMap : memberMap adapter.model = .ok adapter.members)
    (servable : Servable adapter.model)
    (isSent : adapter.execute clock parts scope = .ok payload) :
    EnforcesForced adapter scope payload ↔ ∀ predicate ∈ scope.forced,
        AccountedFor adapter.bundle adapter.principal predicate := by
  apply forall₂_congr
  intro predicate isForced
  unfold Enforced AccountedFor
  rw [(carried_of_execute isSent).1]
  constructor
  · rintro ⟨cube, found, enforced⟩
    rcases (cubeNamed_generated isModel).mp found with ⟨resource, isResource, isCube⟩
    rw [relationStates_iff isCube,
      filterStates_iff servable isMap isSent isForced isCube found] at enforced
    exact ⟨resource, isResource, enforced⟩
  · rintro ⟨resource, isResource, accounted⟩
    rcases cubeFor_of_generated isModel (mem_of_find?_eq_some isResource) with
      ⟨cube, isCube⟩
    have found := (cubeNamed_generated isModel).mpr ⟨resource, isResource, isCube⟩
    rw [← relationStates_iff isCube,
      ← filterStates_iff servable isMap isSent isForced isCube found] at accounted
    exact ⟨cube, found, accounted⟩

end Sent

theorem accountedFor_of_forcedForResource {resource : ResourceBinding}
    {principal : Principal} {forced : List ForcedPredicate}
    (isFirst : firstResource bundle resource.name = some resource)
    (reads : ∀ column, departmentOf resource = some column →
      ⟨column, column⟩ ∈ dimensionsFor resource bundle)
    (isForced : Scoping.forcedForResource resource principal = .ok forced) :
    ∀ predicate ∈ forced, AccountedFor bundle principal predicate := by
  rcases bind_eq_ok.mp isForced with ⟨entity, isEntity, isForced⟩
  rcases bind_eq_ok.mp isForced with ⟨department, isDepartment, isForced⟩
  cases isForced
  intro predicate inside
  rcases List.mem_append.mp inside with inside | ofRecord
  · rcases List.mem_append.mp inside with ofEntity | ofDepartment
    · unfold Scoping.entityPredicates at isEntity
      split at isEntity
      · cases isEntity
        cases ofEntity
      · next stays =>
          split at isEntity
          · next column entity isColumn known =>
              cases isEntity
              cases List.mem_singleton.mp ofEntity
              exact ⟨resource, isFirst, .inl ⟨rfl, _, rfl, .inr ⟨isColumn,
                Bool.eq_false_iff.mpr stays, entity, known, rfl⟩⟩⟩
          · cases isEntity
    · unfold Scoping.departmentPredicates at isDepartment
      simp only at isDepartment
      split at isDepartment
      · cases isDepartment
      · cases isDepartment
        cases ofDepartment
      · cases isDepartment
        cases ofDepartment
      · next column isColumn restricts =>
          have isDepartmentOf : departmentOf resource = some column := by
            unfold departmentOf
            rw [if_neg restricts, isColumn]
          split at isDepartment
          · split at isDepartment
            · cases isDepartment
            · cases isDepartment
              cases ofDepartment
          · cases isDepartment
            cases List.mem_singleton.mp ofDepartment
            exact ⟨resource, isFirst, .inr ⟨isDepartmentOf, reads column isDepartmentOf⟩⟩
  · rcases List.mem_map.mp ofRecord with ⟨⟨column, value⟩, isRecord, rfl⟩
    exact ⟨resource, isFirst, .inl ⟨rfl, value, rfl, .inl isRecord⟩⟩

def job : ResourceBinding where
  name := "job"
  projectionView := "ai_jobs"
  primaryKey := "id"
  departmentScopeMode := .filterWhenPresent
  recordPredicates := [("kind", .text "print")]
  scopeColumns := { entity := some "entity_id", department := some "department_id" }

def jobKind : DimensionDefinition where
  name := "job.kind"
  owningResource := "job"
  sqlExpression := "kind"
  type := .string

def jobsCount : MeasureDefinition where
  name := "jobs_count"
  owningResource := "job"
  sqlExpression := "COUNT(*)"
  aggType := .count

def printBundle : DefinitionBundle where
  contentHash := "hash"
  resources := [job]
  measures := [jobsCount]
  dimensions := [jobKind]
  capabilities := []

def printModel : CubeModel where
  cubes := [{
    name := "job"
    projectionView := "ai_jobs"
    relation := [.equals "kind" (.text "print"), .entityScope "entity_id"]
    dimensions := [⟨"kind", "kind"⟩, ⟨"department_id", "department_id"⟩]
    measures := ["jobs_count"]
    relationColumns := ["entity_id", "kind"]
    departmentColumn := some "department_id" }]
  viewName := "business"
  bundleHash := "hash"
  generatorVersion := "1"

theorem generated_printModel : generateCubeModel printBundle = .ok printModel := by
  decide +kernel

def printMembers : CubeMemberMap where
  planToView := [("job.kind", "business.job_kind"),
    ("job.department_id", "business.job_department_id"),
    ("jobs_count", "business.job_jobs_count")]
  planNames := by decide
  viewNames := by decide

theorem memberMap_printModel : memberMap printModel = .ok printMembers := by
  rfl

theorem servable_printModel : Servable printModel := by
  constructor
  · intro cube inside
    cases List.mem_singleton.mp inside
    decide
  · intro cube inside name isMeasure
    cases List.mem_singleton.mp inside
    cases List.mem_singleton.mp isMeasure
    decide

def printer : Principal where
  role := "printer"
  entityId := some 3
  scopeValues := some { departmentId := some 5 }

def printPlan : BusinessQueryPlan where
  grain := .scalar
  measures := ["jobs_count"]

def printAdapter : CubeAdapter where
  principal := printer
  bundle := printBundle
  model := printModel
  members := printMembers
  businessTimezone := "UTC"
  modelRevision := "revision"
  expectedBundleHash := "hash"
  databaseIdentity := "database"
  agreedShapes := [PlanShapes.planShapeKey printPlan]

def plainParts : FilterCompilation.CompilerParts where
  normalise value := value
  lowerAttributePredicate _ := .ok ()
  compileSet _ := .ok ()
  withinOneBucket _ _ := true

def roleForced : List ForcedPredicate := [
  ⟨"job", "entity_id", .eq, [.integer 3], .principalScope⟩,
  ⟨"job", "department_id", .eq, [.integer 5], .principalScope⟩,
  ⟨"job", "kind", .eq, [.text "print"], .principalScope⟩]

def signReferent : ForcedPredicate :=
  ⟨"job", "kind", .eq, [.text "sign"], .recordReferent⟩

def printScope (referents : List ForcedPredicate) : ScopedPlan where
  plan := printPlan
  resources := ["job"]
  forced := roleForced ++ referents
  principal := some printer
  bundleHash := some "hash"

def printPayload : Payload where
  query := {
    measures := ["business.job_jobs_count"]
    dimensions := []
    limit := 20
    timezone := "UTC"
    filters := [.item "business.job_department_id" "equals" (some ["5"])]
    timeDimensions := []
    order := [] }
  securityContext := principalSecurityContext printer
  bundleHash := "hash"
  modelRevision := "revision"

theorem execute_role :
    printAdapter.execute (.ok 0) plainParts (printScope []) = .ok printPayload := by
  rfl

theorem execute_sign : printAdapter.execute (.ok 0) plainParts (printScope [signReferent]) =
      .ok printPayload := by
  rfl

theorem accountedFor_role : ∀ predicate ∈ (printScope []).forced,
    AccountedFor printBundle printer predicate := by
  apply @accountedFor_of_forcedForResource printBundle job printer roleForced
  · rfl
  · intro column isColumn
    cases isColumn
    decide +kernel
  · rfl

theorem enforced_iff_accountedFor_role : EnforcesForced printAdapter (printScope []) printPayload :=
  (@enforced_iff_accountedFor printAdapter (.ok 0) plainParts (printScope []) printPayload
    generated_printModel memberMap_printModel servable_printModel
    execute_role).mpr accountedFor_role

/-- A record hint on a column of the relation: the request is sent, and nothing in it
asks for the hinted value. -/
theorem not_enforcesForced_of_referent : ValueResolution.applyOwnerHintScope (printScope [])
        { resourceType := "job", recordId := .name "sign", bindingMember := some "job.kind" }
        printBundle = .ok (printScope [signReferent]) ∧
      printAdapter.execute (.ok 0) plainParts (printScope [signReferent]) = .ok printPayload ∧
      ¬ EnforcesForced printAdapter (printScope [signReferent]) printPayload := by
  refine ⟨rfl, execute_sign, ?_⟩
  intro enforces
  rcases enforces signReferent (by decide) with ⟨cube, found, states | states⟩
  · cases found
    rcases states with ⟨-, condition, inside, value, values, fixed⟩
    cases values
    rcases List.mem_cons.mp inside with rfl | inside
    · exact absurd fixed (by decide)
    · cases List.mem_singleton.mp inside
      exact absurd fixed (by decide)
  · rcases states with ⟨dimension, -, -, translated, -⟩
    cases translated

end McpAssistant.BusinessQuery.CubeEnforcement
