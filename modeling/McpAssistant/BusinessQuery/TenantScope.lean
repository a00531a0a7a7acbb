import McpAssistant.BusinessQuery.Scoping

/-!
# Every cover resource carries the tenant scope

The root plan and every derived plan of a scoped plan have a join cover of
their own.  Each resource of a cover carries the entity equality, the
department predicate its mode demands and its record predicates, and no
predicate names a resource outside the cover.
-/

namespace McpAssistant.BusinessQuery.TenantScope

open Definitions QueryPlan Visibility Scopes JoinSearch Scoping
  Foundations.Fallible

/-- A resource belongs to the cover of a plan: it owns a member the plan names,
or it lies on the chosen path between two such owners. -/
def InJoinCover (bundle : DefinitionBundle) (plan : PlanNode) (name : String) : Prop :=
  (∃ member ∈ localPlanMemberNames plan, memberOwner bundle member = some name) ∨
    ∃ left ∈ localPlanMemberNames plan, ∃ right ∈ localPlanMemberNames plan,
      ∃ leftOwner rightOwner path, memberOwner bundle left = some leftOwner ∧
        memberOwner bundle right = some rightOwner ∧ leftOwner < rightOwner ∧
        shortestPath bundle.joins leftOwner rightOwner = some path ∧ name ∈ path

/-- The predicates a binding owes a principal are among the forced ones. -/
structure Enforced (binding : ResourceBinding) (principal : Principal)
    (forced : List ForcedPredicate) : Prop where
  entity : principal.isCrossEntity = false → ∃ column entity,
    binding.scopeColumns.entity = some column ∧ principal.entityId = some entity ∧
      ⟨binding.name, column, .eq, [.integer entity], .principalScope⟩ ∈ forced
  departmentWhenPresent : binding.departmentScopeMode = .filterWhenPresent → ∀ column department,
      binding.scopeColumns.department = some column →
        principal.scopeValues.bind ScopeValues.departmentId = some department →
          ⟨binding.name, column, .eq, [.integer department], .principalScope⟩ ∈ forced
  departmentRequired : binding.departmentScopeMode = .requiredMatch → ∃ column department,
      binding.scopeColumns.department = some column ∧
        principal.scopeValues.bind ScopeValues.departmentId = some department ∧
        ⟨binding.name, column, .eq, [.integer department], .principalScope⟩ ∈ forced
  record : ∀ column value, (column, value) ∈ binding.recordPredicates →
    ⟨binding.name, column, .eq, [value], .principalScope⟩ ∈ forced

structure TenantForced (principal : Principal) (bundle : DefinitionBundle)
    (part : ScopedPlan) : Prop where
  cover : ∀ name, name ∈ part.resources ↔ InJoinCover bundle part.plan.toPlanNode name
  owned : ∀ member ∈ localPlanMemberNames part.plan.toPlanNode, (memberOwner bundle member).isSome
  enforced : ∀ name ∈ part.resources, ∃ binding, resourceNamed bundle name = some binding ∧
      Enforced binding principal part.forced
  inside : ∀ predicate ∈ part.forced, predicate.resource ∈ part.resources

variable {binding : ResourceBinding} {principal : Principal}

theorem enforced_of_subset {own forced : List ForcedPredicate}
    (enforced : Enforced binding principal own)
    (subset : ∀ predicate ∈ own, predicate ∈ forced) :
    Enforced binding principal forced where
  entity tenantBound := by
    obtain ⟨column, entity, isColumn, isEntity, member⟩ := enforced.entity tenantBound
    exact ⟨column, entity, isColumn, isEntity, subset _ member⟩
  departmentWhenPresent mode column department isColumn isDepartment :=
    subset _ (enforced.departmentWhenPresent mode column department isColumn isDepartment)
  departmentRequired mode := by
    obtain ⟨column, department, isColumn, isDepartment, member⟩ := enforced.departmentRequired mode
    exact ⟨column, department, isColumn, isDepartment, subset _ member⟩
  record column value member := subset _ (enforced.record column value member)

theorem entityPredicates_spec {entity : List ForcedPredicate}
    (isEntity : entityPredicates binding principal = .ok entity) :
    (principal.isCrossEntity = false → ∃ column value,
      binding.scopeColumns.entity = some column ∧ principal.entityId = some value ∧
        ⟨binding.name, column, .eq, [.integer value], .principalScope⟩ ∈ entity) ∧
      ∀ predicate ∈ entity, predicate.resource = binding.name := by
  rw [entityPredicates] at isEntity
  split at isEntity
  · rename_i crossEntity
    cases isEntity
    simp [crossEntity]
  · split at isEntity
    · rename_i column value isColumn isValue
      cases isEntity
      simp [isColumn, isValue]
    · cases isEntity

theorem departmentPredicates_spec {department : List ForcedPredicate}
    (isDepartment : departmentPredicates binding principal = .ok department) :
    (binding.departmentScopeMode = .filterWhenPresent →
      ∀ column value, binding.scopeColumns.department = some column →
        principal.scopeValues.bind ScopeValues.departmentId = some value →
          ⟨binding.name, column, .eq, [.integer value], .principalScope⟩ ∈ department) ∧
      (binding.departmentScopeMode = .requiredMatch → ∃ column value,
        binding.scopeColumns.department = some column ∧
          principal.scopeValues.bind ScopeValues.departmentId = some value ∧
          ⟨binding.name, column, .eq, [.integer value], .principalScope⟩ ∈ department) ∧
      ∀ predicate ∈ department, predicate.resource = binding.name := by
  rw [departmentPredicates] at isDepartment
  split at isDepartment
  · cases isDepartment
  · -- without a department column only a required match would have failed
    rename_i noColumn notRequired
    cases isDepartment
    refine ⟨by simp [noColumn], ?_, by simp⟩
    intro required
    exact absurd required notRequired
  · rename_i column isColumn mode
    cases isDepartment
    simp [mode]
  · rename_i column mode isColumn notNone
    split at isDepartment
    · rename_i noDepartment
      split at isDepartment
      · cases isDepartment
      · rename_i notRequired
        cases isDepartment
        simp [noDepartment, notRequired]
    · rename_i value isValue
      cases isDepartment
      simp [isColumn, isValue]

theorem forcedForResource_spec {own : List ForcedPredicate}
    (forced : forcedForResource binding principal = .ok own) :
    Enforced binding principal own ∧ ∀ predicate ∈ own, predicate.resource = binding.name := by
  simp only [forcedForResource, bind_eq_ok, pure_eq_ok] at forced
  obtain ⟨entity, isEntity, department, isDepartment, rfl⟩ := forced
  obtain ⟨entityOwed, entityNames⟩ := entityPredicates_spec isEntity
  obtain ⟨whenPresent, required, departmentNames⟩ := departmentPredicates_spec isDepartment
  constructor
  · constructor
    · intro tenantBound
      obtain ⟨column, value, isColumn, isValue, member⟩ := entityOwed tenantBound
      exact ⟨column, value, isColumn, isValue, by simp [member]⟩
    · intro mode column value isColumn isValue
      have member := whenPresent mode column value isColumn isValue
      simp [member]
    · intro mode
      obtain ⟨column, value, isColumn, isValue, member⟩ := required mode
      exact ⟨column, value, isColumn, isValue, by simp [member]⟩
    · intro column value member
      apply List.mem_append_right
      exact List.mem_map.mpr ⟨(column, value), member, rfl⟩
  · intro predicate member
    simp only [List.mem_append] at member
    rcases member with (fromEntity | fromDepartment) | fromRecord
    · exact entityNames predicate fromEntity
    · exact departmentNames predicate fromDepartment
    · obtain ⟨⟨column, value⟩, -, rfl⟩ := List.mem_map.mp fromRecord
      rfl

variable {bundle : DefinitionBundle}

theorem forcedForCover_spec {resources : List String} {forced : List ForcedPredicate}
    (isForced : forcedForCover bundle principal resources = .ok forced) :
    (∀ name ∈ resources, ∃ binding, resourceNamed bundle name = some binding ∧
      Enforced binding principal forced) ∧
      ∀ predicate ∈ forced, predicate.resource ∈ resources := by
  rw [forcedForCover, map_eq_ok] at isForced
  obtain ⟨perResource, traversed, rfl⟩ := isForced
  obtain ⟨each, origin⟩ := mapM_eq_ok traversed
  constructor
  · intro name member
    obtain ⟨own, ownIn, isOwn⟩ := each name member
    split at isOwn
    · rename_i binding found
      refine ⟨binding, found, ?_⟩
      apply enforced_of_subset (forcedForResource_spec isOwn).1
      intro predicate predicateIn
      exact List.mem_flatten.mpr ⟨own, ownIn, predicateIn⟩
    · cases isOwn
  · intro predicate member
    obtain ⟨own, ownIn, predicateIn⟩ := List.mem_flatten.mp member
    obtain ⟨name, nameIn, isOwn⟩ := origin own ownIn
    split at isOwn
    · rename_i binding found
      rw [(forcedForResource_spec isOwn).2 predicate predicateIn, resourceNamed_name found]
      exact nameIn
    · cases isOwn

theorem mem_requiredResources {members required : List String}
    (isRequired : requiredResources bundle members = .ok required) :
    (∀ member ∈ members, (memberOwner bundle member).isSome) ∧ ∀ name, name ∈ required ↔
        ∃ member ∈ members, memberOwner bundle member = some name := by
  obtain ⟨each, origin⟩ := mapM_eq_ok isRequired
  simp only [requiredOwner_eq_ok] at each origin
  constructor
  · intro member memberIn
    obtain ⟨name, -, isOwner⟩ := each member memberIn
    simp [isOwner]
  · intro name
    constructor
    · exact origin name
    · rintro ⟨member, memberIn, isOwner⟩
      obtain ⟨name', nameIn, isOwner'⟩ := each member memberIn
      obtain rfl : name = name' := by simpa [isOwner] using isOwner'
      exact nameIn

variable {principal : Principal} {bundle : DefinitionBundle}
  {businessDate : Option Int} {earlier : List (ScopedDerivedSet ScopedPlan)}
  {plan : BusinessQueryPlan} {scope : ScopedPlan}

theorem tenantForced_of_scopedNode
    (node : ScopedNode principal bundle businessDate earlier plan scope) :
    TenantForced principal bundle scope := by
  obtain ⟨required, isRequired, isCover⟩ := node.covered
  obtain ⟨owned, owners⟩ := mem_requiredResources isRequired
  obtain ⟨-, -, members⟩ := resolveJoinCover_eq_ok isCover
  obtain ⟨enforced, inside⟩ := forcedForCover_spec node.forced
  refine ⟨?_, node.samePlan ▸ owned, enforced, inside⟩
  intro name
  rw [members name, InJoinCover, node.samePlan]
  simp only [owners]
  constructor
  · rintro (own | ⟨left, ⟨first, firstIn, isLeft⟩, right,
      ⟨second, secondIn, isRight⟩, less, path, isPath, onPath⟩)
    · exact .inl own
    · exact .inr ⟨first, firstIn, second, secondIn, left, right, path, isLeft,
        isRight, less, isPath, onPath⟩
  · rintro (own | ⟨first, firstIn, second, secondIn, left, right, path, isLeft,
      isRight, less, isPath, onPath⟩)
    · exact .inl own
    · exact .inr ⟨left, ⟨first, firstIn, isLeft⟩, right,
        ⟨second, secondIn, isRight⟩, less, path, isPath, onPath⟩

/-- The root and every derived plan of a scoped plan carry the tenant scope on
every resource of their join cover. -/
theorem applyRoleScope_forces_tenant
    (succeeded : applyRoleScope principal bundle businessDate plan = .ok scope) :
    ∀ part, Part scope part → TenantForced principal bundle part := by
  have step : ∀ earlier part scope, PlanPart plan part →
      ScopedNode principal bundle businessDate earlier part scope →
        TenantForced principal bundle scope := by
    intro earlier part scope _ node
    exact tenantForced_of_scopedNode node
  exact forall_part_of_applyRoleScope step succeeded

def workshopBundle : DefinitionBundle where
  contentHash := "sha256:workshop"
  resources := [
    { name := "customer", projectionView := "ai_v1_bq_customer_fact"
      primaryKey := "id", departmentScopeMode := .none
      scopeColumns := ⟨some "entity_id", none⟩ },
    { name := "job", projectionView := "ai_v1_bq_job_fact"
      primaryKey := "id", departmentScopeMode := .filterWhenPresent
      scopeColumns := ⟨some "entity_id", some "department_id"⟩ }]
  dimensions := [
    { name := "customer.name", owningResource := "customer"
      sqlExpression := "name", type := .string },
    { name := "job.title", owningResource := "job", sqlExpression := "title"
      type := .string }]
  joins := [⟨"customer", "job", .oneToMany, "id = customer_id", false⟩]
  capabilities := [
    { name := "customer.name", kind := .dimension, resolvesTo := "customer.name"
      requiredPermissions := ["view customer"], capabilityState := .enabled },
    { name := "job.title", kind := .dimension, resolvesTo := "job.title"
      requiredPermissions := ["view job"], capabilityState := .enabled }]

def workshopClerk : Principal where
  role := "clerk"
  permissions := ["view customer", "view job"]
  entityId := some 1
  crossEntity := some false
  scopeValues := some ⟨some 4⟩

def customerJobs : BusinessQueryPlan where
  dimensions := ["customer.name", "job.title"]
  grain := .entityRows

def customerJobsScope : ScopedPlan where
  plan := customerJobs
  resources := ["customer", "job"]
  forced := [
    ⟨"customer", "entity_id", .eq, [.integer 1], .principalScope⟩,
    ⟨"job", "entity_id", .eq, [.integer 1], .principalScope⟩,
    ⟨"job", "department_id", .eq, [.integer 4], .principalScope⟩]
  principal := some workshopClerk
  bundleHash := some "sha256:workshop"

theorem applyRoleScope_customerJobs :
    applyRoleScope workshopClerk workshopBundle none customerJobs = .ok customerJobsScope := by
  rfl

theorem applyRoleScope_forces_tenant_customerJobs :
    TenantForced workshopClerk workshopBundle customerJobsScope :=
  applyRoleScope_forces_tenant applyRoleScope_customerJobs customerJobsScope .self

end McpAssistant.BusinessQuery.TenantScope
