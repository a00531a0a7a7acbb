import McpAssistant.BusinessQuery.JoinSearch
import McpAssistant.BusinessQuery.SetKeys

/-!
# Role scoping

Scoping checks that every member of a plan is visible, finds the resources the
plan touches, covers them with joins, and forces the principal's predicates on
every resource of the cover.  Derived sets are scoped first to last, each
seeing the sets declared before it.
-/

namespace McpAssistant.BusinessQuery.Scoping

open Definitions FilterTree QueryPlan Visibility Scopes SetKeys JoinSearch
  Outcomes Foundations.Fallible

/-- The equality to the principal's entity. -/
def entityPredicates (binding : ResourceBinding) (principal : Principal) :
    Except Raised (List ForcedPredicate) :=
  if principal.isCrossEntity then
    .ok []
  else
    match binding.scopeColumns.entity, principal.entityId with
    | some column, some entity =>
      .ok [⟨binding.name, column, .eq, [.integer entity], .principalScope⟩]
    | _, _ => .error denied

/-- The equality to the principal's department, where the resource's mode asks
for one. -/
def departmentPredicates (binding : ResourceBinding) (principal : Principal) :
    Except Raised (List ForcedPredicate) :=
  let departmentId := principal.scopeValues.bind ScopeValues.departmentId
  match binding.scopeColumns.department, binding.departmentScopeMode with
  | none, .requiredMatch => .error denied
  | none, _ => .ok []
  | some _, .none => .ok []
  | some column, mode =>
    match departmentId with
    | none => if mode = .requiredMatch then .error denied else .ok []
    | some department =>
      .ok [⟨binding.name, column, .eq, [.integer department], .principalScope⟩]

/-- The resource's own fixed predicates. -/
def recordPredicates (binding : ResourceBinding) : List ForcedPredicate :=
  binding.recordPredicates.map fun (column, value) =>
    ⟨binding.name, column, .eq, [value], .principalScope⟩

def forcedForResource (binding : ResourceBinding) (principal : Principal) :
    Except Raised (List ForcedPredicate) := do
  let entity ← entityPredicates binding principal
  let department ← departmentPredicates binding principal
  return entity ++ department ++ recordPredicates binding

def memberOwner (bundle : DefinitionBundle) (member : String) : Option String :=
  match (capabilityNamed bundle member).bind (owningResource bundle) with
  | some owner => some owner
  | none =>
    (resolveDetailDefinition bundle member).map DetailDefinition.ownerResource

def requiredOwner (bundle : DefinitionBundle) (member : String) : Except Raised String :=
  match memberOwner bundle member with
  | some owner => .ok owner
  | none => .error denied

/-- The owners of all members. -/
def requiredResources (bundle : DefinitionBundle) (members : List String) :
    Except Raised (List String) :=
  members.mapM (requiredOwner bundle)

theorem requiredOwner_eq_ok {bundle : DefinitionBundle} {member name : String} :
    requiredOwner bundle member = .ok name ↔ memberOwner bundle member = some name := by
  rw [requiredOwner]
  cases memberOwner bundle member <;> simp

def forcedForCover (bundle : DefinitionBundle) (principal : Principal)
    (resources : List String) : Except Raised (List ForcedPredicate) :=
  (resources.mapM fun name =>
    match resourceNamed bundle name with
    | some binding => forcedForResource binding principal
    | none => .error denied).map List.flatten

/-- An unknown name is a capability limit; a hidden one is a denial. -/
def assertVisible (plan : BusinessQueryPlan) (principal : Principal)
    (bundle : DefinitionBundle) : Except Raised Unit :=
  match checkMemberVisibility plan principal bundle with
  | none => .ok ()
  | some (.unknown _) => .error (refused .memberNotFound)
  | some .unauthorized => .error denied

def assertSetFiltersCompatible (bundle : DefinitionBundle) (plan : PlanNode)
    (inScope : List (ScopedDerivedSet ScopedPlan)) : Except Raised Unit :=
  (planFilters (iterFilterLeaves plan.filters)).forM fun leaf =>
    match leaf.setId with
    | none => .ok ()
    | some setId =>
      match inScope.reverse.find? fun item => item.id == setId with
      | none => .error (refused .memberNotFound)
      | some item =>
        assertSetKeyCompatible bundle leaf.member item (leaf.operator == .notInSet)

section Scope

variable (principal : Principal) (bundle : DefinitionBundle) (businessDate : Option Int)

mutual

def applyRoleScopeImpl (earlier : List (ScopedDerivedSet ScopedPlan)) :
    BusinessQueryPlan → Except Raised ScopedPlan
  | ⟨node, sets⟩ => do
    assertVisible ⟨node, sets⟩ principal bundle
    let required ← requiredResources bundle (localPlanMemberNames node)
    let resources ← resolveJoinCover bundle.joins required
    let forced ← forcedForCover bundle principal resources
    let derived ← scopeDerivedSets [] sets
    let inScope := earlier ++ derived
    assertSetFiltersCompatible bundle node inScope
    return {
      plan := ⟨node, sets⟩
      resources := resources
      forced := forced
      derived := inScope
      principal := some principal
      businessDate := businessDate
      bundleHash := some bundle.contentHash }

/-- Scopes the declared sets in order; each sees the ones before it. -/
def scopeDerivedSets (derived : List (ScopedDerivedSet ScopedPlan)) :
    List (DerivedSet BusinessQueryPlan) → Except Raised (List (ScopedDerivedSet ScopedPlan))
  | [] => .ok derived
  | ⟨id, mode, key, plan⟩ :: sets => do
    let inner ← applyRoleScopeImpl derived plan
    scopeDerivedSets (derived ++ [⟨id, key, mode, inner⟩]) sets

end

/-- The mandatory pass before compilation. -/
def applyRoleScope (plan : BusinessQueryPlan) : Except Raised ScopedPlan :=
  applyRoleScopeImpl principal bundle businessDate [] plan

end Scope

variable {principal : Principal} {bundle : DefinitionBundle}
  {businessDate : Option Int} {earlier : List (ScopedDerivedSet ScopedPlan)}
  {plan : BusinessQueryPlan} {scope : ScopedPlan}

/-- Everything one node's scoping went through. -/
structure ScopedNode (principal : Principal) (bundle : DefinitionBundle)
    (businessDate : Option Int) (earlier : List (ScopedDerivedSet ScopedPlan))
    (plan : BusinessQueryPlan) (scope : ScopedPlan) : Prop where
  visible : checkMemberVisibility plan principal bundle = none
  covered : ∃ required, requiredResources bundle (localPlanMemberNames plan.toPlanNode) =
        .ok required ∧
      resolveJoinCover bundle.joins required = .ok scope.resources
  forced : forcedForCover bundle principal scope.resources = .ok scope.forced
  derived : ∃ derived, scopeDerivedSets principal bundle businessDate [] plan.derivedSets =
        .ok derived ∧
      scope.derived = earlier ++ derived
  compatible : assertSetFiltersCompatible bundle plan.toPlanNode scope.derived = .ok ()
  samePlan : scope.plan = plan

theorem scopedNode_of_eq_ok
    (succeeded : applyRoleScopeImpl principal bundle businessDate earlier plan = .ok scope) :
    ScopedNode principal bundle businessDate earlier plan scope := by
  obtain ⟨node, sets⟩ := plan
  simp only [applyRoleScopeImpl, bind_eq_ok, pure_eq_ok] at succeeded
  obtain ⟨_, visible, required, isRequired, resources, isCover, forced,
    isForced, derived, isDerived, _, compatible, rfl⟩ := succeeded
  refine ⟨?_, ⟨required, isRequired, isCover⟩, isForced, ⟨derived, isDerived, rfl⟩, compatible, rfl⟩
  rw [assertVisible] at visible
  split at visible
  · assumption
  · cases visible
  · cases visible

variable {motive : ScopedPlan → Prop}

/-- What scoping establishes for each plan it scopes holds of every part of its
result, provided it held of the sets already in scope. -/
theorem forall_part_of_applyRoleScopeImpl (step : ∀ earlier part scope, PlanPart plan part →
      ScopedNode principal bundle businessDate earlier part scope → motive scope)
    (old : ∀ item ∈ earlier, ∀ part, Part item.scopedPlan part → motive part)
    (succeeded : applyRoleScopeImpl principal bundle businessDate earlier plan = .ok scope) :
    ∀ part, Part scope part → motive part := by
  induction plan using BusinessQueryPlan.induction generalizing earlier scope with
  | step plan ih =>
    have node := scopedNode_of_eq_ok succeeded
    obtain ⟨derived, isDerived, inScope⟩ := node.derived
    -- the sets scoped so far keep the property while the list is scoped
    have sets : ∀ (sets : List (DerivedSet BusinessQueryPlan))
        (before after : List (ScopedDerivedSet ScopedPlan)),
        (∀ item ∈ sets, item ∈ plan.derivedSets) →
        (∀ item ∈ before, ∀ part, Part item.scopedPlan part → motive part) →
        scopeDerivedSets principal bundle businessDate before sets = .ok after →
        ∀ item ∈ after, ∀ part, Part item.scopedPlan part → motive part := by
      intro sets
      induction sets with
      | nil =>
        intro before after _ kept result
        cases result
        exact kept
      | cons head rest restIH =>
        intro before after declared kept result
        have headIn := declared head List.mem_cons_self
        obtain ⟨id, mode, key, inner⟩ := head
        simp only [scopeDerivedSets, bind_eq_ok] at result
        obtain ⟨innerScope, innerScoped, result⟩ := result
        have innerParts := ih _ headIn (fun earlier part scope inside =>
            step earlier part scope (PlanPart.trans (.derived .self headIn) inside))
          kept innerScoped
        apply restIH _ after (fun item member => declared item (List.mem_cons_of_mem _ member))
          _ result
        intro item member
        rcases List.mem_append.mp member with before' | last
        · exact kept item before'
        · rw [List.mem_singleton.mp last]
          exact innerParts
    apply forall_part (step earlier plan scope .self node)
    intro item member
    rw [inScope] at member
    rcases List.mem_append.mp member with early | new
    · exact old item early
    · exact sets plan.derivedSets [] derived (fun _ member => member) (by simp) isDerived item new

theorem forall_part_of_applyRoleScope (step : ∀ earlier part scope, PlanPart plan part →
      ScopedNode principal bundle businessDate earlier part scope → motive scope)
    (succeeded : applyRoleScope principal bundle businessDate plan = .ok scope) :
    ∀ part, Part scope part → motive part :=
  forall_part_of_applyRoleScopeImpl step (by simp) succeeded

theorem scopeDerivedSets_spec {sets : List (DerivedSet BusinessQueryPlan)}
    {before after : List (ScopedDerivedSet ScopedPlan)}
    (succeeded : scopeDerivedSets principal bundle businessDate before sets = .ok after) :
    (∀ item ∈ before, item ∈ after) ∧ ∀ item ∈ sets, ∃ found ∈ after, ∃ earlier,
        applyRoleScopeImpl principal bundle businessDate earlier item.plan =
          .ok found.scopedPlan := by
  induction sets generalizing before with
  | nil =>
    cases succeeded
    simp
  | cons head rest ih =>
    obtain ⟨id, mode, key, inner⟩ := head
    simp only [scopeDerivedSets, bind_eq_ok] at succeeded
    obtain ⟨innerScope, innerScoped, result⟩ := succeeded
    obtain ⟨kept, later⟩ := ih result
    constructor
    · intro item member
      exact kept item (List.mem_append_left _ member)
    · intro item member
      rcases List.mem_cons.mp member with rfl | inRest
      · exact ⟨_, kept _ (List.mem_append_right _ List.mem_cons_self), before, innerScoped⟩
      · exact later item inRest

theorem exists_part_of_planPart
    (succeeded : applyRoleScope principal bundle businessDate plan = .ok scope)
    {inner : BusinessQueryPlan} (inside : PlanPart plan inner) :
    ∃ part earlier, Part scope part ∧
      ScopedNode principal bundle businessDate earlier inner part := by
  induction inside with
  | self => exact ⟨scope, [], .self, scopedNode_of_eq_ok succeeded⟩
  | derived _ member ih =>
    obtain ⟨part, earlier, isPart, node⟩ := ih
    obtain ⟨derived, isDerived, inScope⟩ := node.derived
    obtain ⟨found, foundIn, before, innerScoped⟩ := (scopeDerivedSets_spec isDerived).2 _ member
    refine ⟨found.scopedPlan, before, ?_, scopedNode_of_eq_ok innerScoped⟩
    apply Part.derived isPart
    rw [inScope]
    exact List.mem_append_right _ foundIn

end McpAssistant.BusinessQuery.Scoping
