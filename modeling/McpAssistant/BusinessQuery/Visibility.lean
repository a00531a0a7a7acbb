import McpAssistant.BusinessQuery.QueryPlan

/-!
# Which members a principal may name

A capability is visible when it is enabled and the principal holds all of its
required permissions, of which there must be at least one.  A detail family is
visible by name as soon as one of its revisions is permitted; a plan that pins
a revision has that revision checked on its own.
-/

namespace McpAssistant.BusinessQuery.Visibility

open Definitions FilterTree QueryPlan

structure ScopeValues where
  departmentId : Option Int := none
deriving DecidableEq

structure Principal where
  role : String
  permissions : List String := []
  entityId : Option Int := none
  crossEntity : Option Bool := none
  scopeValues : Option ScopeValues := none
deriving DecidableEq

/-- Only an explicit `True` lifts the entity scope. -/
def Principal.isCrossEntity (principal : Principal) : Bool :=
  principal.crossEntity.getD false

def permissionsSatisfied (entry : CapabilityEntry) (principal : Principal) : Bool :=
  !entry.requiredPermissions.isEmpty && entry.requiredPermissions.all fun permission =>
      principal.permissions.contains permission

def visibleEntries (principal : Principal) (bundle : DefinitionBundle) : List CapabilityEntry :=
  bundle.capabilities.filter fun entry =>
    entry.capabilityState == .enabled && permissionsSatisfied entry principal

/-- The grant a detail definition without explicit permissions falls back on. -/
def ownerPermission (owner : String) : String :=
  "view " ++ String.ofList (owner.toList.map fun letter => if letter = '_' then ' ' else letter)

def detailPermissionsSatisfied (detail : DetailDefinition) (principal : Principal) : Bool :=
  let required :=
    if detail.requiredPermissions.isEmpty then
      [ownerPermission detail.ownerResource]
    else
      detail.requiredPermissions
  principal.role == "superadmin" ||
    required.all fun permission => principal.permissions.contains permission

/-- The names a principal may put on a plan: visible capabilities and families
with a permitted revision. -/
def visibleMembers (principal : Principal) (bundle : DefinitionBundle) : List String :=
  (visibleEntries principal bundle).map CapabilityEntry.name ++
    (bundle.detailDefinitions.filter fun detail =>
      detailPermissionsSatisfied detail principal).map DetailDefinition.familyKey

variable {principal : Principal} {bundle : DefinitionBundle}

theorem mem_visibleMembers {member : String} : member ∈ visibleMembers principal bundle ↔
      (∃ entry ∈ bundle.capabilities, entry.name = member ∧ entry.capabilityState = .enabled ∧
          permissionsSatisfied entry principal = true) ∨
        ∃ detail ∈ bundle.detailDefinitions, detail.familyKey = member ∧
          detailPermissionsSatisfied detail principal = true := by
  simp only [visibleMembers, visibleEntries, List.mem_append, List.mem_map,
    List.mem_filter, Bool.and_eq_true, beq_iff_eq]
  constructor
  · rintro (⟨entry, ⟨declared, state, granted⟩, name⟩ | ⟨detail, ⟨declared, granted⟩, name⟩)
    · exact .inl ⟨entry, declared, name, state, granted⟩
    · exact .inr ⟨detail, declared, name, granted⟩
  · rintro (⟨entry, declared, name, state, granted⟩ | ⟨detail, declared, name, granted⟩)
    · exact .inl ⟨entry, ⟨declared, state, granted⟩, name⟩
    · exact .inr ⟨detail, ⟨declared, granted⟩, name⟩

/-- A name nothing in the bundle answers to, or one the principal cannot see. -/
inductive VisibilityViolation where
  | unknown (members : List String)
  | unauthorized
deriving DecidableEq

/-- A pinned predicate names a permitted revision; an unpinned one passes. -/
def pinnedPredicatePermitted (principal : Principal) (bundle : DefinitionBundle)
    (predicate : AttributePredicate) : Bool :=
  match predicate.revisionHash with
  | none => true
  | some hash =>
    match (definitionsFor bundle predicate.familyKey).find? fun detail =>
        detail.revisionHash == hash with
    | none => false
    | some detail => detailPermissionsSatisfied detail principal

def selectedRevisions (bundle : DefinitionBundle) (selection : DetailSelection) :
    List DetailDefinition :=
  let revisions := definitionsFor bundle selection.family
  match selection.revisionHash with
  | some hash => revisions.filter fun detail => detail.revisionHash == hash
  | none =>
    if selection.revisionMode = .current then
      revisions.filter DetailDefinition.isCurrent
    else
      revisions

def selectionPermitted (principal : Principal) (bundle : DefinitionBundle)
    (selection : DetailSelection) : Bool :=
  let revisions := selectedRevisions bundle selection
  selection.revisionMode != .asOf &&
    (selection.revisionMode == .exact) == selection.revisionHash.isSome &&
    !revisions.isEmpty &&
    (!(selection.revisionMode == .current || selection.revisionMode == .exact) ||
      revisions.length == 1) &&
    revisions.all fun detail => detailPermissionsSatisfied detail principal

def checkMemberVisibility (plan : BusinessQueryPlan) (principal : Principal)
    (bundle : DefinitionBundle) : Option VisibilityViolation :=
  let members := planMemberNames plan
  let allowed := visibleMembers principal bundle
  let declared := bundle.capabilities.map CapabilityEntry.name ++
    bundle.detailDefinitions.map DetailDefinition.familyKey
  if members.all fun member => allowed.contains member then
    if (attributePredicatesOf plan.toPlanNode).all (pinnedPredicatePermitted principal bundle) &&
        plan.detailSelections.all (selectionPermitted principal bundle) then
      none
    else
      some .unauthorized
  else if members.all fun member => declared.contains member then
    some .unauthorized
  else
    some (.unknown (sortedSet (members.filter fun member => !declared.contains member)))

theorem checkMemberVisibility_eq_none {plan : BusinessQueryPlan} :
    checkMemberVisibility plan principal bundle = none ↔ (∀ member ∈ planMemberNames plan,
        member ∈ visibleMembers principal bundle) ∧
      (∀ predicate ∈ attributePredicatesOf plan.toPlanNode,
        pinnedPredicatePermitted principal bundle predicate = true) ∧
      ∀ selection ∈ plan.detailSelections,
        selectionPermitted principal bundle selection = true := by
  rw [checkMemberVisibility]
  split
  · rename_i allowed
    have visible : ∀ member ∈ planMemberNames plan, member ∈ visibleMembers principal bundle := by
      simpa using allowed
    split
    · rename_i permitted
      simp only [Bool.and_eq_true, List.all_eq_true] at permitted
      simp only [true_iff]
      exact ⟨visible, permitted.1, permitted.2⟩
    · rename_i rejected
      simp only [Bool.and_eq_true, List.all_eq_true] at rejected
      simp only [reduceCtorEq, false_iff]
      rintro ⟨-, predicates, selections⟩
      exact rejected ⟨predicates, selections⟩
  · rename_i hidden
    have invisible : ¬∀ member ∈ planMemberNames plan,
        member ∈ visibleMembers principal bundle := by
      simpa using hidden
    split
    · simp only [reduceCtorEq, false_iff]
      rintro ⟨visible, -⟩
      exact invisible visible
    · simp only [reduceCtorEq, false_iff]
      rintro ⟨visible, -⟩
      exact invisible visible

end McpAssistant.BusinessQuery.Visibility
