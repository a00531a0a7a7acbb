import McpAssistant.BusinessQuery.Scoping

/-!
# Is role scoping sound for visibility?

The check looks members up by name; the compiler reads the first capability of
a name and, for a predicate that pins no revision, the current revision of its
family.  The two agree except where one name has several bundle entries.

`applyRoleScope_visible_iff` states exactly when everything the compiler reads
is permitted.
-/

namespace McpAssistant.BusinessQuery.VisibilitySoundness

open Definitions FilterTree QueryPlan Visibility Scopes Scoping List

/-- The member names the compiler resolves through capabilities. -/
def capabilityMembers (plan : PlanNode) : List String :=
  plan.measures ++ plan.dimensions ++ plan.bucketSet.toList ++
    (planFilters (iterFilterLeaves plan.filters)).map PlanFilter.member ++
    (planFilters (iterFilterLeaves plan.having)).map PlanFilter.member ++
    plan.period.toList.map BusinessPeriod.timeDimension ++
    plan.order.map OrderClause.member

def EntryVisible (principal : Principal) (entry : CapabilityEntry) : Prop :=
  entry.capabilityState = .enabled ∧ permissionsSatisfied entry principal = true

structure ReadsPermitted (principal : Principal) (bundle : DefinitionBundle)
    (plan : PlanNode) : Prop where
  capabilities : ∀ member ∈ capabilityMembers plan, ∀ entry,
    capabilityNamed bundle member = some entry → EntryVisible principal entry
  predicates : ∀ predicate ∈ attributePredicatesOf plan, ∀ detail,
    resolveDetailDefinition bundle predicate.familyKey predicate.revisionHash = some detail →
      detailPermissionsSatisfied detail principal = true
  selections : ∀ selection ∈ plan.detailSelections, (∀ detail ∈ selectedRevisions bundle selection,
      detailPermissionsSatisfied detail principal = true) ∧
      ∀ detail, resolveDetailDefinition bundle selection.family
            selection.revisionHash = some detail →
          detailPermissionsSatisfied detail principal = true

def SharedName (bundle : DefinitionBundle) (member : String) : Prop :=
  1 < (bundle.capabilities.filter fun entry => entry.name == member).length ∨
    definitionsFor bundle member ≠ []

def SharedFamily (bundle : DefinitionBundle) (familyKey : String) : Prop :=
  1 < (definitionsFor bundle familyKey).length ∨
    ∃ entry ∈ bundle.capabilities, entry.name = familyKey

/-- Where a name or a family has several entries, the one the compiler reads is
permitted. -/
structure SharedEntriesPermitted (principal : Principal)
    (bundle : DefinitionBundle) (plan : PlanNode) : Prop where
  firstEntry : ∀ member ∈ capabilityMembers plan, SharedName bundle member →
    ∀ entry, capabilityNamed bundle member = some entry → EntryVisible principal entry
  currentRevision : ∀ predicate ∈ attributePredicatesOf plan,
    predicate.revisionHash = none → SharedFamily bundle predicate.familyKey → ∀ detail,
        resolveDetailDefinition bundle predicate.familyKey = some detail →
          detailPermissionsSatisfied detail principal = true

variable {principal : Principal} {bundle : DefinitionBundle}

theorem mem_localPlanMemberNames_of_mem_capabilityMembers {plan : PlanNode}
    {member : String} (named : member ∈ capabilityMembers plan) :
    member ∈ localPlanMemberNames plan := by
  simp only [capabilityMembers, localPlanMemberNames, collectFilterMembers,
    mem_append, mem_map, mem_planFilters] at named ⊢
  rcases named with (((((measure | dimension) | bucket) | ⟨leaf, filtered, rfl⟩) |
    ⟨leaf, had, rfl⟩) | period) | order
  · simp [measure]
  · simp [dimension]
  · simp [bucket]
  · exact .inl (.inl (.inl (.inl (.inl (.inr ⟨_, filtered, rfl⟩)))))
  · exact .inl (.inl (.inl (.inl (.inr ⟨_, had, rfl⟩))))
  · exact .inl (.inr period)
  · exact .inr order

theorem entryVisible_of_not_sharedName {member : String}
    (visible : member ∈ visibleMembers principal bundle)
    (single : ¬SharedName bundle member) {entry : CapabilityEntry}
    (found : capabilityNamed bundle member = some entry) :
    EntryVisible principal entry := by
  simp only [SharedName, not_or, not_lt, ne_eq, not_not] at single
  obtain ⟨atMostOne, noFamily⟩ := single
  rcases mem_visibleMembers.mp visible with
    ⟨other, declared, name, state, granted⟩ | ⟨detail, declared, family, -⟩
  · have foundIn : entry ∈ bundle.capabilities.filter fun entry =>
        entry.name == member := by
      simp [mem_capabilities_of_capabilityNamed found, capabilityNamed_name found]
    have otherIn : other ∈ bundle.capabilities.filter fun entry =>
        entry.name == member := by
      simp [declared, name]
    have same : other = entry := by
      match names : bundle.capabilities.filter fun entry =>
          entry.name == member with
      | [] => simp [names] at foundIn
      | [only] =>
        rw [names, mem_singleton] at foundIn otherIn
        rw [foundIn, otherIn]
      | _ :: _ :: _ => simp [names] at atMostOne
    exact same ▸ ⟨state, granted⟩
  · have inFamily : detail ∈ definitionsFor bundle member :=
      mem_definitionsFor.mpr ⟨declared, family⟩
    rw [noFamily] at inFamily
    cases inFamily

variable {detail : DetailDefinition}

theorem permitted_of_not_sharedFamily {familyKey : String}
    (visible : familyKey ∈ visibleMembers principal bundle)
    (single : ¬SharedFamily bundle familyKey)
    (resolved : resolveDetailDefinition bundle familyKey = some detail) :
    detailPermissionsSatisfied detail principal = true := by
  simp only [SharedFamily, not_or, not_lt] at single
  obtain ⟨atMostOne, noCapability⟩ := single
  rcases mem_visibleMembers.mp visible with
    ⟨entry, declared, name, -⟩ | ⟨other, declared, family, granted⟩
  · exact absurd ⟨entry, declared, name⟩ noCapability
  · have otherIn : other ∈ definitionsFor bundle familyKey :=
      mem_definitionsFor.mpr ⟨declared, family⟩
    have foundIn := mem_definitionsFor_of_resolveDetailDefinition resolved
    match revisions : definitionsFor bundle familyKey with
    | [] => simp [revisions] at foundIn
    | [only] =>
      rw [revisions, mem_singleton] at foundIn otherIn
      rw [foundIn, ← otherIn]
      exact granted
    | _ :: _ :: _ => simp [revisions] at atMostOne

theorem permitted_of_pinned {predicate : AttributePredicate} {hash : String}
    (pinned : predicate.revisionHash = some hash)
    (passed : pinnedPredicatePermitted principal bundle predicate = true)
    (resolved : resolveDetailDefinition bundle predicate.familyKey (some hash) = some detail) :
    detailPermissionsSatisfied detail principal = true := by
  rw [resolveDetailDefinition] at resolved
  simpa [pinnedPredicatePermitted, pinned, resolved] using passed

theorem mem_selectedRevisions_of_resolve {selection : DetailSelection}
    (permitted : selectionPermitted principal bundle selection = true)
    (resolved : resolveDetailDefinition bundle selection.family
      selection.revisionHash = some detail) :
    detail ∈ selectedRevisions bundle selection := by
  simp only [selectionPermitted, Bool.and_eq_true, Bool.not_eq_true'] at permitted
  obtain ⟨⟨⟨-, nonempty⟩, -⟩, -⟩ := permitted
  unfold resolveDetailDefinition at resolved
  rw [selectedRevisions] at nonempty ⊢
  cases hash : selection.revisionHash with
  | some hash =>
    simp only [hash] at resolved
    have pinned := List.find?_some resolved
    exact List.mem_filter.mpr ⟨mem_of_find?_eq_some resolved, pinned⟩
  | none =>
    simp only [hash] at resolved nonempty ⊢
    split
    · -- the current mode: the only revision, or the current one of several
      rename_i current
      rw [if_pos current] at nonempty
      split at resolved
      · rename_i only alone
        cases resolved
        rw [alone] at nonempty ⊢
        cases isCurrent : detail.isCurrent with
        | true => simp [isCurrent]
        | false => simp [isCurrent] at nonempty
      · have isCurrent := List.find?_some resolved
        exact List.mem_filter.mpr ⟨mem_of_find?_eq_some resolved, isCurrent⟩
    · split at resolved
      · rename_i only alone
        cases resolved
        simp [alone]
      · exact mem_of_find?_eq_some resolved

theorem readsPermitted_iff {plan : BusinessQueryPlan}
    (visible : checkMemberVisibility plan principal bundle = none) :
    ReadsPermitted principal bundle plan.toPlanNode ↔
      SharedEntriesPermitted principal bundle plan.toPlanNode := by
  obtain ⟨members, pinned, selected⟩ := checkMemberVisibility_eq_none.mp visible
  have localVisible : ∀ member ∈ localPlanMemberNames plan.toPlanNode,
      member ∈ visibleMembers principal bundle := by
    intro member named
    exact members member (mem_planMemberNames.mpr (.inl named))
  constructor
  · intro reads
    constructor
    · intro member named _
      exact reads.capabilities member named
    · intro predicate isPredicate unpinned _ detail resolved
      apply reads.predicates predicate isPredicate detail
      rw [unpinned]
      exact resolved
  · intro shared
    constructor
    · intro member named entry found
      by_cases isShared : SharedName bundle member
      · exact shared.firstEntry member named isShared entry found
      · have isVisible := localVisible member
          (mem_localPlanMemberNames_of_mem_capabilityMembers named)
        exact entryVisible_of_not_sharedName isVisible isShared found
    · intro predicate isPredicate detail resolved
      cases hash : predicate.revisionHash with
      | some hash' =>
        rw [hash] at resolved
        exact permitted_of_pinned hash (pinned predicate isPredicate) resolved
      | none =>
        rw [hash] at resolved
        by_cases isShared : SharedFamily bundle predicate.familyKey
        · exact shared.currentRevision predicate isPredicate hash isShared detail resolved
        · have isVisible := localVisible _ (familyKey_mem_localPlanMemberNames isPredicate)
          exact permitted_of_not_sharedFamily isVisible isShared resolved
    · intro selection isSelection
      have permitted := selected selection isSelection
      have all : ∀ detail ∈ selectedRevisions bundle selection,
          detailPermissionsSatisfied detail principal = true := by
        simp only [selectionPermitted, Bool.and_eq_true, all_eq_true] at permitted
        exact permitted.2
      constructor
      · exact all
      · intro detail resolved
        exact all detail (mem_selectedRevisions_of_resolve permitted resolved)

/-- After role scoping, the root and every derived plan read permitted entries
only, exactly when each of them reads permitted entries where several share a
name. -/
theorem applyRoleScope_visible_iff {businessDate : Option Int}
    {plan : BusinessQueryPlan} {scope : ScopedPlan}
    (succeeded : applyRoleScope principal bundle businessDate plan = .ok scope) :
    (∀ part, Part scope part → ReadsPermitted principal bundle part.plan.toPlanNode) ↔
      ∀ inner, PlanPart plan inner → SharedEntriesPermitted principal bundle inner.toPlanNode := by
  constructor
  · intro reads inner inside
    obtain ⟨part, earlier, isPart, node⟩ :=
      exists_part_of_planPart succeeded inside
    have permitted := reads part isPart
    rw [node.samePlan] at permitted
    exact (readsPermitted_iff node.visible).mp permitted
  · intro shared
    have step : ∀ earlier inner part, PlanPart plan inner →
        ScopedNode principal bundle businessDate earlier inner part →
          ReadsPermitted principal bundle part.plan.toPlanNode := by
      intro earlier inner part inside node
      rw [node.samePlan]
      exact (readsPermitted_iff node.visible).mpr (shared inner inside)
    exact forall_part_of_applyRoleScope step succeeded

/-- A family with an old revision open to job viewers and a current one that
needs a cost grant. -/
def marginBundle : DefinitionBundle where
  contentHash := "sha256:margin"
  resources := [
    { name := "job", projectionView := "ai_v1_bq_job_fact"
      primaryKey := "id", departmentScopeMode := .none
      scopeColumns := ⟨some "entity_id", none⟩ }]
  dimensions := [
    { name := "job.title", owningResource := "job", sqlExpression := "title"
      type := .string }]
  capabilities := [
    { name := "job.title", kind := .dimension, resolvesTo := "job.title"
      requiredPermissions := ["view job"], capabilityState := .enabled }]
  detailDefinitions := [
    { familyKey := "job.margin", revisionHash := "sha256:old"
      ownerResource := "job", requiredPermissions := ["view job"]
      isCurrent := false },
    { familyKey := "job.margin", revisionHash := "sha256:new"
      ownerResource := "job", requiredPermissions := ["view cost"] }]

def jobViewer : Principal where
  role := "viewer"
  permissions := ["view job"]
  entityId := some 1

/-- Jobs by title, filtered on the margin family without pinning a revision. -/
def jobsByMargin : BusinessQueryPlan where
  dimensions := ["job.title"]
  attributePredicates := [
    { familyKey := "job.margin", operator := .gt, values := [.integer 40] }]
  grain := .entityRows

def jobsByMarginScope : ScopedPlan where
  plan := jobsByMargin
  resources := ["job"]
  forced := [⟨"job", "entity_id", .eq, [.integer 1], .principalScope⟩]
  principal := some jobViewer
  bundleHash := some "sha256:margin"

theorem applyRoleScope_jobsByMargin : applyRoleScope jobViewer marginBundle none jobsByMargin =
      .ok jobsByMarginScope := by
  rfl

theorem applyRoleScope_visible_iff_jobsByMargin : (∀ part, Part jobsByMarginScope part →
        ReadsPermitted jobViewer marginBundle part.plan.toPlanNode) ↔
      ∀ inner, PlanPart jobsByMargin inner →
        SharedEntriesPermitted jobViewer marginBundle inner.toPlanNode :=
  applyRoleScope_visible_iff applyRoleScope_jobsByMargin

/-- The bundle passes its own checks on detail families, the plan is scoped, and
yet the predicate resolves to a revision the viewer has no grant for. -/
theorem applyRoleScope_reads_hidden_revision : DetailRevisionsValid marginBundle ∧
      applyRoleScope jobViewer marginBundle none jobsByMargin = .ok jobsByMarginScope ∧
      ¬∀ part, Part jobsByMarginScope part →
        ReadsPermitted jobViewer marginBundle part.plan.toPlanNode := by
  refine ⟨⟨by decide, by decide, by decide⟩, applyRoleScope_jobsByMargin, ?_⟩
  intro reads
  have hidden := (reads jobsByMarginScope .self).predicates
    { familyKey := "job.margin", operator := .gt, values := [.integer 40] }
    (by decide)
    { familyKey := "job.margin", revisionHash := "sha256:new"
      ownerResource := "job", requiredPermissions := ["view cost"] }
    (by decide)
  revert hidden
  decide

end McpAssistant.BusinessQuery.VisibilitySoundness
