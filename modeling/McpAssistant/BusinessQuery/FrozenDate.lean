import McpAssistant.BusinessQuery.BusinessTime
import McpAssistant.BusinessQuery.ContinuedOperation

/-!
# The business date of a continued question

An executed scope carries the business date it was checked against.  The date
is stored inside the payload for derived sets, and a continued question takes
it back from there.
-/

namespace McpAssistant.BusinessQuery.FrozenDate

open Definitions QueryPlan Visibility Scopes BusinessTime ContinuedOperation
  Foundations.Calendar Foundations.Fallible

def derivedSnapshots (scope : ScopedPlan) : List DerivedScopeSnapshot :=
  scope.derived.map fun item => ⟨item.id, item.scopedPlan.forced⟩

/-- The payload of a plan with derived sets; repeated ids are not accepted. -/
def derivedPlanPayload (scope : ScopedPlan) : Option DerivedPlanPayload :=
  if distinct : ((derivedSnapshots scope).map DerivedScopeSnapshot.id).Nodup then
    some ⟨scope.businessDate, derivedSnapshots scope, distinct⟩
  else
    none

theorem sameNames_iff {left right : List String} :
    sameNames left right = true ↔ ∀ name, name ∈ left ↔ name ∈ right := by
  simp only [sameNames, Bool.and_eq_true, List.all_eq_true, List.contains_iff_mem]
  constructor
  · rintro ⟨forward, backward⟩ name
    exact ⟨forward name, backward name⟩
  · intro same
    exact ⟨fun name => (same name).mp, fun name => (same name).mpr⟩

/-- The stored form of an executed scope.  Snapshots that do not match the
plan's derived sets are not accepted. -/
def storedPlan (scope : ScopedPlan) : Option StoredPlan :=
  if noSets : scope.plan.derivedSets = [] then
    some
      { plan := scope.plan
        forced := scope.forced
        responsePolicy := scope.responsePolicy
        payloadIffSets := by rw [noSets]; rfl }
  else
    match derivedPlanPayload scope with
    | none => none
    | some payload =>
      if sameIds : sameNames (payload.derived.map DerivedScopeSnapshot.id)
          (scope.plan.derivedSets.map DerivedSet.id) then
        some
          { plan := scope.plan
            forced := scope.forced
            responsePolicy := scope.responsePolicy
            derivedPayload := some payload
            payloadIffSets := by simp [noSets]
            snapshotsMatchSets := by
              rintro _ ⟨⟩
              exact sameNames_iff.mp sameIds }
      else
        none

variable {scope : ScopedPlan}

theorem derivedPlanPayload_businessDate {payload : DerivedPlanPayload}
    (built : derivedPlanPayload scope = some payload) :
    payload.businessDate = scope.businessDate := by
  rw [derivedPlanPayload] at built
  split at built
  · cases built
    rfl
  · cases built

theorem storedPlan_frozenDate {stored : StoredPlan} (kept : storedPlan scope = some stored) :
    stored.derivedPayload.bind DerivedPlanPayload.businessDate =
      if scope.plan.derivedSets = [] then none else scope.businessDate := by
  rw [storedPlan] at kept
  split at kept
  · rename_i noSets
    cases kept
    rw [if_pos noSets]
    rfl
  · rename_i hasSets
    rw [if_neg hasSets]
    split at kept
    · cases kept
    · rename_i payload built
      split at kept
      · cases kept
        exact derivedPlanPayload_businessDate built
      · cases kept

section Binding

variable {principal : Principal} {bundleHash : String}
  {businessDate : Option Int} {responsePolicy : ResponsePolicy}

theorem part_bindScopeContext {scope part : ScopedPlan}
    (inside : Part (bindScopeContext principal bundleHash businessDate responsePolicy scope) part) :
    ∃ inner, part = bindScopeContext principal bundleHash businessDate responsePolicy inner := by
  induction inside with
  | self => exact ⟨scope, rfl⟩
  | @derived outer item _ member ih =>
    obtain ⟨inner, rfl⟩ := ih
    rw [bindScopeContext_eq] at member
    obtain ⟨source, -, rfl⟩ := List.mem_map.mp member
    exact ⟨source.scopedPlan, rfl⟩

theorem businessDate_of_part_bindScopeContext {scope part : ScopedPlan}
    (inside : Part (bindScopeContext principal bundleHash businessDate
      responsePolicy scope) part) : part.businessDate = businessDate := by
  obtain ⟨inner, rfl⟩ := part_bindScopeContext inside
  rw [bindScopeContext_eq]

end Binding

theorem mem_reconcileDerived {snapshots : List DerivedScopeSnapshot}
    {items result : List (ScopedDerivedSet ScopedPlan)}
    (reconciled : reconcileDerived snapshots items = .ok result)
    {item : ScopedDerivedSet ScopedPlan} (member : item ∈ result) :
    ∃ source ∈ items, ∃ forced, item.scopedPlan = { source.scopedPlan with forced := forced } := by
  induction items generalizing result with
  | nil =>
    cases reconciled
    cases member
  | cons first items ih =>
    rw [reconcileDerived] at reconciled
    split at reconciled
    · cases reconciled
    · simp only [bind_eq_ok, pure_eq_ok] at reconciled
      obtain ⟨forced, -, rest, isRest, rfl⟩ := reconciled
      rcases List.mem_cons.mp member with rfl | later
      · exact ⟨first, List.mem_cons_self, forced, rfl⟩
      · obtain ⟨source, sourceIn, kept⟩ := ih isRest later
        exact ⟨source, List.mem_cons_of_mem _ sourceIn, kept⟩

theorem part_withForced {part : ScopedPlan} {forced : List ForcedPredicate}
    (inside : Part { scope with forced := forced } part) :
    part = { scope with forced := forced } ∨ Part scope part := by
  induction inside with
  | self => exact .inl rfl
  | @derived outer item _ member ih =>
    rcases ih with rfl | within
    · exact .inr (.derived .self member)
    · exact .inr (.derived within member)

section Restore

variable {scope result : ScopedPlan} {stored : StoredPlan}
  {principal : Principal} {bundle : DefinitionBundle}

theorem businessDate_of_restoreStoredScope
    (restored : restoreStoredScope scope stored principal bundle = .ok result)
    {part : ScopedPlan} (inside : Part result part) :
    part.businessDate = stored.derivedPayload.bind DerivedPlanPayload.businessDate := by
  rw [restoreStoredScope] at restored
  simp only [bind_eq_ok] at restored
  obtain ⟨forced, -, rest⟩ := restored
  have root : (bindScopeContext principal bundle.contentHash
      (stored.derivedPayload.bind DerivedPlanPayload.businessDate)
      stored.responsePolicy scope).businessDate =
        stored.derivedPayload.bind DerivedPlanPayload.businessDate :=
    businessDate_of_part_bindScopeContext .self
  split at rest
  · split at rest
    · simp only [pure_eq_ok] at rest
      subst rest
      rcases part_withForced inside with rfl | within
      · exact root
      · exact businessDate_of_part_bindScopeContext within
    · rename_i payload isPayload
      simp only [bind_eq_ok, pure_eq_ok] at rest
      obtain ⟨derived, isDerived, rfl⟩ := rest
      revert part
      apply forall_part
      · exact root
      · intro item member part within
        obtain ⟨source, sourceIn, inner, kept⟩ := mem_reconcileDerived isDerived member
        rw [kept] at within
        have below : Part (bindScopeContext principal bundle.contentHash
            (stored.derivedPayload.bind DerivedPlanPayload.businessDate)
            stored.responsePolicy scope) source.scopedPlan :=
          .derived .self sourceIn
        rcases part_withForced within with rfl | deeper
        · exact (businessDate_of_part_bindScopeContext below : source.scopedPlan.businessDate = _)
        · exact businessDate_of_part_bindScopeContext (below.trans deeper)
  · cases rest

end Restore

/-- A restored scope resolves what depends on the business date as the executed
one did, whatever the clock says now. -/
structure StaysExecutable (bundle : DefinitionBundle) (executed restored : ScopedPlan) : Prop where
  date : ∀ part, Part restored part → part.businessDate = executed.businessDate
  requirement : ∀ part, Part restored part → ∀ plan : PlanNode,
    checkBusinessDateRequirement plan bundle executed.businessDate = none →
      checkBusinessDateRequirement plan bundle part.businessDate = none
  ranges : ∀ part, Part restored part → ∀ now later period,
    timeFilterBounds later part.businessDate period =
      timeFilterBounds now executed.businessDate period
  comparisons : ∀ part, Part restored part → ∀ now later period compareTo,
    comparisonBounds later part.businessDate period compareTo =
      comparisonBounds now executed.businessDate period compareTo
  overdue : ∀ part, Part restored part → ∀ measure, overdueAnchor measure part.businessDate =
      overdueAnchor measure executed.businessDate
  buckets : ∀ part, Part restored part → ∀ bucket, bucketAnchor bucket part.businessDate =
      bucketAnchor bucket executed.businessDate

theorem staysExecutable_of_date {bundle : DefinitionBundle}
    {executed restored : ScopedPlan} {date : Int}
    (dated : executed.businessDate = some date)
    (same : ∀ part, Part restored part → part.businessDate = some date) :
    StaysExecutable bundle executed restored := by
  constructor
  · intro part inside
    rw [same part inside, dated]
  · intro part inside plan passed
    rw [same part inside]
    exact checkBusinessDateRequirement_dated plan bundle
  · intro part inside now later period
    rw [same part inside, dated]
    exact timeFilterBounds_dated period
  · intro part inside now later period compareTo
    rw [same part inside, dated]
    exact comparisonBounds_dated period compareTo
  · intro part inside measure
    rw [same part inside, dated]
  · intro part inside bucket
    rw [same part inside, dated]

/-- A scope executed with a business date and restored from its stored plan
stays executable exactly when the stored plan declares derived sets. -/
theorem staysExecutable_iff_derivedSets (executed : ScopedPlan) (date : Int)
    (dated : executed.businessDate = some date) (stored : StoredPlan)
    (kept : storedPlan executed = some stored) (scope : ScopedPlan)
    (principal : Principal) (bundle : DefinitionBundle) (result : ScopedPlan)
    (restored : restoreStoredScope scope stored principal bundle = .ok result) :
    StaysExecutable bundle executed result ↔ executed.plan.derivedSets ≠ [] := by
  have frozen := storedPlan_frozenDate kept
  have carried : ∀ part, Part result part → part.businessDate =
      stored.derivedPayload.bind DerivedPlanPayload.businessDate := by
    intro part inside
    exact businessDate_of_restoreStoredScope restored inside
  constructor
  · intro stays noSets
    rw [if_pos noSets] at frozen
    have root := stays.date result .self
    rw [carried result .self, frozen, dated] at root
    cases root
  · intro hasSets
    rw [if_neg hasSets, dated] at frozen
    apply staysExecutable_of_date dated
    intro part inside
    rw [carried part inside, frozen]

def jobsThisMonth : BusinessQueryPlan where
  dimensions := ["job.title"]
  period := some ⟨"job.created_at", .relative .thisMonth, none⟩
  grain := .entityRows

/-- The scope of the list, executed on 10 March 2024. -/
def jobsThisMonthScope : ScopedPlan where
  plan := jobsThisMonth
  resources := ["job"]
  forced := [⟨"job", "entity_id", .eq, [.integer 1], .principalScope⟩]
  businessDate := some 738955

def storedJobsThisMonth : StoredPlan where
  plan := jobsThisMonth
  forced := [⟨"job", "entity_id", .eq, [.integer 1], .principalScope⟩]
  payloadIffSets := Option.isSome_none

example : civilDate 738955 = ⟨2024, 3, 10⟩ := by decide

theorem staysExecutable_iff_derivedSets_jobsThisMonth :
    ∃ result, restoreStoredScope jobsThisMonthScope storedJobsThisMonth
        { role := "viewer", entityId := some 1 } jobBundle = .ok result ∧
      (StaysExecutable jobBundle jobsThisMonthScope result ↔ jobsThisMonth.derivedSets ≠ []) :=
  ⟨_, rfl, staysExecutable_iff_derivedSets jobsThisMonthScope 738955 rfl
    storedJobsThisMonth rfl jobsThisMonthScope
    { role := "viewer", entityId := some 1 } jobBundle _ rfl⟩

/-- Page two of the list has no business date, and its plan no longer passes
the check it passed when it was executed. -/
theorem restoreStoredScope_drops_businessDate :
    storedPlan jobsThisMonthScope = some storedJobsThisMonth ∧
      checkBusinessDateRequirement jobsThisMonth.toPlanNode jobBundle
        jobsThisMonthScope.businessDate = none ∧
      ∃ result, restoreStoredScope jobsThisMonthScope storedJobsThisMonth
          { role := "viewer", entityId := some 1 } jobBundle = .ok result ∧
        result.businessDate = none ∧
        checkBusinessDateRequirement jobsThisMonth.toPlanNode jobBundle
          result.businessDate = some {} :=
  ⟨rfl, rfl, _, rfl, rfl, rfl⟩

end McpAssistant.BusinessQuery.FrozenDate
