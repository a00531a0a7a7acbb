import McpAssistant.BusinessQuery.ContinuedOperation
import McpAssistant.BusinessQuery.PlannedExecution

/-!
# Scopes across value resolution

Resolving a value should change one filter of a scoped plan and nothing else.
The scope a bound plan runs with is made again from the request, so it is the
incoming one only where that one holds nothing but what the request gives.
-/

namespace McpAssistant.BusinessQuery.ScopePreservation

open Definitions FilterTree QueryPlan Scopes PlanBinding ValueResolution
  PlannedExecution ContinuedOperation Foundations.Fallible

/-- The looked-up leaf becomes an equality; every other leaf stays. -/
def exactLeaf (lookup : ResolverLookup) (target : String) (value : FilterValue) :
    FilterLeaf → FilterLeaf
  | .filter leaf =>
    if leaf.member = lookup.member ∧ leaf.operator = .contains ∧
        leaf.values = [.text lookup.rawValue] then
      .filter ⟨target, .eq, [value], acceptsValues_single value⟩
    else
      .filter leaf
  | leaf => leaf

def exactNode (lookup : ResolverLookup) (target : String) (value : FilterValue)
    (plan : BusinessQueryPlan) : BusinessQueryPlan :=
  { plan with
    filters := plan.filters.bind (mapFilterTree (exactLeaf lookup target value)) }

def exactPlan (lookup : ResolverLookup) (target : String) (value : FilterValue)
    (plan : BusinessQueryPlan) : BusinessQueryPlan :=
  match lookup.path with
  | [] => exactNode lookup target value plan
  | id :: _ =>
    { plan with
      derivedSets := plan.derivedSets.map fun item =>
        if item.id = id then
          { item with plan := exactNode lookup target value item.plan }
        else
          item }

mutual

def rewriteInside (id : String) (rewrite : BusinessQueryPlan → BusinessQueryPlan)
    (named : Bool) : ScopedPlan → ScopedPlan
  | ⟨plan, resources, forced, derived, principal, businessDate, bundleHash,
      responsePolicy, answerQueryId, display⟩ =>
    ⟨if named then rewrite plan else plan, resources, forced,
      rewriteDerived id rewrite derived, principal, businessDate, bundleHash,
      responsePolicy, answerQueryId, display⟩

def rewriteDerived (id : String) (rewrite : BusinessQueryPlan → BusinessQueryPlan) :
    List (ScopedDerivedSet ScopedPlan) → List (ScopedDerivedSet ScopedPlan)
  | [] => []
  | ⟨name, key, mode, inner⟩ :: items =>
    ⟨name, key, mode, rewriteInside id rewrite (name == id) inner⟩ ::
      rewriteDerived id rewrite items

end

def withExactFilter (lookup : ResolverLookup) (target : String)
    (value : FilterValue) (scope : ScopedPlan) : ScopedPlan :=
  { scope with
    plan := exactPlan lookup target value scope.plan
    derived :=
      match lookup.path with
      | [] => scope.derived
      | id :: _ =>
        rewriteDerived id (exactNode lookup target value) scope.derived }

section Preservation

variable (sha256Hex : String → String) (stages : Stages)
  (planned : BusinessQueryPlan) (scope : ScopedPlan) (request : Request)
  (bundle : DefinitionBundle) (evidence : Option Evidence) (ordinal : Nat)

/-- The member and value a lookup's exact answer stands for. -/
def resolvedTarget (lookup : ResolverLookup) : Option (String × FilterValue) :=
  (exactAnswer stages lookup (stampedScope sha256Hex evidence ordinal scope)).bind fun canonical =>
      (exactTarget lookup canonical bundle).toOption

def DiffersOnlyByExactFilter (result : ScopedPlan) : Prop :=
  match findResolverLookups planned bundle with
  | [] => result = scope
  | lookup :: _ =>
    ∃ target value, resolvedTarget sha256Hex stages scope bundle evidence ordinal lookup =
          some (target, value) ∧
        result = withExactFilter lookup target value scope

/-- Without a lookup, the incoming scope has the id it would be stamped with.
With one, it holds exactly what the request gives: nothing restored, added or
stamped, its plan being the bound plan as checked. -/
def CarriesOnlyRequest : Prop :=
  match findResolverLookups planned bundle with
  | [] => ∀ supplied, evidence = some supplied → scope.answerQueryId =
        some (shortId sha256Hex (memberKey supplied ordinal))
  | lookup :: _ =>
    ∃ target value bound, resolvedTarget sha256Hex stages scope bundle evidence ordinal lookup =
          some (target, value) ∧
        bindExactFilter planned lookup.member value lookup.path target = .ok bound ∧
        stages.precheck request bundle bound = .ok (exactPlan lookup target value scope.plan) ∧
        GivenByRequest request bundle (withExactFilter lookup target value scope)

end Preservation

section Theorems

variable {sha256Hex : String → String} {stages : Stages}
  {planned plan : BusinessQueryPlan} {scope result : ScopedPlan}
  {request : Request} {bundle : DefinitionBundle} {evidence : Option Evidence}
  {ordinal : Nat}

theorem stampedScope_eq_self : stampedScope sha256Hex evidence ordinal scope = scope ↔
      ∀ supplied, evidence = some supplied → scope.answerQueryId =
          some (shortId sha256Hex (memberKey supplied ordinal)) := by
  cases evidence with
  | none => simp [stampedScope]
  | some evidence =>
    constructor
    · rintro same _ ⟨⟩
      exact (congrArg ScopedPlan.answerQueryId same).symm
    · intro stamped
      show { scope with
        answerQueryId := some (shortId sha256Hex (memberKey evidence ordinal)) } = scope
      rw [← stamped evidence rfl]
      cases scope
      rfl

theorem givenByRequest_unique {first second : ScopedPlan}
    (left : GivenByRequest request bundle first)
    (right : GivenByRequest request bundle second)
    (samePlan : first.plan = second.plan) : first = second := by
  obtain ⟨firstPlan, firstResources, firstForced, firstDerived, _, _, _, _, _, _⟩ := first
  obtain ⟨secondPlan, secondResources, secondForced, secondDerived, _, _, _, _, _, _⟩ := second
  cases samePlan
  obtain ⟨⟨required, isRequired, isCover⟩, ⟨own, hinted, isOwn, isHinted, rfl⟩,
    ⟨derived, isDerived, rfl⟩, ⟨rfl, rfl, rfl, rfl, rfl, rfl⟩⟩ := left
  obtain ⟨⟨required', isRequired', isCover'⟩,
    ⟨own', hinted', isOwn', isHinted', rfl⟩, ⟨derived', isDerived', rfl⟩,
    ⟨rfl, rfl, rfl, rfl, rfl, rfl⟩⟩ := right
  cases isRequired.symm.trans isRequired'
  cases isCover.symm.trans isCover'
  cases isOwn.symm.trans isOwn'
  cases isHinted.symm.trans isHinted'
  cases isDerived.symm.trans isDerived'
  rfl

/-- Making a filter exact keeps every derived set's id and forced
predicates. -/
theorem rewriteDerived_forced {id : String} {rewrite : BusinessQueryPlan → BusinessQueryPlan}
    (items : List (ScopedDerivedSet ScopedPlan)) :
    (rewriteDerived id rewrite items).map (fun item => (item.id, item.scopedPlan.forced)) =
      items.map fun item => (item.id, item.scopedPlan.forced) := by
  induction items with
  | nil => rfl
  | cons item items ih =>
    obtain ⟨name, key, mode, inner⟩ := item
    rw [rewriteDerived, List.map_cons, List.map_cons, ih]
    cases inner
    rfl

theorem forced_of_differsOnlyByExactFilter
    (differs : DiffersOnlyByExactFilter sha256Hex stages planned scope bundle
      evidence ordinal result) :
    result.forced = scope.forced ∧
      result.derived.map (fun item => (item.id, item.scopedPlan.forced)) =
        scope.derived.map fun item => (item.id, item.scopedPlan.forced) := by
  rw [DiffersOnlyByExactFilter] at differs
  split at differs
  · rw [differs]
    exact ⟨rfl, rfl⟩
  · rename_i lookup _ _
    obtain ⟨target, value, -, rfl⟩ := differs
    refine ⟨rfl, ?_⟩
    rw [withExactFilter]
    dsimp only
    split
    · rfl
    · exact rewriteDerived_forced scope.derived

end Theorems

/-- The plan once acme is found. -/
def acmeCityExact : BusinessQueryPlan where
  dimensions := ["customer.city"]
  filters := some {
    all := [.leaf (.filter ⟨"customer.name", .eq, [.text "Acme Ltd"], rfl⟩)] }
  grain := .entityRows

theorem resolveValues_acmeCity : resolveValues turnDigest (directoryContext.stages 0) acmeCity
        (directoryScope acmeCity) directoryRequest directoryBundle none 0 =
      .ok (acmeCityExact, directoryScope acmeCityExact) := by
  rfl

/-- The customer page an earlier answer was asked from. -/
def pageCustomer : ForcedPredicate :=
  ⟨"customer", "id", .eq, [.integer 7], .recordReferent⟩

def storedCity : StoredPlan where
  plan := allCities
  forced := [⟨"customer", "entity_id", .eq, [.integer 1], .principalScope⟩, pageCustomer]
  payloadIffSets := Option.isSome_none

/-- The clerk's scope with the stored customer restored. -/
def restoredCity : ScopedPlan :=
  { directoryScope acmeCity with
    forced := [⟨"customer", "entity_id", .eq, [.integer 1], .principalScope⟩, pageCustomer] }

end McpAssistant.BusinessQuery.ScopePreservation
