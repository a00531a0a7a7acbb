import McpAssistant.BusinessQuery.PlanBinding

/-!
# Value resolution

A member of a planned set is resolved before it runs: its scope is stamped with
an answer id, and a filter that names a record by text is looked up, bound to
the record's identity, and the bound plan is validated and scoped again from
the request.
-/

namespace McpAssistant.BusinessQuery.ValueResolution

open Definitions FilterTree QueryPlan Visibility Scopes Scoping Outcomes
  PlanBinding JoinSearch Foundations.Fallible

/-- A record id, as a page or a binding gives it. -/
inductive RecordId where
  | number (value : Int)
  | name (value : String)
deriving DecidableEq

def RecordId.value : RecordId → FilterValue
  | number value => .integer value
  | name value => .text value

structure OwnerHint where
  resourceType : String
  recordId : RecordId
  bindingMember : Option String := none
deriving DecidableEq

structure Request where
  principal : Principal
  businessDate : Option Int := none
  ownerHint : Option OwnerHint := none
  responsePolicy : ResponsePolicy := .allowPartial

/-- The identity a runner supplies for one execution.  Its key is not empty. -/
structure Evidence where
  idempotencyKey : String
  keyNonempty : idempotencyKey ≠ "" := by decide

inductive IncompleteReason where
  | adapterInvalid
  | timeout
  | evidenceUnavailable
  | noProgress
deriving DecidableEq

/-- What a stage ends with instead of a result; `raised` is a Python error
that leaves the round. -/
inductive Stopped where
  | denied
  | incomplete (reason : IncompleteReason)
  | unsupported (reason : ReasonCode)
  | clarificationRequired
  | raised (message : String)
deriving DecidableEq

/-- Two refusals are read as an invalid adapter, the others as unsupported. -/
def planRefusedToOutcome (reason : ReasonCode) : Stopped :=
  match reason with
  | .invalidBusinessTimezone => .incomplete .adapterInvalid
  | .unsupportedRelativePeriod => .incomplete .adapterInvalid
  | reason => .unsupported reason

def raisedToOutcome : Raised → Stopped
  | .planRefused reason _ => planRefusedToOutcome reason
  | .scopeDenied _ => .denied

def valueNamesARecord (type : DimensionType) (text : String) : Bool :=
  match type with
  | .time => false
  | .number => readsAsFloat text
  | .boolean =>
    ["true", "false", "1", "0"].contains (String.ofList ((pyStrip text.toList).map Char.toLower))
  | .string => true

def ownerHintPredicates (bundle : DefinitionBundle) (hint : OwnerHint) :
    Except Raised (List ForcedPredicate) :=
  match resourceNamed bundle hint.resourceType with
  | none => .error (unexpressible "owner_hint_unknown_resource")
  | some binding =>
    let predicate (column : String) : ForcedPredicate :=
      ⟨hint.resourceType, column, .eq, [hint.recordId.value], .recordReferent⟩
    match hint.bindingMember with
    | none => .ok [predicate binding.primaryKey]
    | some member =>
      match bundle.dimensions.find? fun item =>
          item.name == member && item.owningResource == hint.resourceType with
      | none => .error (unexpressible "owner_hint_binding_unexpressible")
      | some dimension =>
        if valueNamesARecord dimension.type hint.recordId.value.pyStr then
          .ok [predicate dimension.sqlExpression]
        else
          .ok []

def applyOwnerHintScope (scope : ScopedPlan) (hint : OwnerHint)
    (bundle : DefinitionBundle) : Except Raised ScopedPlan :=
  if (resourceNamed bundle hint.resourceType).isSome &&
      !scope.resources.contains hint.resourceType then
    .error (unexpressible "owner_hint_unexpressible")
  else
    (ownerHintPredicates bundle hint).map fun predicates =>
      { scope with forced := scope.forced ++ predicates }

def requestScope (plan : BusinessQueryPlan) (request : Request)
    (bundle : DefinitionBundle) : Except Raised ScopedPlan := do
  let fresh ← applyRoleScope request.principal bundle none plan
  let bound := bindScopeContext request.principal bundle.contentHash
    request.businessDate request.responsePolicy fresh
  match request.ownerHint with
  | none => return bound
  | some hint =>
    if bound.resources.contains hint.resourceType then
      applyOwnerHintScope bound hint bundle
    else
      throw (refused .grainUnexpressible)

/-- Every declared set is scoped, each once, and every set filter names one. -/
def assertDerivedScoped (plan : BusinessQueryPlan) (scope : ScopedPlan) : Except Raised Unit :=
  let ids := scope.derived.map ScopedDerivedSet.id
  if ids.dedup.length ≠ plan.derivedSets.length then
    .error denied
  else if !plan.derivedSets.all fun item => ids.contains item.id then
    .error denied
  else if !(setReferenceIds plan.filters).all ids.contains then
    .error denied
  else
    .ok ()

inductive ResolverAnswer where
  | exact (canonical : String)
  | ambiguous
  | noMatch
  | timedOut
  | failed
deriving DecidableEq

/-- The stages a member passes besides scoping.  `precheck` is every check
between a plan and its scoping; it returns the plan with canonical family
names.  `commitStarted` records the start of a lookup, or says how the member
ends when that failed. -/
structure Stages where
  precheck : Request → DefinitionBundle → BusinessQueryPlan → Except Stopped BusinessQueryPlan
  resolve : Option (ResolverLookup → ScopedPlan → ResolverAnswer) := none
  commitStarted : ResolverLookup → Option Stopped := fun _ => none

def validateAndScope (stages : Stages) (planned : BusinessQueryPlan)
    (request : Request) (bundle : DefinitionBundle) :
    Except Stopped ScopedPlan := do
  let canonical ← stages.precheck request bundle planned
  let scope ← (requestScope canonical request bundle).mapError raisedToOutcome
  (assertDerivedScoped canonical scope).mapError raisedToOutcome
  return scope

/-- The first 32 digits of a key's digest, marked as an answer id. -/
def shortId (sha256Hex : String → String) (key : String) : String :=
  "aq_" ++ String.ofList ((sha256Hex key).toList.take 32)

/-- A stable id that shows nothing of its key. -/
def answerQueryIdFor (sha256Hex : String → String) (idempotencyKey : String) :
    Except Stopped String :=
  if idempotencyKey = "" then
    .error (.raised "answer query idempotency key is required")
  else
    .ok (shortId sha256Hex idempotencyKey)

/-- The key of one member: the root's own for the primary, a numbered one for
every companion. -/
def memberKey (evidence : Evidence) (ordinal : Nat) : String :=
  if ordinal = 0 then
    evidence.idempotencyKey
  else
    evidence.idempotencyKey ++ ":sub:" ++ toString ordinal

/-- The scope a member runs with carries its id; without evidence it keeps what
it had. -/
def stampAnswerQueryId (sha256Hex : String → String) (evidence : Option Evidence)
    (ordinal : Nat) (scope : ScopedPlan) : Except Stopped ScopedPlan :=
  match evidence with
  | none => .ok scope
  | some evidence =>
    (answerQueryIdFor sha256Hex (memberKey evidence ordinal)).map fun id =>
      { scope with answerQueryId := some id }

/-- The scope a lookup runs in: the root's, or that of the derived set its
path names. -/
def lookupScope (scope : ScopedPlan) (lookup : ResolverLookup) : Option ScopedPlan :=
  match lookup.path with
  | [] => some scope
  | id :: _ =>
    (scope.derived.reverse.find? fun item => item.id == id).map ScopedDerivedSet.scopedPlan

def stampedScope (sha256Hex : String → String) (evidence : Option Evidence)
    (ordinal : Nat) (scope : ScopedPlan) : ScopedPlan :=
  match evidence with
  | none => scope
  | some evidence =>
    { scope with
      answerQueryId := some (shortId sha256Hex (memberKey evidence ordinal)) }

def exactAnswer (stages : Stages) (lookup : ResolverLookup) (scope : ScopedPlan) : Option String :=
  match stages.resolve, lookupScope scope lookup with
  | some resolve, some target =>
    match resolve lookup target with
    | .exact canonical => some canonical
    | _ => none
  | _, _ => none

def resolveValues (sha256Hex : String → String) (stages : Stages)
    (planned : BusinessQueryPlan) (scope : ScopedPlan) (request : Request)
    (bundle : DefinitionBundle) (evidence : Option Evidence) (ordinal : Nat) :
    Except Stopped (BusinessQueryPlan × ScopedPlan) := do
  let stamped ← stampAnswerQueryId sha256Hex evidence ordinal scope
  match findResolverLookups planned bundle with
  | [] => return (planned, stamped)
  | [lookup] =>
    match stages.resolve with
    | none => throw (.incomplete .adapterInvalid)
    | some resolve =>
      match stages.commitStarted lookup with
      | some stopped => throw stopped
      | none =>
        match lookupScope stamped lookup with
        | none => throw .denied
        | some target =>
          match resolve lookup target with
          | .timedOut => throw (.incomplete .timeout)
          | .failed => throw (.incomplete .adapterInvalid)
          | .ambiguous => throw .clarificationRequired
          | .noMatch => throw (.unsupported .valueNotFound)
          | .exact canonical => do
            let rebound ← (bindResolvedIdentity planned lookup canonical bundle).mapError .raised
            let prepared ← validateAndScope stages rebound request bundle
            return (rebound, prepared)
  | _ => throw (.unsupported .grainUnexpressible)

section Resolve

variable {sha256Hex : String → String} {stages : Stages}
  {planned plan : BusinessQueryPlan} {scope result : ScopedPlan}
  {request : Request} {bundle : DefinitionBundle} {evidence : Option Evidence}
  {ordinal : Nat}

/-- A scope that a request gives carries the request's context and no id. -/
structure RequestContext (request : Request) (bundle : DefinitionBundle)
    (scope : ScopedPlan) : Prop where
  principal : scope.principal = some request.principal
  businessDate : scope.businessDate = request.businessDate
  bundleHash : scope.bundleHash = some bundle.contentHash
  responsePolicy : scope.responsePolicy = request.responsePolicy
  answerQueryId : scope.answerQueryId = none
  displayMembersAdded : scope.displayMembersAdded = []

/-- The predicates a request's record hint adds to a scope. -/
def hintPredicates (request : Request) (bundle : DefinitionBundle) :
    Except Raised (List ForcedPredicate) :=
  match request.ownerHint with
  | none => .ok []
  | some hint => ownerHintPredicates bundle hint

/-- What a request gives a plan: resources covering its members, the
principal's predicates on them followed by the record hint's, and its derived
sets scoped the same way. -/
structure GivenByRequest (request : Request) (bundle : DefinitionBundle)
    (scope : ScopedPlan) : Prop where
  covered : ∃ required, requiredResources bundle (localPlanMemberNames scope.plan.toPlanNode) =
        .ok required ∧
      resolveJoinCover bundle.joins required = .ok scope.resources
  forced : ∃ own hinted, forcedForCover bundle request.principal scope.resources = .ok own ∧
      hintPredicates request bundle = .ok hinted ∧
      scope.forced = own ++ hinted
  derived : ∃ derived,
    scopeDerivedSets request.principal bundle none [] scope.plan.derivedSets = .ok derived ∧
      scope.derived = bindDerivedSets request.principal bundle.contentHash
        request.businessDate request.responsePolicy derived
  context : RequestContext request bundle scope

theorem applyOwnerHintScope_eq_ok {hint : OwnerHint}
    (hinted : applyOwnerHintScope scope hint bundle = .ok result) :
    ∃ predicates, ownerHintPredicates bundle hint = .ok predicates ∧
      result = { scope with forced := scope.forced ++ predicates } := by
  rw [applyOwnerHintScope] at hinted
  split at hinted
  · cases hinted
  · obtain ⟨predicates, isHinted, equal⟩ := map_eq_ok.mp hinted
    exact ⟨predicates, isHinted, equal.symm⟩

theorem applyRoleScope_unbound (succeeded : applyRoleScope request.principal bundle none plan =
      .ok scope) :
    scope.answerQueryId = none ∧ scope.displayMembersAdded = [] := by
  obtain ⟨node, sets⟩ := plan
  simp only [applyRoleScope, applyRoleScopeImpl, bind_eq_ok, pure_eq_ok] at succeeded
  obtain ⟨_, _, _, _, _, _, _, _, _, _, _, _, rfl⟩ := succeeded
  exact ⟨rfl, rfl⟩

theorem requestScope_eq_ok (scoped' : requestScope plan request bundle = .ok scope) :
    scope.plan = plan ∧ GivenByRequest request bundle scope := by
  rw [requestScope, bind_eq_ok] at scoped'
  obtain ⟨fresh, isFresh, hinted⟩ := scoped'
  have node := scopedNode_of_eq_ok isFresh
  obtain ⟨noId, noDisplay⟩ := applyRoleScope_unbound isFresh
  obtain ⟨derived, isDerived, inScope⟩ := node.derived
  rw [List.nil_append] at inScope
  have bound : ∃ predicates, hintPredicates request bundle = .ok predicates ∧
      scope = { bindScopeContext request.principal bundle.contentHash
        request.businessDate request.responsePolicy fresh with
          forced := fresh.forced ++ predicates } := by
    rw [hintPredicates]
    split at hinted
    · cases hinted
      refine ⟨[], rfl, ?_⟩
      rw [bindScopeContext_eq, List.append_nil]
    · dsimp only at hinted
      split at hinted
      · obtain ⟨predicates, isPredicates, equal⟩ :=
          applyOwnerHintScope_eq_ok hinted
        rw [bindScopeContext_forced] at equal
        exact ⟨predicates, isPredicates, equal⟩
      · cases hinted
  obtain ⟨predicates, isPredicates, rfl⟩ := bound
  rw [bindScopeContext_eq]
  constructor
  · exact node.samePlan
  · constructor
    · simpa [node.samePlan] using node.covered
    · exact ⟨fresh.forced, predicates, node.forced, isPredicates, rfl⟩
    · refine ⟨derived, ?_, ?_⟩
      · simpa [node.samePlan] using isDerived
      · rw [inScope, bindDerivedSets_eq_map]
    · exact ⟨rfl, rfl, rfl, rfl, noId, noDisplay⟩

theorem validateAndScope_eq_ok
    (prepared : validateAndScope stages planned request bundle = .ok scope) :
    stages.precheck request bundle planned = .ok scope.plan ∧
      GivenByRequest request bundle scope := by
  simp only [validateAndScope, bind_eq_ok, mapError_eq_ok, pure_eq_ok] at prepared
  obtain ⟨canonical, isCanonical, found, isFound, _, _, rfl⟩ := prepared
  obtain ⟨samePlan, given⟩ := requestScope_eq_ok isFound
  rw [samePlan]
  exact ⟨isCanonical, given⟩

theorem validateAndScope_answerQueryId
    (prepared : validateAndScope stages planned request bundle = .ok scope) :
    scope.answerQueryId = none :=
  (validateAndScope_eq_ok prepared).2.context.answerQueryId

theorem prefix_ne_empty {first second : String} (nonempty : first ≠ "") : first ++ second ≠ "" := by
  intro empty
  apply nonempty
  rw [← String.toList_inj, String.toList_append] at empty
  rw [← String.toList_inj]
  exact (List.append_eq_nil_iff.mp empty).1

theorem memberKey_ne_empty (evidence : Evidence) (ordinal : Nat) :
    memberKey evidence ordinal ≠ "" := by
  rw [memberKey]
  split
  · exact evidence.keyNonempty
  · exact prefix_ne_empty (prefix_ne_empty evidence.keyNonempty)

theorem answerQueryIdFor_of_ne_empty {key : String} (nonempty : key ≠ "") :
    answerQueryIdFor sha256Hex key = .ok (shortId sha256Hex key) := by
  rw [answerQueryIdFor, if_neg nonempty]

/-- A key that is not empty always gives an id, so stamping never fails. -/
theorem stampAnswerQueryId_eq : stampAnswerQueryId sha256Hex evidence ordinal scope =
      .ok (stampedScope sha256Hex evidence ordinal scope) := by
  cases evidence with
  | none => rfl
  | some evidence =>
    show (answerQueryIdFor sha256Hex (memberKey evidence ordinal)).map _ = _
    rw [answerQueryIdFor_of_ne_empty (memberKey_ne_empty evidence ordinal)]
    rfl

/-- How a member that needed one lookup was resolved: the resolver gave an
exact answer, the plan was bound to it, and the request gave the bound plan its
scope. -/
structure Rebound (sha256Hex : String → String) (stages : Stages)
    (lookup : ResolverLookup) (planned plan : BusinessQueryPlan)
    (scope result : ScopedPlan) (request : Request)
    (bundle : DefinitionBundle) (evidence : Option Evidence) (ordinal : Nat) :
    Prop where
  answered : ∃ canonical,
    exactAnswer stages lookup (stampedScope sha256Hex evidence ordinal scope) = some canonical ∧
      bindResolvedIdentity planned lookup canonical bundle = .ok plan
  prepared : validateAndScope stages plan request bundle = .ok result

/-- Resolving returns a pair in two ways only: without a lookup, or after
exactly one. -/
theorem resolveValues_eq_ok (resolved : resolveValues sha256Hex stages planned scope request bundle
      evidence ordinal = .ok (plan, result)) :
    (findResolverLookups planned bundle = [] ∧ plan = planned ∧
        result = stampedScope sha256Hex evidence ordinal scope) ∨
      ∃ lookup, findResolverLookups planned bundle = [lookup] ∧
        Rebound sha256Hex stages lookup planned plan scope result request
          bundle evidence ordinal := by
  rw [resolveValues, stampAnswerQueryId_eq, bind_eq_ok] at resolved
  obtain ⟨stamped, isStamped, resolved⟩ := resolved
  cases isStamped
  split at resolved
  · rename_i noLookup
    cases resolved
    exact .inl ⟨noLookup, rfl, rfl⟩
  · rename_i lookup oneLookup
    apply Or.inr
    refine ⟨lookup, oneLookup, ?_⟩
    split at resolved
    · cases resolved
    · rename_i resolve isResolve
      split at resolved
      · cases resolved
      · split at resolved
        · cases resolved
        · rename_i target isTarget
          split at resolved
          · cases resolved
          · cases resolved
          · cases resolved
          · cases resolved
          · rename_i canonical answer
            simp only [bind_eq_ok, mapError_eq_ok, pure_eq_ok] at resolved
            obtain ⟨rebound, isRebound, prepared, isPrepared, equal⟩ := resolved
            cases equal
            constructor
            · refine ⟨canonical, ?_, isRebound⟩
              simp only [exactAnswer, isResolve, isTarget, answer]
            · exact isPrepared
  · cases resolved

end Resolve

end McpAssistant.BusinessQuery.ValueResolution
