import McpAssistant.BusinessQuery.Visibility

/-!
# Scoped plans

A scoped plan is a plan together with the resources its join cover holds and
the predicates the server forces on them.  Derived sets are scoped plans of
their own.
-/

namespace McpAssistant.BusinessQuery.Scopes

open Definitions QueryPlan Visibility

inductive ForcedOperator where
  | eq
  | isIn
deriving DecidableEq

inductive ForcedSource where
  | principalScope
  | recordReferent
deriving DecidableEq

/-- A predicate the server imposes on a physical column of a resource. -/
structure ForcedPredicate where
  resource : String
  column : String
  operator : ForcedOperator
  values : List FilterValue
  source : ForcedSource := .principalScope
deriving DecidableEq

inductive ResponsePolicy where
  | allowPartial
  | strict
deriving DecidableEq

structure ScopedDerivedSet (Scoped : Type) where
  id : String
  key : String
  mode : SetMode
  scopedPlan : Scoped

structure ScopedPlan where
  plan : BusinessQueryPlan
  resources : List String
  forced : List ForcedPredicate
  derived : List (ScopedDerivedSet ScopedPlan) := []
  principal : Option Principal := none
  businessDate : Option Int := none
  bundleHash : Option String := none
  responsePolicy : ResponsePolicy := .allowPartial
  answerQueryId : Option String := none
  displayMembersAdded : List String := []

mutual

def bindScopeContext (principal : Principal) (bundleHash : String)
    (businessDate : Option Int) (responsePolicy : ResponsePolicy) :
    ScopedPlan → ScopedPlan
  | ⟨plan, resources, forced, derived, _, _, _, _, answerQueryId, display⟩ =>
    { plan := plan
      resources := resources
      forced := forced
      derived := bindDerivedSets principal bundleHash businessDate responsePolicy derived
      principal := some principal
      businessDate := businessDate
      bundleHash := some bundleHash
      responsePolicy := responsePolicy
      answerQueryId := answerQueryId
      displayMembersAdded := display }

def bindDerivedSets (principal : Principal) (bundleHash : String)
    (businessDate : Option Int) (responsePolicy : ResponsePolicy) :
    List (ScopedDerivedSet ScopedPlan) → List (ScopedDerivedSet ScopedPlan)
  | [] => []
  | ⟨id, key, mode, inner⟩ :: items =>
    ⟨id, key, mode, bindScopeContext principal bundleHash businessDate responsePolicy inner⟩ ::
      bindDerivedSets principal bundleHash businessDate responsePolicy items

end

section Binding

variable {principal : Principal} {bundleHash : String}
  {businessDate : Option Int} {responsePolicy : ResponsePolicy}

theorem bindDerivedSets_eq_map (items : List (ScopedDerivedSet ScopedPlan)) :
    bindDerivedSets principal bundleHash businessDate responsePolicy items = items.map fun item =>
        { item with
          scopedPlan := bindScopeContext principal bundleHash businessDate
            responsePolicy item.scopedPlan } := by
  induction items with
  | nil => rfl
  | cons item items ih =>
    obtain ⟨id, key, mode, inner⟩ := item
    rw [bindDerivedSets, ih]
    rfl

theorem bindScopeContext_eq (scope : ScopedPlan) :
    bindScopeContext principal bundleHash businessDate responsePolicy scope =
      { scope with
        derived := scope.derived.map fun item =>
          { item with
            scopedPlan := bindScopeContext principal bundleHash businessDate
              responsePolicy item.scopedPlan }
        principal := some principal
        businessDate := businessDate
        bundleHash := some bundleHash
        responsePolicy := responsePolicy } := by
  obtain ⟨plan, resources, forced, derived, _, _, _, _, answerQueryId, display⟩ := scope
  rw [bindScopeContext, bindDerivedSets_eq_map]

@[simp] theorem bindScopeContext_forced (scope : ScopedPlan) :
    (bindScopeContext principal bundleHash businessDate responsePolicy
      scope).forced = scope.forced := by
  rw [bindScopeContext_eq]

end Binding

/-- The scoped plans inside a scoped plan: itself and, through any number of
derived sets, theirs. -/
inductive Part (root : ScopedPlan) : ScopedPlan → Prop where
  | self : Part root root
  | derived {part : ScopedPlan} {item : ScopedDerivedSet ScopedPlan}
      (outer : Part root part) (member : item ∈ part.derived) :
      Part root item.scopedPlan

theorem Part.trans {root middle part : ScopedPlan} (outer : Part root middle)
    (inner : Part middle part) : Part root part := by
  induction inner with
  | self => exact outer
  | derived _ member ih => exact .derived ih member

theorem ScopedPlan.induction {motive : ScopedPlan → Prop} (step : ∀ scope : ScopedPlan,
      (∀ item ∈ scope.derived, motive item.scopedPlan) → motive scope)
    (scope : ScopedPlan) : motive scope := by
  apply step
  intro item member
  exact ScopedPlan.induction step item.scopedPlan
termination_by scope
decreasing_by
  have smaller := List.sizeOf_lt_of_mem member
  obtain ⟨plan, resources, forced, derived, principal, businessDate, bundleHash,
    responsePolicy, answerQueryId, display⟩ := scope
  obtain ⟨id, key, mode, inner⟩ := item
  simp only [ScopedPlan.mk.sizeOf_spec, ScopedDerivedSet.mk.sizeOf_spec] at *
  omega

theorem forall_part {root : ScopedPlan} {motive : ScopedPlan → Prop} (self : motive root)
    (derived : ∀ item ∈ root.derived, ∀ part, Part item.scopedPlan part → motive part) :
    ∀ part, Part root part → motive part := by
  have split : ∀ part, Part root part →
      part = root ∨ ∃ item ∈ root.derived, Part item.scopedPlan part := by
    intro part inside
    induction inside with
    | self => exact .inl rfl
    | @derived middle item _ member ih =>
      rcases ih with rfl | ⟨first, firstMember, within⟩
      · exact .inr ⟨item, member, .self⟩
      · exact .inr ⟨first, firstMember, .derived within member⟩
  intro part inside
  rcases split part inside with rfl | ⟨item, member, within⟩
  · exact self
  · exact derived item member part within

end McpAssistant.BusinessQuery.Scopes
