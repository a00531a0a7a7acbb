import McpAssistant.BusinessQuery.QueryPlan
import McpAssistant.Foundations.Fallible

/-!
# Rewriting the predicates of a plan

A pass over a plan rewrites its typed predicates, wherever they stand, and keeps the
rest.  What the pass does is what the rewriting does to each predicate in turn.
-/

namespace McpAssistant.BusinessQuery.PredicateRewriting

open FilterTree QueryPlan Foundations.Fallible List

mutual

variable {motive : List FilterNode → Prop}

theorem node_induction (nil : motive [])
    (filter : ∀ leaf nodes, motive nodes → motive (.leaf (.filter leaf) :: nodes))
    (predicate : ∀ typed nodes, motive nodes → motive (.leaf (.predicate typed) :: nodes))
    (group : ∀ all any nodes, motive all → motive any → motive nodes →
      motive (.group all any :: nodes)) :
    (node : FilterNode) → ∀ nodes, motive nodes → motive (node :: nodes)
  | .leaf (.filter leaf) => filter leaf
  | .leaf (.predicate typed) => predicate typed
  | .group all any => fun nodes =>
    group all any nodes (nodes_induction nil filter predicate group all)
      (nodes_induction nil filter predicate group any)

@[elab_as_elim]
theorem nodes_induction (nil : motive [])
    (filter : ∀ leaf nodes, motive nodes → motive (.leaf (.filter leaf) :: nodes))
    (predicate : ∀ typed nodes, motive nodes → motive (.leaf (.predicate typed) :: nodes))
    (group : ∀ all any nodes, motive all → motive any → motive nodes →
      motive (.group all any :: nodes)) :
    (nodes : List FilterNode) → motive nodes
  | [] => nil
  | node :: nodes =>
    node_induction nil filter predicate group node nodes
      (nodes_induction nil filter predicate group nodes)

end

theorem attributeLeaves_append (first second : List FilterLeaf) :
    attributeLeaves (first ++ second) = attributeLeaves first ++ attributeLeaves second :=
  filterMap_append

section Rewriting

variable {Failure : Type} (rewrite : AttributePredicate → Except Failure AttributePredicate)

mutual

def rewriteNode : FilterNode → Except Failure FilterNode
  | .leaf (.filter leaf) => pure (.leaf (.filter leaf))
  | .leaf (.predicate typed) => do
      let rewritten ← rewrite typed
      pure (.leaf (.predicate rewritten))
  | .group all any => do
      let all ← rewriteNodes all
      let any ← rewriteNodes any
      pure (.group all any)

def rewriteNodes : List FilterNode → Except Failure (List FilterNode)
  | [] => pure []
  | node :: nodes => do
      let node ← rewriteNode node
      let nodes ← rewriteNodes nodes
      pure (node :: nodes)

end

def rewriteGroup : Option FilterGroup → Except Failure (Option FilterGroup)
  | none => pure none
  | some group => do
      let all ← rewriteNodes rewrite group.all
      let any ← rewriteNodes rewrite group.any
      pure (some { all, any })

def rewritePlan (plan : PlanNode) : Except Failure PlanNode := do
  let attributePredicates ← plan.attributePredicates.mapM rewrite
  let filters ← rewriteGroup rewrite plan.filters
  let having ← rewriteGroup rewrite plan.having
  pure { plan with attributePredicates, filters, having }

/-- Each predicate is rewritten to the one in its place. -/
abbrev Rewrites (before after : List AttributePredicate) : Prop :=
  List.Forall₂ (fun typed rewritten => rewrite typed = .ok rewritten) before after

end Rewriting

section Pass

variable {Failure : Type} {rewrite : AttributePredicate → Except Failure AttributePredicate}
  {before : List AttributePredicate} {after : List AttributePredicate}

theorem rewrites_of_mapM
    (ran : before.mapM rewrite = .ok after) : Rewrites rewrite before after := by
  induction before generalizing after with
  | nil =>
    rw [mapM_nil, pure_eq_ok] at ran
    exact ran ▸ .nil
  | cons typed before ih =>
    simp only [mapM_cons, bind_eq_ok, pure_eq_ok] at ran
    rcases ran with ⟨rewritten, own, others, rest, rfl⟩
    exact .cons own (ih rest)

variable {nodes : List FilterNode}

theorem rewrites_of_rewriteNodes {after : List FilterNode}
    (ran : rewriteNodes rewrite nodes = .ok after) :
    Rewrites rewrite (attributeLeaves (leavesOfList nodes))
      (attributeLeaves (leavesOfList after)) := by
  induction nodes using nodes_induction generalizing after with
  | nil =>
    rw [rewriteNodes, pure_eq_ok] at ran
    exact ran ▸ .nil
  | filter leaf nodes ih =>
    simp only [rewriteNodes, rewriteNode, bind_eq_ok, pure_eq_ok] at ran
    rcases ran with ⟨_, rfl, others, rest, rfl⟩
    show Rewrites rewrite (attributeLeaves (leavesOfList nodes))
      (attributeLeaves (leavesOfList others))
    exact ih rest
  | predicate typed nodes ih =>
    simp only [rewriteNodes, rewriteNode, bind_eq_ok, pure_eq_ok] at ran
    rcases ran with ⟨_, ⟨rewritten, own, rfl⟩, others, rest, rfl⟩
    exact .cons own (ih rest)
  | group all any nodes ihAll ihAny ih =>
    simp only [rewriteNodes, rewriteNode, bind_eq_ok, pure_eq_ok] at ran
    rcases ran with ⟨_, ⟨all', ranAll, any', ranAny, rfl⟩, others, rest, rfl⟩
    simp only [leavesOfList, FilterNode.leaves, attributeLeaves_append]
    exact rel_append (rel_append (ihAll ranAll) (ihAny ranAny)) (ih rest)

variable {group : Option FilterGroup}

theorem rewrites_of_rewriteGroup {after : Option FilterGroup}
    (ran : rewriteGroup rewrite group = .ok after) :
    Rewrites rewrite (attributeLeaves (iterFilterLeaves group))
      (attributeLeaves (iterFilterLeaves after)) := by
  cases group with
  | none =>
    rw [rewriteGroup, pure_eq_ok] at ran
    exact ran ▸ .nil
  | some group =>
    simp only [rewriteGroup, bind_eq_ok, pure_eq_ok] at ran
    rcases ran with ⟨all, ranAll, any, ranAny, rfl⟩
    simp only [iterFilterLeaves, FilterGroup.leaves, attributeLeaves_append]
    exact rel_append (rewrites_of_rewriteNodes ranAll) (rewrites_of_rewriteNodes ranAny)

variable {plan : PlanNode}

theorem rewrites_of_rewritePlan {after : PlanNode} (ran : rewritePlan rewrite plan = .ok after) :
    Rewrites rewrite (attributePredicatesOf plan) (attributePredicatesOf after) := by
  simp only [rewritePlan, bind_eq_ok, pure_eq_ok] at ran
  rcases ran with ⟨listed, ranListed, filters, ranFilters, having, ranHaving, rfl⟩
  exact rel_append (rel_append (rewrites_of_mapM ranListed)
    (rewrites_of_rewriteGroup ranFilters)) (rewrites_of_rewriteGroup ranHaving)

def CanRewrite (rewrite : AttributePredicate → Except Failure AttributePredicate)
    (before : List AttributePredicate) : Prop :=
  ∀ typed ∈ before, ∃ rewritten, rewrite typed = .ok rewritten

theorem canRewrite_append {first second : List AttributePredicate} :
    CanRewrite rewrite (first ++ second) ↔ CanRewrite rewrite first ∧ CanRewrite rewrite second :=
  forall_mem_append

theorem canRewrite_of_rewrites
    (rewrites : Rewrites rewrite before after) : CanRewrite rewrite before := by
  intro typed member
  rcases List.forall₂_iff_get.mp rewrites with ⟨same, each⟩
  rcases List.mem_iff_get.mp member with ⟨place, rfl⟩
  exact ⟨_, each place.1 place.2 (same ▸ place.2)⟩

theorem exists_rewriteNodes (each : CanRewrite rewrite (attributeLeaves (leavesOfList nodes))) :
    ∃ after, rewriteNodes rewrite nodes = .ok after := by
  induction nodes using nodes_induction with
  | nil => exact ⟨[], rfl⟩
  | filter leaf nodes ih =>
    rcases ih each with ⟨after, rest⟩
    exact ⟨_, bind_eq_ok.mpr ⟨_, rfl, bind_eq_ok.mpr ⟨after, rest, rfl⟩⟩⟩
  | predicate typed nodes ih =>
    rcases each typed mem_cons_self with ⟨rewritten, own⟩
    rcases ih fun other member => each other (mem_cons_of_mem _ member) with ⟨after, rest⟩
    exact ⟨_, bind_eq_ok.mpr ⟨_, bind_eq_ok.mpr ⟨rewritten, own, rfl⟩,
      bind_eq_ok.mpr ⟨after, rest, rfl⟩⟩⟩
  | group all any nodes ihAll ihAny ih =>
    simp only [leavesOfList, FilterNode.leaves, attributeLeaves_append, canRewrite_append] at each
    rcases ihAll each.1.1 with ⟨all', ranAll⟩
    rcases ihAny each.1.2 with ⟨any', ranAny⟩
    rcases ih each.2 with ⟨after, rest⟩
    exact ⟨_, bind_eq_ok.mpr ⟨_, bind_eq_ok.mpr ⟨all', ranAll,
      bind_eq_ok.mpr ⟨any', ranAny, rfl⟩⟩, bind_eq_ok.mpr ⟨after, rest, rfl⟩⟩⟩

theorem exists_rewriteGroup (each : CanRewrite rewrite (attributeLeaves (iterFilterLeaves group))) :
    ∃ after, rewriteGroup rewrite group = .ok after := by
  cases group with
  | none => exact ⟨none, rfl⟩
  | some group =>
    simp only [iterFilterLeaves, FilterGroup.leaves, attributeLeaves_append,
      canRewrite_append] at each
    rcases exists_rewriteNodes each.1 with ⟨all, ranAll⟩
    rcases exists_rewriteNodes each.2 with ⟨any, ranAny⟩
    exact ⟨_, bind_eq_ok.mpr ⟨all, ranAll, bind_eq_ok.mpr ⟨any, ranAny, rfl⟩⟩⟩

theorem exists_mapM (each : CanRewrite rewrite before) :
    ∃ after, before.mapM rewrite = .ok after := by
  induction before with
  | nil => exact ⟨[], rfl⟩
  | cons typed before ih =>
    rcases each typed mem_cons_self with ⟨rewritten, own⟩
    rcases ih fun other member => each other (mem_cons_of_mem _ member) with ⟨after, rest⟩
    refine ⟨rewritten :: after, ?_⟩
    simp only [mapM_cons, bind_eq_ok, pure_eq_ok]
    exact ⟨rewritten, own, after, rest, rfl⟩

/-- The pass fails only where it fails to rewrite a predicate. -/
theorem exists_rewritePlan_iff : (∃ after, rewritePlan rewrite plan = .ok after) ↔
      CanRewrite rewrite (attributePredicatesOf plan) := by
  constructor
  · rintro ⟨after, ran⟩
    exact canRewrite_of_rewrites (rewrites_of_rewritePlan ran)
  · intro each
    rw [attributePredicatesOf, canRewrite_append, canRewrite_append] at each
    rcases exists_mapM each.1.1 with ⟨listed, ranListed⟩
    rcases exists_rewriteGroup each.1.2 with ⟨filters, ranFilters⟩
    rcases exists_rewriteGroup each.2 with ⟨having, ranHaving⟩
    exact ⟨_, bind_eq_ok.mpr ⟨listed, ranListed, bind_eq_ok.mpr ⟨filters, ranFilters,
      bind_eq_ok.mpr ⟨having, ranHaving, rfl⟩⟩⟩⟩

theorem rewriteNodes_eq_self
    (same : ∀ typed ∈ attributeLeaves (leavesOfList nodes), rewrite typed = .ok typed) :
    rewriteNodes rewrite nodes = .ok nodes := by
  induction nodes using nodes_induction with
  | nil => rfl
  | filter leaf nodes ih =>
    exact bind_eq_ok.mpr ⟨_, rfl, bind_eq_ok.mpr ⟨nodes, ih same, rfl⟩⟩
  | predicate typed nodes ih =>
    have rest := ih fun other member => same other (mem_cons_of_mem _ member)
    exact bind_eq_ok.mpr ⟨_, bind_eq_ok.mpr ⟨typed, same typed mem_cons_self, rfl⟩,
      bind_eq_ok.mpr ⟨nodes, rest, rfl⟩⟩
  | group all any nodes ihAll ihAny ih =>
    simp only [leavesOfList, FilterNode.leaves, attributeLeaves_append, forall_mem_append] at same
    exact bind_eq_ok.mpr ⟨_, bind_eq_ok.mpr ⟨all, ihAll same.1.1,
      bind_eq_ok.mpr ⟨any, ihAny same.1.2, rfl⟩⟩,
      bind_eq_ok.mpr ⟨nodes, ih same.2, rfl⟩⟩

theorem rewriteGroup_eq_self
    (same : ∀ typed ∈ attributeLeaves (iterFilterLeaves group), rewrite typed = .ok typed) :
    rewriteGroup rewrite group = .ok group := by
  cases group with
  | none => rfl
  | some group =>
    simp only [iterFilterLeaves, FilterGroup.leaves, attributeLeaves_append,
      forall_mem_append] at same
    exact bind_eq_ok.mpr ⟨_, rewriteNodes_eq_self same.1,
      bind_eq_ok.mpr ⟨_, rewriteNodes_eq_self same.2, rfl⟩⟩

/-- The pass leaves a plan as it is exactly when it leaves each predicate as it is. -/
theorem rewritePlan_eq_self_iff : rewritePlan rewrite plan = .ok plan ↔
      ∀ typed ∈ attributePredicatesOf plan, rewrite typed = .ok typed := by
  constructor
  · intro ran
    exact List.forall₂_same.mp (rewrites_of_rewritePlan ran)
  · intro same
    simp only [attributePredicatesOf, forall_mem_append] at same
    have listed : plan.attributePredicates.mapM rewrite = .ok plan.attributePredicates := by
      rw [mapM_of_ok same.1.1, map_id']
    exact bind_eq_ok.mpr ⟨_, listed, bind_eq_ok.mpr ⟨_, rewriteGroup_eq_self same.1.2,
      bind_eq_ok.mpr ⟨_, rewriteGroup_eq_self same.2, rfl⟩⟩⟩

end Pass

end McpAssistant.BusinessQuery.PredicateRewriting
