import McpAssistant.BusinessQuery.FilterRoundTrip
import McpAssistant.BusinessQuery.PlannedExecution
import McpAssistant.BusinessQuery.PredicateRewriting

/-!
# One leaf made exact

A lookup is asked for by one leaf of one node of a plan.  The leaf is found again by its
member and operator, so every leaf that has both becomes exact with it.
-/

namespace McpAssistant.BusinessQuery.ExactBinding

open Definitions FilterTree QueryPlan PlanBinding FilterRoundTrip PredicateRewriting
  PlannedExecution List

/-- Nodes that differ in their leaves alone. -/
inductive SameShape : List FilterNode → List FilterNode → Prop where
  | nil : SameShape [] []
  | leaf (first second : FilterLeaf) {nodes others : List FilterNode}
      (rest : SameShape nodes others) : SameShape (.leaf first :: nodes) (.leaf second :: others)
  | group {all all' any any' nodes others : List FilterNode} (isAll : SameShape all all')
      (isAny : SameShape any any') (rest : SameShape nodes others) :
      SameShape (.group all any :: nodes) (.group all' any' :: others)

/-- One leaf becomes another at its place among nodes, and all else stays. -/
def OneBecomes (old new : FilterLeaf) (first second : List FilterNode) : Prop :=
  SameShape first second ∧ ∃ before after, leavesOfList first = before ++ old :: after ∧
    leavesOfList second = before ++ new :: after

def rootOf (group : FilterGroup) : List FilterNode :=
  [.group group.all group.any]

def NodeBecomes (old new : FilterLeaf) (before after : BusinessQueryPlan) : Prop :=
  ∃ group bound, before.filters = some group ∧ OneBecomes old new (rootOf group) (rootOf bound) ∧
    after = { before with filters := some bound }

def PlanBecomes (old new : FilterLeaf) (before after : BusinessQueryPlan) : PlanPath → Prop
  | [] => NodeBecomes old new before after
  | [id] => ∃ sets, after = { before with derivedSets := sets } ∧
      List.Forall₂ (fun first second => if first.id = id then
          ∃ plan, NodeBecomes old new first.plan plan ∧ second = { first with plan := plan }
        else second = first) before.derivedSets sets
  | _ => False

/-- The equality that a leaf becomes. -/
def exactLeaf (target : String) (canonical : FilterValue) : FilterLeaf :=
  .filter ⟨target, .eq, [canonical], acceptsValues_single canonical⟩

structure Resolved where
  plan : BusinessQueryPlan
  bundle : DefinitionBundle
  path : PlanPath
  node : BusinessQueryPlan
  leaf : PlanFilter
  lookup : ResolverLookup
  target : String
  canonical : FilterValue
  distinct : (plan.derivedSets.map DerivedSet.id).Nodup
  isNode : (path, node) ∈ iterPlanNodes plan
  isLeaf : .filter leaf ∈ iterFilterLeaves node.filters
  asked : leafLookup bundle path leaf = some lookup

namespace Resolved

variable (resolved : Resolved)

def BindsAlone : Prop :=
  ∃ bound, bindExactFilter resolved.plan resolved.lookup.member resolved.canonical
      resolved.lookup.path resolved.target = .ok bound ∧
    PlanBecomes (.filter resolved.leaf) (exactLeaf resolved.target resolved.canonical)
      resolved.plan bound resolved.path

end Resolved

def found (member : String) : FilterLeaf → Bool
  | .filter leaf => leaf.member = member ∧ leaf.operator = .contains
  | .predicate _ => false

def countFound (member : String) (nodes : List FilterNode) : Nat :=
  (leavesOfList nodes).countP (found member)

/-- No other leaf of the node contains on the member, and no group inside it is empty. -/
def Resolved.StandsAlone (resolved : Resolved) : Prop :=
  ∀ group, resolved.node.filters = some group →
    countFound resolved.lookup.member (rootOf group) = 1 ∧ filledNodes (rootOf group) = true

section Nodes

variable {old : PlanFilter} {new : FilterLeaf} {member target : String} {canonical : FilterValue}

theorem SameShape.length_eq {first second : List FilterNode} (same : SameShape first second) :
    second.length = first.length := by
  induction same with
  | nil => rfl
  | leaf first second rest ih => exact congrArg (· + 1) ih
  | group isAll isAny rest _ _ ih => exact congrArg (· + 1) ih

theorem length_mapFilterNodes_le (transform : FilterLeaf → FilterLeaf)
    (nodes : List FilterNode) : (mapFilterNodes transform nodes).length ≤ nodes.length := by
  induction nodes with
  | nil => exact Nat.le_refl 0
  | cons node nodes ih =>
    rw [mapFilterNodes]
    split
    · exact Nat.succ_le_succ ih
    · exact Nat.le_succ_of_le ih

/-- A group is kept where its branches keep their lengths and one has a node. -/
theorem mapFilterNodes_group (transform : FilterLeaf → FilterLeaf)
    (all any nodes : List FilterNode) :
    mapFilterNodes transform (.group all any :: nodes) =
      if mapFilterNodes transform all = [] ∧ mapFilterNodes transform any = [] then
        mapFilterNodes transform nodes
      else .group (mapFilterNodes transform all) (mapFilterNodes transform any) ::
        mapFilterNodes transform nodes := by
  rw [mapFilterNodes, mapFilterNode]
  by_cases empty : mapFilterNodes transform all = [] ∧ mapFilterNodes transform any = []
  · rw [if_pos empty, empty.1, empty.2]
    rfl
  · rw [if_neg empty]
    simp [empty]

theorem group_of_length {transform : FilterLeaf → FilterLeaf} {all any nodes : List FilterNode}
    (same : (mapFilterNodes transform (.group all any :: nodes)).length = nodes.length + 1) :
    ¬(mapFilterNodes transform all = [] ∧ mapFilterNodes transform any = []) := by
  intro empty
  rw [mapFilterNodes_group, if_pos empty] at same
  have atMost := length_mapFilterNodes_le transform nodes
  omega

variable {leaf : FilterLeaf}

theorem bindLeaf_of_found (isFound : found member leaf = true) :
    bindLeaf member target canonical leaf = exactLeaf target canonical := by
  cases leaf with
  | filter leaf => exact if_pos (of_decide_eq_true isFound)
  | predicate typed => cases isFound

theorem bindLeaf_of_not_found (other : found member leaf = false) :
    bindLeaf member target canonical leaf = leaf := by
  cases leaf with
  | filter leaf => exact if_neg (of_decide_eq_false other)
  | predicate typed => rfl

theorem bindLeaf_eq_self_iff :
    bindLeaf member target canonical leaf = leaf ↔ found member leaf = false := by
  constructor
  · intro same
    by_contra isFound
    rw [Bool.not_eq_false] at isFound
    rw [bindLeaf_of_found isFound] at same
    rw [← same] at isFound
    exact absurd (of_decide_eq_true isFound).2 nofun
  · exact bindLeaf_of_not_found

/-- Mapping leaves keeps the shape where no group is empty. -/
theorem sameShape_iff (transform : FilterLeaf → FilterLeaf) (nodes : List FilterNode) :
    SameShape nodes (mapFilterNodes transform nodes) ↔ filledNodes nodes = true := by
  have leafCase (leaf : FilterLeaf) (nodes : List FilterNode)
      (ih : SameShape nodes (mapFilterNodes transform nodes) ↔ filledNodes nodes = true) :
      SameShape (.leaf leaf :: nodes) (mapFilterNodes transform (.leaf leaf :: nodes)) ↔
        filledNodes nodes = true := by
    rw [← ih]
    constructor
    · intro same
      cases same with
      | leaf _ _ rest => exact rest
    · exact .leaf _ _
  induction nodes using nodes_induction with
  | nil => exact iff_of_true .nil rfl
  | filter leaf nodes ih => exact leafCase _ nodes ih
  | predicate typed nodes ih => exact leafCase _ nodes ih
  | group all any nodes ihAll ihAny ih =>
    have filled : filledNodes (.group all any :: nodes) = true ↔
        ¬(all = [] ∧ any = []) ∧ filledNodes all = true ∧ filledNodes any = true ∧
          filledNodes nodes = true := by
      simp only [filledNodes, filledNode, Bool.and_eq_true, Bool.or_eq_true,
        Bool.not_eq_true', isEmpty_eq_false_iff, and_assoc]
      tauto
    rw [filled]
    constructor
    · intro same
      have kept := group_of_length same.length_eq
      rw [mapFilterNodes_group, if_neg kept] at same
      cases same with
      | group isAll isAny rest =>
        refine ⟨?_, ihAll.mp isAll, ihAny.mp isAny, ih.mp rest⟩
        rintro ⟨rfl, rfl⟩
        exact kept ⟨rfl, rfl⟩
    · rintro ⟨nonempty, isAll, isAny, rest⟩
      have sameAll := ihAll.mpr isAll
      have sameAny := ihAny.mpr isAny
      rw [mapFilterNodes_group, if_neg]
      · exact .group sameAll sameAny (ih.mpr rest)
      · rintro ⟨noAll, noAny⟩
        have lengths := And.intro sameAll.length_eq sameAny.length_eq
        rw [noAll, noAny] at lengths
        exact nonempty ⟨eq_nil_of_length_eq_zero lengths.1.symm,
          eq_nil_of_length_eq_zero lengths.2.symm⟩

theorem leavesOfList_mapFilterNodes (transform : FilterLeaf → FilterLeaf)
    (nodes : List FilterNode) :
    leavesOfList (mapFilterNodes transform nodes) = (leavesOfList nodes).map transform := by
  induction nodes using nodes_induction with
  | nil => rfl
  | filter leaf nodes ih => exact congrArg (_ :: ·) ih
  | predicate typed nodes ih => exact congrArg (_ :: ·) ih
  | group all any nodes ihAll ihAny ih =>
    have mapped : leavesOfList (.group all any :: nodes) =
        leavesOfList all ++ leavesOfList any ++ leavesOfList nodes := rfl
    rw [mapped, map_append, map_append, ← ihAll, ← ihAny, ← ih, mapFilterNodes_group]
    split
    · rename_i empty
      rw [empty.1, empty.2]
      rfl
    · rfl

theorem leaves_become_iff (isFound : found member (.filter old) = true) (leaves : List FilterLeaf) :
    (∃ before after, leaves = before ++ .filter old :: after ∧
        leaves.map (bindLeaf member target canonical) =
          before ++ exactLeaf target canonical :: after) ↔
      leaves.countP (found member) = 1 ∧ .filter old ∈ leaves := by
  have unfound (part : List FilterLeaf) :
      part.map (bindLeaf member target canonical) = part ↔ part.countP (found member) = 0 := by
    have self := @map_inj_left _ _ part (bindLeaf member target canonical) id
    rw [map_id] at self
    rw [self, countP_eq_zero]
    simp only [id, bindLeaf_eq_self_iff, Bool.not_eq_true]
  constructor
  · rintro ⟨before, after, rfl, mapped⟩
    rw [map_append, map_cons, bindLeaf_of_found isFound] at mapped
    have parts := append_inj mapped (length_map _)
    rw [countP_append, countP_cons_of_pos isFound, (unfound before).mp parts.1,
      (unfound after).mp (List.cons.inj parts.2).2]
    exact ⟨rfl, mem_append_right _ mem_cons_self⟩
  · rintro ⟨count, listed⟩
    rcases append_of_mem listed with ⟨before, after, rfl⟩
    rw [countP_append, countP_cons_of_pos isFound] at count
    refine ⟨before, after, rfl, ?_⟩
    rw [map_append, map_cons, bindLeaf_of_found isFound,
      (unfound before).mpr (by omega), (unfound after).mpr (by omega)]

theorem oneBecomes_iff (isFound : found member (.filter old) = true)
    {nodes : List FilterNode} (listed : .filter old ∈ leavesOfList nodes) :
    OneBecomes (.filter old) (exactLeaf target canonical) nodes
        (mapFilterNodes (bindLeaf member target canonical) nodes) ↔
      countFound member nodes = 1 ∧ filledNodes nodes = true := by
  rw [OneBecomes, sameShape_iff, leavesOfList_mapFilterNodes, leaves_become_iff isFound, and_comm]
  simp only [listed, and_true]
  rfl

end Nodes

section Plans

variable {old new : FilterLeaf} {transform : FilterLeaf → FilterLeaf}
  {plan bound : BusinessQueryPlan} {group : FilterGroup}

theorem mapNodeFilters_eq_ok (isGroup : plan.filters = some group) :
    mapNodeFilters transform plan = .ok bound ↔
      ∃ kept, mapFilterNodes transform (rootOf group) = rootOf kept ∧
        bound = { plan with filters := some kept } := by
  rw [mapNodeFilters, isGroup, rootOf, mapFilterNodes_group]
  simp only [mapFilterTree]
  by_cases empty : mapFilterNodes transform group.all = [] ∧ mapFilterNodes transform group.any = []
  · rw [empty.1, empty.2]
    constructor
    · intro isOk
      cases isOk
    · rintro ⟨kept, same, _⟩
      cases same
  · rw [if_neg empty, if_neg (by simpa using empty)]
    constructor
    · intro isOk
      exact ⟨⟨_, _⟩, rfl, (Except.ok.inj isOk).symm⟩
    · rintro ⟨kept, same, rfl⟩
      have parts := FilterNode.group.inj (List.cons.inj same).1
      rw [parts.1, parts.2]

/-- A node whose filters are mapped changes in one leaf as its filters do. -/
theorem nodeBecomes_iff (isGroup : plan.filters = some group) :
    (∃ bound, mapNodeFilters transform plan = .ok bound ∧ NodeBecomes old new plan bound) ↔
      OneBecomes old new (rootOf group) (mapFilterNodes transform (rootOf group)) := by
  constructor
  · rintro ⟨bound, isOk, other, changed, isOther, one, rfl⟩
    rcases (mapNodeFilters_eq_ok isGroup).mp isOk with ⟨kept, mapped, same⟩
    cases isGroup.symm.trans isOther
    have isKept : changed = kept := Option.some.inj (congrArg (fun node => node.filters) same)
    rw [mapped, ← isKept]
    exact one
  · intro one
    have kept := group_of_length (one.1.length_eq)
    have mapped := mapFilterNodes_group transform group.all group.any []
    rw [if_neg kept] at mapped
    refine ⟨_, (mapNodeFilters_eq_ok isGroup).mpr ⟨⟨_, _⟩, mapped, rfl⟩, group, ⟨_, _⟩, isGroup,
      ?_, rfl⟩
    rw [rootOf, mapped] at one
    exact one

theorem planAtPath_derived (distinct : (plan.derivedSets.map DerivedSet.id).Nodup)
    {item : DerivedSet BusinessQueryPlan} (listed : item ∈ plan.derivedSets) :
    planAtPath plan [item.id] = some item.plan := by
  rw [planAtPath, iterPlanNodes]
  have lookups (sets : List (DerivedSet BusinessQueryPlan)) (last : List (PlanPath × _))
      (distinct : (sets.map DerivedSet.id).Nodup) (listed : item ∈ sets) :
      ((sets.map fun (first : DerivedSet BusinessQueryPlan) =>
          ([first.id], first.plan)) ++ last).lookup [item.id] =
        some item.plan := by
    induction sets with
    | nil => cases listed
    | cons first sets ih =>
      rw [map_cons, cons_append, lookup_cons]
      rw [map_cons, nodup_cons] at distinct
      rcases List.mem_cons.mp listed with rfl | later
      · rw [beq_self_eq_true]
      · have apart : ¬[item.id] = [first.id] := by
          intro same
          rw [← (List.cons.inj same).1] at distinct
          exact distinct.1 (mem_map_of_mem later)
        rw [beq_eq_false_iff_ne.mpr apart]
        exact ih distinct.2 later
  rw [reverse_cons, ← map_reverse]
  apply lookups
  · rw [map_reverse]
    exact List.nodup_reverse.mpr distinct
  · exact List.mem_reverse.mpr listed

theorem planBecomes_replaced (distinct : (plan.derivedSets.map DerivedSet.id).Nodup)
    {item : DerivedSet BusinessQueryPlan} (listed : item ∈ plan.derivedSets)
    (updated : BusinessQueryPlan) :
    (∃ bound, replacePlanAtPath plan [item.id] updated = .ok bound ∧
        PlanBecomes old new plan bound [item.id]) ↔ NodeBecomes old new item.plan updated := by
  rw [replacePlanAtPath, if_pos (mem_map_of_mem listed)]
  constructor
  · rintro ⟨bound, isOk, sets, rfl, each⟩
    have same : _ = sets := congrArg BusinessQueryPlan.derivedSets (Except.ok.inj isOk)
    rw [← same, forall₂_map_right_iff, forall₂_same] at each
    have own := each item listed
    rw [if_pos rfl, if_pos rfl] at own
    rcases own with ⟨changed, becomes, isChanged⟩
    rw [show updated = changed from congrArg DerivedSet.plan isChanged]
    exact becomes
  · intro becomes
    refine ⟨_, rfl, _, rfl, ?_⟩
    rw [forall₂_map_right_iff, forall₂_same]
    intro other isOther
    split
    · rename_i sameId
      rw [inj_on_of_nodup_map distinct isOther listed sameId]
      exact ⟨updated, becomes, rfl⟩
    · rfl

end Plans

theorem asked_of_leafLookup {bundle : DefinitionBundle} {path : PlanPath} {leaf : PlanFilter}
    {lookup : ResolverLookup} (asked : leafLookup bundle path leaf = some lookup) :
    found lookup.member (.filter leaf) = true ∧ lookup.path = path := by
  unfold leafLookup at asked
  split at asked
  · rename_i raw isContains _
    rcases Option.map_eq_some_iff.mp asked with ⟨valueType, _, rfl⟩
    exact ⟨decide_eq_true ⟨rfl, isContains⟩, rfl⟩
  · cases asked

theorem bindsAlone_of_group (resolved : Resolved) {group : FilterGroup}
    (isGroup : resolved.node.filters = some group) : resolved.BindsAlone ↔
      countFound resolved.lookup.member (rootOf group) = 1 ∧ filledNodes (rootOf group) = true := by
  rcases resolved with ⟨plan, bundle, path, node, leaf, lookup, target, canonical, distinct,
    isNode, isLeaf, asked⟩
  rcases asked_of_leafLookup asked with ⟨isFound, isPath⟩
  change node.filters = some group at isGroup
  rw [isGroup] at isLeaf
  have inRoot : .filter leaf ∈ leavesOfList (rootOf group) := mem_append_left [] isLeaf
  show (∃ bound, bindExactFilter plan lookup.member canonical lookup.path target =
    .ok bound ∧ PlanBecomes _ _ plan bound path) ↔ countFound lookup.member _ = 1 ∧ _
  rw [← oneBecomes_iff isFound inRoot, ← nodeBecomes_iff isGroup, isPath]
  rcases List.mem_cons.mp isNode with same | derived
  · cases same
    exact Iff.rfl
  · rcases List.mem_map.mp derived with ⟨item, listed, same⟩
    cases same
    have replaced := @planBecomes_replaced (.filter leaf) (exactLeaf target canonical) plan
      distinct item listed
    rw [bindExactFilter, planAtPath_derived distinct listed]
    · constructor
      · rintro ⟨bound, isOk, becomes⟩
        rcases Foundations.Fallible.bind_eq_ok.mp isOk with ⟨updated, isUpdated, isBound⟩
        exact ⟨updated, isUpdated, (replaced updated).mp ⟨bound, isBound, becomes⟩⟩
      · rintro ⟨updated, isUpdated, becomes⟩
        rcases (replaced updated).mpr becomes with ⟨bound, isBound, becomes⟩
        exact ⟨bound, Foundations.Fallible.bind_eq_ok.mpr ⟨updated, isUpdated, isBound⟩, becomes⟩
    · exact nofun

/-- Binding changes the leaf that was looked up alone exactly when no other leaf of its node
contains on the member. -/
theorem bindsAlone_iff (resolved : Resolved) : resolved.BindsAlone ↔ resolved.StandsAlone := by
  cases isGroup : resolved.node.filters with
  | none =>
    have isLeaf := resolved.isLeaf
    rw [isGroup] at isLeaf
    cases isLeaf
  | some group =>
    rw [bindsAlone_of_group resolved isGroup, Resolved.StandsAlone]
    simp [isGroup]

def acmeOrOthers : Resolved where
  plan := {
    dimensions := ["customer.city"]
    filters := some { any := [
      .leaf (.filter ⟨"customer.name", .contains, [.text "acme"], by decide⟩),
      .leaf (.filter ⟨"customer.name", .contains, [.text "beta", .text "gamma"], rfl⟩)] }
    grain := .entityRows }
  bundle := directoryBundle
  path := []
  node := _
  leaf := ⟨"customer.name", .contains, [.text "acme"], by decide⟩
  lookup := ⟨.customer, "customer.name", "acme", []⟩
  target := "customer.name"
  canonical := .text "Acme Ltd"
  distinct := nodup_nil
  isNode := mem_cons_self
  isLeaf := mem_cons_self
  asked := by rfl

/-- The customers called beta or gamma are gone with it. -/
theorem acmeOrOthers_not_bindsAlone : ¬ acmeOrOthers.BindsAlone := by
  rw [bindsAlone_of_group acmeOrOthers rfl]
  decide

end McpAssistant.BusinessQuery.ExactBinding
