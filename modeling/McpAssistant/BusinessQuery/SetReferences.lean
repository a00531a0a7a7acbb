import McpAssistant.BusinessQuery.FilterCompilation
import McpAssistant.BusinessQuery.PlanValidation
import McpAssistant.BusinessQuery.SetMembership
import McpAssistant.Foundations.Declarations

/-!
# References to derived sets

A plan that is accepted names in its filters only sets it declares, and a set's own plan
only sets declared before it.  Scoping and the filter compiler look each of these names
up in the sets in scope.
-/

namespace McpAssistant.BusinessQuery.SetReferences

open Definitions FilterTree QueryPlan PlanValidation Outcomes Visibility Scopes
open Scoping SetMembership
open FilterCompilation Foundations.Fallible Foundations.Declarations List

/-- The plan's own validators have nothing against it, whatever the time members that
the context named. -/
def Accepted (plan : BusinessQueryPlan) : Prop :=
  ∃ times, checkPlan times plan = .ok ()

def setReferences (item : DerivedSet BusinessQueryPlan) : List String :=
  setReferenceIds item.plan.filters

/-- Every reference resolves: the answer's among all sets of the plan, a set's among the
sets before it. -/
structure ReferencesResolve (plan : BusinessQueryPlan) : Prop where
  inOrder : InOrder DerivedSet.id setReferences plan.derivedSets
  answer : ∀ reference ∈ setReferenceIds plan.filters,
    reference ∈ plan.derivedSets.map DerivedSet.id
  having : setReferenceIds plan.having = [] ∧
    ∀ item ∈ plan.derivedSets, setReferenceIds item.plan.having = []
  flat : ∀ item ∈ plan.derivedSets, item.plan.derivedSets = []

theorem setPosition_eq_some {declared : List String} {id : String} {position : Nat}
    (found : setPosition declared id = some position) :
    declared[position]? = some id := by
  unfold setPosition at found
  obtain ⟨entry, isFound, rfl⟩ := Option.map_eq_some_iff.mp found
  have named := List.find?_some isFound
  have member := List.mem_reverse.mp (mem_of_find?_eq_some isFound)
  rw [mem_zipIdx_iff_getElem?] at member
  rw [member, eq_of_beq named]

variable {plan : BusinessQueryPlan}

theorem derivedSetViolations_of_accepted
    (accepted : Accepted plan) : derivedSetViolations plan = [] := by
  obtain ⟨times, checked⟩ := accepted
  simp only [checkPlan, grainShape, bind_eq_ok] at checked
  obtain ⟨_, ⟨_, _, _, _, _, _, _, _, _, _, sets⟩, _⟩ := checked
  unfold demand at sets
  split_ifs at sets with none
  · exact List.isEmpty_iff.mp none
  · cases sets

theorem earlier_of_setReferenceViolations {sets before after : List (DerivedSet BusinessQueryPlan)}
    {item : DerivedSet BusinessQueryPlan} {reference : String}
    (split : sets = before ++ item :: after)
    (none : setReferenceViolations sets before.length item reference = []) :
    reference ∈ before.map DerivedSet.id := by
  unfold setReferenceViolations at none
  cases found : setPosition (sets.map DerivedSet.id) reference with
  | none =>
    rw [found] at none
    cases none
  | some position =>
    rw [found] at none
    simp only at none
    split_ifs at none with late
    have isBefore : position < (before.map DerivedSet.id).length := by
      rw [length_map]
      exact Nat.lt_of_not_le late
    have named := setPosition_eq_some found
    rw [split, map_append, List.getElem?_append_left isBefore] at named
    exact mem_of_getElem? named

theorem referencesResolve_of_accepted (accepted : Accepted plan)
    (owned : plan.derivedSets ≠ [] ∨ setReferenceIds plan.filters = []) :
    ReferencesResolve plan := by
  have none := derivedSetViolations_of_accepted accepted
  simp only [derivedSetViolations, append_eq_nil_iff] at none
  obtain ⟨⟨⟨⟨⟨⟨_, unique⟩, having⟩, answer⟩, each⟩, _⟩, inner⟩ := none
  have clean : ∀ before item after, plan.derivedSets = before ++ item :: after →
      setItemViolations plan.derivedSets (item, before.length) = [] := by
    intro before item after split
    apply List.flatMap_eq_nil_iff.mp each
    rw [mem_zipIdx_iff_getElem?, split]
    simp
  constructor
  · constructor
    · split_ifs at unique with nodup
      exact nodup
    · intro before item after split reference member
      have violations := clean before item after split
      simp only [setItemViolations, append_eq_nil_iff] at violations
      apply earlier_of_setReferenceViolations split
      exact List.flatMap_eq_nil_iff.mp violations.1.1 reference member
  · intro reference member
    cases owned with
    | inr noReferences =>
      rw [noReferences] at member
      cases member
    | inl declares =>
      rw [if_neg (mt List.isEmpty_iff.mp declares), map_eq_nil_iff, filter_eq_nil_iff] at answer
      have known := answer reference member
      simpa using known
  · constructor
    · split_ifs at having with noReferences
      exact not_not.mp noReferences
    · intro item member
      obtain ⟨before, after, split⟩ := append_of_mem member
      have violations := clean before item after split
      simp only [setItemViolations, append_eq_nil_iff] at violations
      have none := violations.1.2
      split_ifs at none with noReferences
      exact not_not.mp noReferences
  · intro item member
    have shape := List.flatMap_eq_nil_iff.mp inner item member
    simp only [innerShapeViolations, append_eq_nil_iff] at shape
    obtain ⟨⟨⟨⟨⟨nested, _⟩, _⟩, _⟩, _⟩, _⟩ := shape
    split_ifs at nested with flat
    exact List.isEmpty_iff.mp flat

section Calls

variable (principal : Principal) (bundle : DefinitionBundle) (businessDate : Option Int)

inductive ScopingCall (root : BusinessQueryPlan) :
    List (ScopedDerivedSet ScopedPlan) → BusinessQueryPlan → Prop where
  | root : ScopingCall root [] root
  | inner {earlier derived : List (ScopedDerivedSet ScopedPlan)}
      {plan : BusinessQueryPlan} {before after : List (DerivedSet BusinessQueryPlan)}
      {item : DerivedSet BusinessQueryPlan} (outer : ScopingCall root earlier plan)
      (split : plan.derivedSets = before ++ item :: after)
      (scopedSets : scopeDerivedSets principal bundle businessDate [] before = .ok derived) :
      ScopingCall root derived item.plan

def ScopingFinds (root : BusinessQueryPlan) : Prop :=
  ∀ earlier plan derived, ScopingCall principal bundle businessDate root earlier plan →
    scopeDerivedSets principal bundle businessDate [] plan.derivedSets = .ok derived →
    ∀ reference ∈ setReferenceIds plan.filters,
      ∃ item, namedSet (earlier ++ derived) reference = some item

end Calls

theorem exists_namedSet {items : List (ScopedDerivedSet ScopedPlan)} {setId : String}
    (member : setId ∈ items.map ScopedDerivedSet.id) :
    ∃ item, namedSet items setId = some item := by
  obtain ⟨item, inItems, rfl⟩ := List.mem_map.mp member
  apply Option.isSome_iff_exists.mp
  unfold namedSet
  rw [List.find?_isSome]
  exact ⟨item, List.mem_reverse.mpr inItems, beq_self_eq_true item.id⟩

section Scope

variable {principal : Principal} {bundle : DefinitionBundle} {businessDate : Option Int}
  {plan : BusinessQueryPlan} {scope : ScopedPlan}

theorem ids_of_scopeDerivedSets {sets : List (DerivedSet BusinessQueryPlan)}
    {before after : List (ScopedDerivedSet ScopedPlan)}
    (succeeded : scopeDerivedSets principal bundle businessDate before sets = .ok after) :
    after.map ScopedDerivedSet.id = before.map ScopedDerivedSet.id ++ sets.map DerivedSet.id := by
  induction sets generalizing before with
  | nil =>
    cases succeeded
    exact (append_nil _).symm
  | cons item sets ih =>
    obtain ⟨id, mode, key, inner⟩ := item
    simp only [scopeDerivedSets, bind_eq_ok] at succeeded
    obtain ⟨innerScope, _, result⟩ := succeeded
    rw [ih result, map_append, append_assoc]
    rfl

theorem ScopingCall.cases_of_flat {earlier : List (ScopedDerivedSet ScopedPlan)}
    {inner : BusinessQueryPlan} (flat : ∀ item ∈ plan.derivedSets, item.plan.derivedSets = [])
    (call : ScopingCall principal bundle businessDate plan earlier inner) :
    (earlier = [] ∧ inner = plan) ∨
      ∃ before item after, plan.derivedSets = before ++ item :: after ∧ inner = item.plan ∧
        scopeDerivedSets principal bundle businessDate [] before = .ok earlier := by
  induction call with
  | root => exact .inl ⟨rfl, rfl⟩
  | @inner _ derived outer before after item _ split scopedSets ih =>
    rcases ih with ⟨_, rfl⟩ | ⟨_, set, _, setSplit, rfl, _⟩
    · exact .inr ⟨before, item, after, split, rfl, scopedSets⟩
    · have member : set ∈ plan.derivedSets := by
        rw [setSplit]
        exact mem_append_right _ mem_cons_self
      rw [flat set member] at split
      cases before with
      | nil => cases split
      | cons first rest => cases split

theorem scopingFinds_of_resolve (resolve : ReferencesResolve plan) :
    ScopingFinds principal bundle businessDate plan := by
  intro earlier inner derived call scopedSets reference member
  have ids := ids_of_scopeDerivedSets scopedSets
  apply exists_namedSet
  rw [map_append, ids]
  rcases call.cases_of_flat resolve.flat with
    ⟨rfl, rfl⟩ | ⟨before, item, after, split, rfl, scopedBefore⟩
  · apply mem_append_right
    exact mem_append_right _ (resolve.answer reference member)
  · apply mem_append_left
    rw [ids_of_scopeDerivedSets scopedBefore]
    apply mem_append_right
    exact resolve.inOrder.earlier before item after split reference member

end Scope

section Compiler

variable (parts : CompilerParts) (bundle : DefinitionBundle) (missing : Raised)

def lookedUp (compiled : List (String × Except Raised Unit)) (setId : String) :
    Except Raised Unit :=
  match compiled.reverse.find? fun entry => entry.1 == setId with
  | some entry => entry.2
  | none => .error missing

mutual

def compileScopedFilters : ScopedPlan → Except Raised Unit
  | ⟨plan, resources, _, derived, _, _, _, _, _, _⟩ => do
    let setParts := { parts with
      compileSet := lookedUp missing (compiledSets derived) }
    compileFilterGroup setParts bundle resources plan.measures false plan.filters
    compileFilterGroup setParts bundle resources plan.measures true plan.having

def compiledSets : List (ScopedDerivedSet ScopedPlan) → List (String × Except Raised Unit)
  | [] => []
  | ⟨id, key, _, inner⟩ :: items =>
    (id, if (timeGroupFor key inner.plan.toPlanNode).isSome then .ok ()
      else compileScopedFilters inner) :: compiledSets items

end

/-- No look-up of a set fails, so that it does not matter what one would raise. -/
def CompilerFinds (scope : ScopedPlan) : Prop :=
  ∀ missing other, compileScopedFilters parts bundle missing scope =
    compileScopedFilters parts bundle other scope

end Compiler

section Compiling

variable {parts : CompilerParts} {bundle : DefinitionBundle} {missing other : Raised}

theorem compiledSets_find? (items : List (ScopedDerivedSet ScopedPlan)) (setId : String) :
    ((compiledSets parts bundle missing items).reverse.find? fun entry =>
        entry.1 == setId).map Prod.snd =
      (namedSet items setId).map fun item =>
        if (timeGroupFor item.key item.scopedPlan.plan.toPlanNode).isSome then .ok ()
        else compileScopedFilters parts bundle missing item.scopedPlan := by
  induction items with
  | nil => rfl
  | cons item items ih =>
    obtain ⟨id, key, mode, inner⟩ := item
    rw [compiledSets]
    simp only [namedSet, reverse_cons, List.find?_append] at ih ⊢
    cases later : items.reverse.find? fun item => item.id == setId with
    | some found =>
      rw [later] at ih
      obtain ⟨entry, isFound, compiled⟩ := Option.map_eq_some_iff.mp ih
      rw [isFound]
      exact congrArg some compiled
    | none =>
      rw [later] at ih
      rw [Option.map_eq_none_iff.mp ih]
      by_cases same : id = setId
      · simp [same]
      · simp [same]

theorem lookedUp_compiledSets {items : List (ScopedDerivedSet ScopedPlan)}
    {setId : String} {item : ScopedDerivedSet ScopedPlan}
    (named : namedSet items setId = some item) :
    lookedUp missing (compiledSets parts bundle missing items) setId =
      if (timeGroupFor item.key item.scopedPlan.plan.toPlanNode).isSome then .ok ()
      else compileScopedFilters parts bundle missing item.scopedPlan := by
  have found := @compiledSets_find? parts bundle missing items setId
  rw [named] at found
  obtain ⟨entry, isFound, compiled⟩ := Option.map_eq_some_iff.mp found
  unfold lookedUp
  rw [isFound]
  exact compiled

/-- A leaf asks for no set but the one it names, and in a having clause for none. -/
theorem compileLeaf_congr {tables measures : List String} {allowMeasures : Bool}
    {leaf : FilterLeaf} {first second : String → Except Raised Unit}
    (same : allowMeasures = false → ∀ filter setId, leaf = .filter filter →
      filter.setId = some setId → first setId = second setId) :
    compileLeaf { parts with compileSet := first } bundle tables measures allowMeasures leaf =
      compileLeaf { parts with compileSet := second } bundle tables measures
        allowMeasures leaf := by
  cases leaf with
  | predicate typed => rfl
  | filter filter =>
    simp only [compileLeaf]
    rcases resolveMember bundle filter.member with _ | ⟨kind, measure | dimension | _ | _⟩
    all_goals try rfl
    simp only [compileDimensionFilter]
    cases allowMeasures with
    | true => rfl
    | false =>
      cases names : filter.setId with
      | none => rfl
      | some setId =>
        simp only
        rw [same rfl filter setId rfl names]
        rfl

theorem compilerFinds_of_found {scope : ScopedPlan} (found : ∀ part, Part scope part →
      ∀ reference ∈ setReferenceIds part.plan.filters,
        ∃ item, namedSet part.derived reference = some item) :
    CompilerFinds parts bundle scope := by
  induction scope using ScopedPlan.induction with
  | step scope ih =>
    intro missing other
    have inner : ∀ item ∈ scope.derived, compileScopedFilters parts bundle missing item.scopedPlan =
          compileScopedFilters parts bundle other item.scopedPlan := by
      intro item member
      apply ih item member
      intro part inside
      exact found part (Part.trans (.derived .self member) inside)
    have looked : ∀ reference ∈ setReferenceIds scope.plan.filters,
        lookedUp missing (compiledSets parts bundle missing scope.derived) reference =
          lookedUp other (compiledSets parts bundle other scope.derived) reference := by
      intro reference member
      obtain ⟨item, named⟩ := found scope .self reference member
      rw [lookedUp_compiledSets named, lookedUp_compiledSets named,
        inner item (List.mem_reverse.mp (mem_of_find?_eq_some named))]
    obtain ⟨plan, resources, forced, derived, principal, businessDate, bundleHash,
      responsePolicy, answerQueryId, display⟩ := scope
    have filters : ∀ leaf ∈ iterFilterLeaves plan.filters,
        ∀ filter setId, leaf = .filter filter → filter.setId = some setId →
          lookedUp missing (compiledSets parts bundle missing derived) setId =
            lookedUp other (compiledSets parts bundle other derived) setId := by
      rintro _ member filter setId rfl names
      apply looked
      exact List.mem_filterMap.mpr ⟨filter, mem_planFilters.mpr member, names⟩
    have kept : compileFilterGroup
          { parts with
            compileSet := lookedUp missing (compiledSets parts bundle missing derived) }
          bundle resources plan.measures false plan.filters =
        compileFilterGroup
          { parts with
            compileSet := lookedUp other (compiledSets parts bundle other derived) }
          bundle resources plan.measures false plan.filters := by
      apply forM_congr
      intro leaf member
      exact compileLeaf_congr fun _ => filters leaf member
    have had : compileFilterGroup
          { parts with
            compileSet := lookedUp missing (compiledSets parts bundle missing derived) }
          bundle resources plan.measures true plan.having =
        compileFilterGroup
          { parts with
            compileSet := lookedUp other (compiledSets parts bundle other derived) }
          bundle resources plan.measures true plan.having := by
      apply forM_congr
      intro leaf _
      exact compileLeaf_congr nofun
    simp only [compileScopedFilters]
    rw [kept, had]

theorem found_of_applyRoleScope {principal : Principal} {businessDate : Option Int}
    {plan : BusinessQueryPlan} {scope part : ScopedPlan}
    (succeeded : applyRoleScope principal bundle businessDate plan = .ok scope)
    (inside : Part scope part) (reference : String)
    (member : reference ∈ setReferenceIds part.plan.filters) :
    ∃ item, namedSet part.derived reference = some item := by
  obtain ⟨leaf, isLeaf, names⟩ := List.mem_filterMap.mp member
  obtain ⟨item, named, _⟩ := namedSet_of_compatible
    (compatible_of_applyRoleScope succeeded inside) (mem_planFilters.mp isLeaf) names
  exact ⟨item, named⟩

end Compiling

theorem references_nil_of_applyRoleScope {principal : Principal}
    {bundle : DefinitionBundle} {businessDate : Option Int}
    {scope : ScopedPlan}
    (succeeded : applyRoleScope principal bundle businessDate plan = .ok scope)
    (undeclared : plan.derivedSets = []) : setReferenceIds plan.filters = [] := by
  have node := scopedNode_of_eq_ok succeeded
  obtain ⟨derived, isDerived, inScope⟩ := node.derived
  rw [undeclared] at isDerived
  cases isDerived
  apply List.eq_nil_iff_forall_not_mem.mpr
  intro reference member
  rw [← node.samePlan] at member
  obtain ⟨item, named⟩ := found_of_applyRoleScope succeeded .self reference member
  rw [inScope] at named
  cases named

/-- The references of an accepted plan that declares sets, or names none, resolve without
a cycle, and neither scoping nor the filter compiler misses one.  An accepted plan that
names a set and declares none is not scoped. -/
theorem set_references_resolve {plan : BusinessQueryPlan} (accepted : Accepted plan) :
    (plan.derivedSets ≠ [] ∨ setReferenceIds plan.filters = [] → ReferencesResolve plan ∧
        (∀ id, ¬Relation.TransGen (Refers DerivedSet.id setReferences plan.derivedSets) id id) ∧
        ∀ principal bundle businessDate, ScopingFinds principal bundle businessDate plan ∧
            ∀ scope, applyRoleScope principal bundle businessDate plan = .ok scope →
              ∀ parts, CompilerFinds parts bundle scope) ∧
      (plan.derivedSets = [] → setReferenceIds plan.filters ≠ [] →
        ∀ principal bundle businessDate scope,
          applyRoleScope principal bundle businessDate plan ≠ .ok scope) := by
  constructor
  · intro owned
    have resolve := referencesResolve_of_accepted accepted owned
    refine ⟨resolve, resolve.inOrder.acyclic, ?_⟩
    intro principal bundle businessDate
    constructor
    · exact scopingFinds_of_resolve resolve
    · intro scope succeeded parts
      apply compilerFinds_of_found
      intro part inside
      exact found_of_applyRoleScope succeeded inside
  · intro undeclared references principal bundle businessDate scope succeeded
    exact references (references_nil_of_applyRoleScope succeeded undeclared)

theorem set_references_resolve_otherCustomers : ReferencesResolve otherCustomers :=
  ((set_references_resolve ⟨[], rfl⟩).1 (.inl (cons_ne_nil _ _))).1

def undeclaredSet : BusinessQueryPlan :=
  { otherCustomers with derivedSets := [] }

/-- The plan is accepted, and scoping finds no set for its reference. -/
theorem accepted_undeclaredSet :
    Accepted undeclaredSet ∧ setReferenceIds undeclaredSet.filters = ["s1"] ∧
      applyRoleScope customerViewer customerBundle none undeclaredSet =
        .error (refused .memberNotFound) :=
  ⟨⟨[], rfl⟩, rfl, rfl⟩

end McpAssistant.BusinessQuery.SetReferences
