import McpAssistant.BusinessQuery.FilterEvaluation
import McpAssistant.BusinessQuery.PlanValidation
import McpAssistant.Foundations.FlatJson
import McpAssistant.Foundations.MonotoneTrees

/-!
# Companions that list what another plan ranks

A list that runs beside a ranking over the same records is refused when it
restricts the records no further.  The guard compares the leaves of the two
filter trees and not how they are combined, and leaves the typed predicates of
the list out.  So a refusal is justified exactly when every way to satisfy the
ranked filters satisfies the listed filters and predicates.
-/

namespace McpAssistant.BusinessQuery.CompanionGuard

open FilterTree QueryPlan FilterEvaluation FilterJson
open PlanValidation (ownerOf)
open Foundations.JsonText
open Foundations.FlatJson (escapeAscii)
open Foundations.MonotoneTrees

structure PlannedQuerySet where
  primary : BusinessQueryPlan
  companions : List BusinessQueryPlan := []

/-- A grouped plan ordered by one of its own measures picks groups. -/
def ranksGroups (plan : BusinessQueryPlan) : Bool :=
  plan.grain == .grouped && !plan.dimensions.isEmpty &&
    plan.order.head?.any fun clause => plan.measures.contains clause.member

def rangeOf (period : Option BusinessPeriod) : Option BusinessPeriod :=
  period.map fun period => { period with granularity := none }

/-- The text of a leaf with its keys in order; two such texts are compared, so the
blanks between their tokens are left out. -/
def leafKey (leaf : FilterLeaf) : List Char :=
  printWith escapeAscii (sortKeys (.dict (dumpFilterLeaf leaf)))

def filterKeys (plan : BusinessQueryPlan) : List (List Char) :=
  (iterFilterLeaves plan.filters).map leafKey

def sameResource (ranked listed : BusinessQueryPlan) : Bool :=
  match ranked.dimensions with
  | [] => false
  | first :: _ =>
    !listed.dimensions.isEmpty &&
      listed.dimensions.all fun member => ownerOf member == ownerOf first

def listsTheRankedRecords (ranked listed : BusinessQueryPlan) : Bool :=
  ranksGroups ranked && listed.grain == .entityRows && listed.derivedSets.isEmpty &&
    sameResource ranked listed && (filterKeys listed).all (filterKeys ranked).contains &&
      rangeOf listed.period == rangeOf ranked.period

/-- Two plans of a set, by their places in it. -/
def pairs (planned : PlannedQuerySet) : List (BusinessQueryPlan × BusinessQueryPlan) :=
  let plans := (planned.primary :: planned.companions).zipIdx
  plans.flatMap fun ranked =>
    (plans.filter fun listed => listed.2 != ranked.2).map fun listed => (ranked.1, listed.1)

def dependentCompanion (planned : PlannedQuerySet) : Bool :=
  (pairs planned).any fun pair => listsTheRankedRecords pair.1 pair.2

/-- What is known of a record: where each leaf is true of it, and which periods it
falls in, whatever they are grouped by. -/
structure Record where
  leafTruth : FilterLeaf → Truth
  falls : BusinessPeriod → Prop
  byRange : ∀ period, falls { period with granularity := none } ↔ falls period

namespace Record

variable (record : Record)

def Passes (filters : Option FilterGroup) : Prop :=
  filtersTruth record.leafTruth filters = some true

def FallsIn (period : Option BusinessPeriod) : Prop :=
  ∀ range ∈ period, record.falls range

def Ranked (plan : BusinessQueryPlan) : Prop :=
  record.Passes plan.filters ∧ record.FallsIn plan.period

/-- A record that is listed: the typed predicates of the plan restrict it too. -/
def Listed (plan : BusinessQueryPlan) : Prop :=
  record.Passes plan.filters ∧ (∀ predicate ∈ plan.attributePredicates,
      record.leafTruth (.predicate predicate) = some true) ∧
    record.FallsIn plan.period

end Record

def Justified (ranked listed : BusinessQueryPlan) : Prop :=
  ∀ record : Record, record.Ranked ranked → record.Listed listed

mutual

def treeOf : FilterNode → Conditions FilterLeaf
  | .leaf leaf => .atom leaf
  | .group all any => .group (treesOf all) (treesOf any)

def treesOf : List FilterNode → List (Conditions FilterLeaf)
  | [] => []
  | node :: nodes => treeOf node :: treesOf nodes

end

/-- The tree of a plan's filters; a plan without filters asks nothing. -/
def filterTree (filters : Option FilterGroup) : Conditions FilterLeaf :=
  match filters with
  | none => .group [] []
  | some group => .group (treesOf group.all) (treesOf group.any)

section Trees

variable (leafTruth : FilterLeaf → Truth)

def isTrue (leaf : FilterLeaf) : Prop :=
  leafTruth leaf = some true

theorem group_true {all any : List Truth} {allTrees anyTrees : List (Conditions FilterLeaf)}
    {holds : FilterLeaf → Prop}
    (sameAll : (∀ clause ∈ all, clause = some true) ↔ ∀ tree ∈ allTrees, tree.Holds holds)
    (sameAny : (any = [] ∨ ∃ clause ∈ any, clause = some true) ↔
      (anyTrees = [] ∨ ∃ tree ∈ anyTrees, tree.Holds holds)) :
    groupTruth all any = some true ↔ (Conditions.group allTrees anyTrees).Holds holds := by
  rw [groupTruth_eq_true, group_holds_iff, sameAll, sameAny]

mutual

theorem nodeTruth_iff : ∀ node : FilterNode,
    nodeTruth leafTruth node = some true ↔ (treeOf node).Holds (isTrue leafTruth)
  | .leaf leaf => by
      rw [nodeTruth, treeOf, Conditions.Holds]
      exact Iff.rfl
  | .group all any => by
      rw [nodeTruth, treeOf]
      exact group_true (nodesTruth_all all) (nodesTruth_any any)

theorem nodesTruth_all : ∀ nodes : List FilterNode,
    (∀ clause ∈ nodesTruth leafTruth nodes, clause = some true) ↔
      ∀ tree ∈ treesOf nodes, tree.Holds (isTrue leafTruth)
  | [] => by
      rw [nodesTruth, treesOf]
      simp
  | node :: nodes => by
      rw [nodesTruth, treesOf, List.forall_mem_cons, List.forall_mem_cons,
        nodeTruth_iff node, nodesTruth_all nodes]

theorem nodesTruth_exists : ∀ nodes : List FilterNode,
    (∃ clause ∈ nodesTruth leafTruth nodes, clause = some true) ↔
      ∃ tree ∈ treesOf nodes, tree.Holds (isTrue leafTruth)
  | [] => by
      rw [nodesTruth, treesOf]
      simp
  | node :: nodes => by
      rw [nodesTruth, treesOf, List.exists_mem_cons_iff, List.exists_mem_cons_iff,
        nodeTruth_iff node, nodesTruth_exists nodes]

theorem nodesTruth_any : ∀ nodes : List FilterNode, (nodesTruth leafTruth nodes = [] ∨
        ∃ clause ∈ nodesTruth leafTruth nodes, clause = some true) ↔
      (treesOf nodes = [] ∨ ∃ tree ∈ treesOf nodes, tree.Holds (isTrue leafTruth))
  | [] => by
      rw [nodesTruth, treesOf]
      simp
  | node :: nodes => by
      rw [nodesTruth_exists (node :: nodes), nodesTruth, treesOf]
      simp

end

theorem filtersTruth_iff (filters : Option FilterGroup) :
    filtersTruth leafTruth filters = some true ↔ (filterTree filters).Holds (isTrue leafTruth) := by
  rcases filters with _ | group
  · rw [filterTree, group_holds_iff]
    simp [filtersTruth]
  · exact group_true (nodesTruth_all leafTruth group.all) (nodesTruth_any leafTruth group.any)

end Trees

/-- Whichever alternatives of the ranked filters are taken, the leaves met satisfy
the listed filters and are enough for the typed predicates of the list. -/
def Covered (ranked listed : BusinessQueryPlan) : Prop :=
  ∀ choice ∈ (filterTree ranked.filters).choices,
    (filterTree listed.filters).Holds (· ∈ choice) ∧ ∀ predicate ∈ listed.attributePredicates,
        FilterLeaf.predicate predicate ∈ choice

/-- A record of which just these leaves hold, and that falls in every period. -/
def recordWith (choice : List FilterLeaf) : Record where
  leafTruth leaf := if leaf ∈ choice then some true else some false
  falls _ := True
  byRange _ := Iff.rfl

theorem isTrue_recordWith (choice : List FilterLeaf) :
    isTrue (recordWith choice).leafTruth = (· ∈ choice) := by
  ext leaf
  show (if leaf ∈ choice then some true else some false) = some true ↔ leaf ∈ choice
  split
  · next member => exact ⟨fun _ => member, fun _ => rfl⟩
  · next absent =>
      constructor
      · intro same
        cases same
      · intro member
        exact absurd member absent

theorem fallsIn_of_sameRange {record : Record} {first second : Option BusinessPeriod}
    (same : rangeOf first = rangeOf second) (falls : record.FallsIn second) :
    record.FallsIn first := by
  intro period isFirst
  rw [Option.mem_def] at isFirst
  rw [isFirst] at same
  rcases second with _ | other
  · cases same
  · have ranges := Option.some.inj same
    dsimp only at ranges
    apply (record.byRange period).mp
    rw [ranges]
    exact (record.byRange other).mpr (falls other rfl)

theorem sameRange_of_lists {ranked listed : BusinessQueryPlan}
    (lists : listsTheRankedRecords ranked listed = true) :
    rangeOf listed.period = rangeOf ranked.period :=
  eq_of_beq (Bool.and_eq_true_iff.mp lists).2

/-- A refusal over two plans is justified exactly when the ranked filters cover
the list. -/
theorem justified_iff {ranked listed : BusinessQueryPlan}
    (lists : listsTheRankedRecords ranked listed = true) :
    Justified ranked listed ↔ Covered ranked listed := by
  have grows : ∀ few many : FilterLeaf → Prop, (∀ leaf, few leaf → many leaf) →
      ((filterTree listed.filters).Holds few ∧
        ∀ predicate ∈ listed.attributePredicates, few (.predicate predicate)) →
      (filterTree listed.filters).Holds many ∧
        ∀ predicate ∈ listed.attributePredicates, many (.predicate predicate) := by
    rintro few many more ⟨filters, predicates⟩
    refine ⟨Conditions.holds_mono more _ filters, ?_⟩
    intro predicate member
    exact more _ (predicates predicate member)
  constructor
  · intro justified choice member
    have ranks : (recordWith choice).Ranked ranked := by
      refine ⟨?_, fun _ _ => trivial⟩
      apply (filtersTruth_iff _ _).mpr
      rw [isTrue_recordWith]
      exact (Conditions.holds_iff _).mpr ⟨choice, member, fun _ inside => inside⟩
    rcases justified _ ranks with ⟨filters, predicates, _⟩
    have met := (filtersTruth_iff _ _).mp filters
    rw [isTrue_recordWith] at met
    refine ⟨met, ?_⟩
    intro predicate isListed
    have held : isTrue (recordWith choice).leafTruth (.predicate predicate) :=
      predicates predicate isListed
    rw [isTrue_recordWith] at held
    exact held
  · intro covered record ranks
    have met := (implies_iff grows _).mpr covered (isTrue record.leafTruth)
      ((filtersTruth_iff _ _).mp ranks.1)
    refine ⟨(filtersTruth_iff _ _).mpr met.1, met.2, ?_⟩
    exact fallsIn_of_sameRange (sameRange_of_lists lists) ranks.2

/--
A planned set is refused only for justified pairs exactly when the ranked filters
of every pair it is refused for cover the list.
-/
theorem refusals_justified_iff (planned : PlannedQuerySet) :
    (∀ pair ∈ pairs planned, listsTheRankedRecords pair.1 pair.2 = true → Justified pair.1 pair.2) ↔
      ∀ pair ∈ pairs planned, listsTheRankedRecords pair.1 pair.2 = true →
        Covered pair.1 pair.2 := by
  constructor
  · intro justified pair member lists
    exact (justified_iff lists).mp (justified pair member lists)
  · intro covered pair member lists
    exact (justified_iff lists).mpr (covered pair member lists)

def paidLeaf : FilterLeaf :=
  .filter { member := "invoice.status", operator := .eq, values := [.text "paid"] }

def lateLeaf : FilterLeaf :=
  .filter { member := "invoice.status", operator := .eq, values := [.text "late"] }

def rankedInvoices : BusinessQueryPlan where
  grain := .grouped
  measures := ["invoice.amount"]
  dimensions := ["invoice.customer"]
  order := [{ member := "invoice.amount", direction := .desc }]
  filters := some { any := [.leaf paidLeaf, .leaf lateLeaf] }

def lateInvoices : BusinessQueryPlan where
  grain := .entityRows
  dimensions := ["invoice.number"]
  filters := some { all := [.leaf lateLeaf] }

def lateBesideRanked : PlannedQuerySet where
  primary := rankedInvoices
  companions := [lateInvoices]

theorem lateBesideRanked_refused : dependentCompanion lateBesideRanked = true ∧
      listsTheRankedRecords rankedInvoices lateInvoices = true ∧
        ¬ Justified rankedInvoices lateInvoices := by
  have lists : listsTheRankedRecords rankedInvoices lateInvoices = true := by
    decide +kernel
  refine ⟨by decide +kernel, lists, ?_⟩
  intro justified
  have covered := (justified_iff lists).mp justified [paidLeaf] List.mem_cons_self
  have late := (group_holds_iff _ _ _).mp covered.1 |>.1 (.atom lateLeaf) List.mem_cons_self
  have other : lateLeaf ∉ [paidLeaf] := by decide
  exact other late

end McpAssistant.BusinessQuery.CompanionGuard
