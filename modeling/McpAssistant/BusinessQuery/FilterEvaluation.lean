import McpAssistant.BusinessQuery.FilterTree

/-!
# Evaluating filters

The database evaluates a filter tree in three-valued logic: a comparison with
null is unknown, and a row is kept only where the whole tree is true.
-/

namespace McpAssistant.BusinessQuery.FilterEvaluation

open Definitions FilterTree List

/-- A truth value; `none` is unknown. -/
abbrev Truth := Option Bool

def Truth.and : Truth → Truth → Truth
  | some false, _ => some false
  | _, some false => some false
  | some true, some true => some true
  | _, _ => none

def Truth.or : Truth → Truth → Truth
  | some true, _ => some true
  | _, some true => some true
  | some false, some false => some false
  | _, _ => none

theorem Truth.and_eq_true {left right : Truth} :
    left.and right = some true ↔ left = some true ∧ right = some true := by
  rcases left with _ | _ | _ <;> rcases right with _ | _ | _ <;>
    simp [Truth.and]

theorem Truth.or_eq_true {left right : Truth} :
    left.or right = some true ↔ left = some true ∨ right = some true := by
  rcases left with _ | _ | _ <;> rcases right with _ | _ | _ <;>
    simp [Truth.or]

def conjunction (clauses : List Truth) : Truth :=
  clauses.foldr Truth.and (some true)

def disjunction (clauses : List Truth) : Truth :=
  clauses.foldr Truth.or (some false)

variable {clauses : List Truth}

theorem conjunction_eq_true : conjunction clauses = some true ↔
      ∀ clause ∈ clauses, clause = some true := by
  induction clauses with
  | nil => simp [conjunction]
  | cons clause clauses ih =>
    show clause.and (conjunction clauses) = some true ↔ _
    rw [Truth.and_eq_true, ih, forall_mem_cons]

theorem disjunction_eq_true : disjunction clauses = some true ↔
      ∃ clause ∈ clauses, clause = some true := by
  induction clauses with
  | nil => simp [disjunction]
  | cons clause clauses ih =>
    show clause.or (disjunction clauses) = some true ↔ _
    rw [Truth.or_eq_true, ih, exists_mem_cons_iff]

def groupTruth (all any : List Truth) : Truth :=
  match all, any with
  | [], [] => some true
  | [], any => disjunction any
  | all, [] => conjunction all
  | all, any => (conjunction all).and (disjunction any)

theorem groupTruth_all {all : List Truth} :
    groupTruth all [] = some true ↔ ∀ clause ∈ all, clause = some true := by
  cases all with
  | nil => simp [groupTruth]
  | cons clause clauses => exact conjunction_eq_true

theorem groupTruth_any {clause : Truth} {any : List Truth} :
    groupTruth [] (clause :: any) = some true ↔ ∃ found ∈ clause :: any, found = some true :=
  disjunction_eq_true

theorem groupTruth_eq_true {all any : List Truth} : groupTruth all any = some true ↔
      (∀ clause ∈ all, clause = some true) ∧ (any = [] ∨ ∃ clause ∈ any, clause = some true) := by
  cases any with
  | nil => simp [groupTruth_all]
  | cons clause any =>
    cases all with
    | nil => simp [groupTruth_any]
    | cons first all =>
      show Truth.and (conjunction (first :: all)) (disjunction (clause :: any)) = some true ↔ _
      rw [Truth.and_eq_true, conjunction_eq_true, disjunction_eq_true]
      simp

section Tree

variable (leafTruth : FilterLeaf → Truth)

mutual

def nodeTruth : FilterNode → Truth
  | .leaf leaf => leafTruth leaf
  | .group all any => groupTruth (nodesTruth all) (nodesTruth any)

def nodesTruth : List FilterNode → List Truth
  | [] => []
  | node :: nodes => nodeTruth node :: nodesTruth nodes

end

theorem nodesTruth_eq_map (nodes : List FilterNode) :
    nodesTruth leafTruth nodes = nodes.map (nodeTruth leafTruth) := by
  induction nodes with
  | nil => rfl
  | cons node nodes ih => rw [nodesTruth, ih, map_cons]

/-- A plan without filters keeps every row. -/
def filtersTruth (filters : Option FilterGroup) : Truth :=
  match filters with
  | none => some true
  | some group =>
    groupTruth (nodesTruth leafTruth group.all) (nodesTruth leafTruth group.any)

/-- Whether a tree is true depends on where its leaves are true. -/
theorem groupTruth_map_congr {first second : FilterNode → Truth} {all any : List FilterNode}
    (sameAll : ∀ node ∈ all, first node = some true ↔ second node = some true)
    (sameAny : ∀ node ∈ any, first node = some true ↔ second node = some true) :
    groupTruth (all.map first) (any.map first) = some true ↔
      groupTruth (all.map second) (any.map second) = some true := by
  rw [groupTruth_eq_true, groupTruth_eq_true]
  apply and_congr
  · simp only [forall_mem_map]
    exact forall₂_congr sameAll
  · apply or_congr
    · simp
    · simp only [mem_map, exists_exists_and_eq_and]
      exact exists_congr fun node => and_congr_right (sameAny node)

section Congruence

variable {first second : FilterLeaf → Truth}

mutual

theorem nodeTruth_congr : ∀ (node : FilterNode),
    (∀ leaf ∈ node.leaves, first leaf = some true ↔ second leaf = some true) →
      (nodeTruth first node = some true ↔ nodeTruth second node = some true)
  | .leaf leaf, same => same leaf (mem_singleton_self leaf)
  | .group all any, same => by
      simp only [nodeTruth, nodesTruth_eq_map]
      apply groupTruth_map_congr
      · exact nodesTruth_congr all fun leaf member =>
          same leaf (mem_append_left _ member)
      · exact nodesTruth_congr any fun leaf member =>
          same leaf (mem_append_right _ member)

theorem nodesTruth_congr : ∀ (nodes : List FilterNode), (∀ leaf ∈ leavesOfList nodes,
      first leaf = some true ↔ second leaf = some true) →
      ∀ node ∈ nodes, (nodeTruth first node = some true ↔ nodeTruth second node = some true)
  | [], _, _, member => absurd member not_mem_nil
  | node :: nodes, same, found, member => by
      have head := nodeTruth_congr node fun leaf inNode =>
        same leaf (mem_append_left _ inNode)
      have tail := nodesTruth_congr nodes fun leaf inNodes =>
        same leaf (mem_append_right _ inNodes)
      rcases List.mem_cons.mp member with rfl | later
      · exact head
      · exact tail found later

end

theorem filtersTruth_congr {filters : Option FilterGroup} (same : ∀ leaf ∈ iterFilterLeaves filters,
      first leaf = some true ↔ second leaf = some true) :
    filtersTruth first filters = some true ↔ filtersTruth second filters = some true := by
  cases filters with
  | none => exact Iff.rfl
  | some group =>
    simp only [filtersTruth, nodesTruth_eq_map]
    apply groupTruth_map_congr
    · exact nodesTruth_congr group.all fun leaf member =>
        same leaf (mem_append_left _ member)
    · exact nodesTruth_congr group.any fun leaf member =>
        same leaf (mem_append_right _ member)

end Congruence

end Tree

/-- How a database reads and compares what a filter names.  `value` is a row's
value for a member, null being `none`; `rank` is the order of the column behind
a member; `other` decides the leaves that are not a plain comparison. -/
structure Database (Row Key : Type) where
  value : Row → String → Option FilterValue
  rank : String → FilterValue → Key
  other : FilterLeaf → Row → Truth

section Leaf

variable {Row Key : Type} [LinearOrder Key] (database : Database Row Key)
  (spelling : String → FilterValue → FilterValue)

/-- Compares a member with its values, each in the spelling the compiler gives
it; a null compares as unknown. -/
def leafTruth (row : Row) (leaf : FilterLeaf) : Truth :=
  match leaf with
  | .predicate typed => database.other (.predicate typed) row
  | .filter leaf =>
    let order (value : FilterValue) := database.rank leaf.member value
    match leaf.operator, leaf.values.map (spelling leaf.member) with
    | .gt, bound :: _ =>
      (database.value row leaf.member).map fun found =>
        decide (order bound < order found)
    | .lt, bound :: _ =>
      (database.value row leaf.member).map fun found =>
        decide (order found < order bound)
    | .eq, [bound] =>
      (database.value row leaf.member).map fun found =>
        decide (order found = order bound)
    | _, _ => database.other (.filter leaf) row

/-- Whether a row passes a plan's filters. -/
def Passes (filters : Option FilterGroup) (row : Row) : Prop :=
  filtersTruth (leafTruth database spelling row) filters = some true

instance (filters : Option FilterGroup) (row : Row) :
    Decidable (Passes database spelling filters row) :=
  inferInstanceAs (Decidable (_ = some true))

end Leaf

end McpAssistant.BusinessQuery.FilterEvaluation
