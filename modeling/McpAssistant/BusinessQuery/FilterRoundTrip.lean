import McpAssistant.BusinessQuery.FilterJson

/-!
# Filter trees read back what they print

A leaf carries its arity, so every leaf reads back.  A group reads back when no
group in it is empty, and validation builds no others: an empty group is
neutral, and neutral nodes are dropped.
-/

namespace McpAssistant.BusinessQuery.FilterRoundTrip

open Definitions FilterTree FilterJson Foundations.JsonReading Foundations.Fallible

/-! ## Leaves -/

theorem readScalar_dumpScalar (value : FilterValue) :
    readScalar (dumpScalar value) = .ok value := by
  cases value with
  | _ => rfl

theorem readValues_dump (values : List FilterValue) :
    readList readScalar (.list (values.map dumpScalar)) = .ok values :=
  readEach_map_dump fun value _ => readScalar_dumpScalar value

theorem lookup_operatorName (operator : FilterOperator) :
    filterOperators.lookup (operatorName operator) = some operator := by
  cases operator <;> rfl

variable {operator : FilterOperator}

theorem lookup_operatorName_of_notSet (notSet : operator.isSet = false) :
    predicateOperators.lookup (operatorName operator) = some operator := by
  cases operator <;> first | rfl | cases notSet

theorem planFilterEntries_dump (leaf : PlanFilter) :
    planFilterEntries (dumpPlanFilter leaf) = dumpPlanFilter leaf := by
  rcases leaf with ⟨member, operator, values, arity⟩
  cases operator <;> rfl

theorem readOperator_of_lookup {names : List (String × FilterOperator)}
    (found : names.lookup (operatorName operator) = some operator) :
    @readLiteral PlanRule _ names (.text (operatorName operator)) = .ok operator := by
  rw [readLiteral, found]

theorem readPlanFilter_dump (leaf : PlanFilter) :
    readPlanFilter (dumpPlanFilter leaf) = .ok leaf := by
  have operator : readField (dumpPlanFilter leaf) "operator" none
      (readLiteral filterOperators) = .ok leaf.operator :=
    (readField_of_lookup rfl).trans (readOperator_of_lookup (lookup_operatorName leaf.operator))
  have values : readField (dumpPlanFilter leaf) "values" (some [])
      (readList readScalar) = .ok leaf.values :=
    (readField_of_lookup rfl).trans (readValues_dump leaf.values)
  rw [readPlanFilter, planFilterEntries_dump]
  apply bind_eq_ok.mpr
  refine ⟨((leaf.member, leaf.operator, leaf.values), ()), ?_, ?_⟩
  · rw [both_eq_ok, both_eq_ok, both_eq_ok]
    exact ⟨⟨rfl, operator, values⟩, rfl⟩
  · exact dif_pos leaf.arity

theorem predicateEntries_dump (typed : AttributePredicate) :
    predicateEntries (dumpAttributePredicate typed) = .ok (dumpAttributePredicate typed) := by
  rcases typed with ⟨family, revision, operator, values, notSet, arity,
    attributeName, definition, kind, quantifier⟩
  cases operator <;> rfl

theorem readNullableText_dump (value : Option String) :
    readNullable (@readText PlanRule) (dumpNullable .text value) = .ok value := by
  cases value with
  | none => rfl
  | some value => rfl

theorem readValueKind_dump (kind : PredicateValueKind) :
    @readLiteral PlanRule _ valueKinds (.text (valueKindName kind)) = .ok kind := by
  cases kind <;> rfl

theorem readQuantifier_dump (quantifier : Quantifier) :
    @readLiteral PlanRule _ quantifiers (.text (quantifierName quantifier)) = .ok quantifier := by
  cases quantifier <;> rfl

theorem readAttributePredicate_dump (typed : AttributePredicate) :
    readAttributePredicate (dumpAttributePredicate typed) = .ok typed := by
  have operator : readField (dumpAttributePredicate typed) "operator" none
      (readLiteral predicateOperators) = .ok typed.operator :=
    (readField_of_lookup rfl).trans
      (readOperator_of_lookup (lookup_operatorName_of_notSet typed.notSet))
  have values : readField (dumpAttributePredicate typed) "values" (some [])
      (readList readScalar) = .ok typed.values :=
    (readField_of_lookup rfl).trans (readValues_dump typed.values)
  have attributeName : readField (dumpAttributePredicate typed) "attribute_key"
      (some none) (readNullable readText) = .ok typed.attributeKey :=
    (readField_of_lookup rfl).trans (readNullableText_dump typed.attributeKey)
  have revision : readField (dumpAttributePredicate typed) "revision_hash"
      (some none) (readNullable readText) = .ok typed.revisionHash :=
    (readField_of_lookup rfl).trans (readNullableText_dump typed.revisionHash)
  have definition : readField (dumpAttributePredicate typed)
      "definition_revision" (some none) (readNullable readText) = .ok typed.definitionRevision :=
    (readField_of_lookup rfl).trans (readNullableText_dump typed.definitionRevision)
  have kind : readField (dumpAttributePredicate typed) "value_kind"
      (some .integer) (readLiteral valueKinds) = .ok typed.valueKind :=
    (readField_of_lookup rfl).trans (readValueKind_dump typed.valueKind)
  have quantifier : readField (dumpAttributePredicate typed) "quantifier"
      (some .any) (readLiteral quantifiers) = .ok typed.quantifier :=
    (readField_of_lookup rfl).trans (readQuantifier_dump typed.quantifier)
  rw [readAttributePredicate, predicateEntries_dump]
  apply bind_eq_ok.mpr
  refine ⟨_, rfl, bind_eq_ok.mpr ⟨((typed.familyKey, typed.attributeKey,
    typed.revisionHash, typed.definitionRevision, typed.valueKind,
    typed.operator, typed.values, typed.quantifier), ()), ?_, ?_⟩⟩
  · simp only [both_eq_ok]
    exact ⟨⟨rfl, attributeName, revision, definition, kind, operator, values, quantifier⟩, rfl⟩
  · exact dif_pos ⟨typed.notSet, typed.arity⟩

theorem refused_readPlanFilter_dump (typed : AttributePredicate) :
    Refused (readPlanFilter (dumpAttributePredicate typed)) := by
  have same : planFilterEntries (dumpAttributePredicate typed) = dumpAttributePredicate typed := by
    rcases typed with ⟨family, revision, operator, values, notSet, arity,
      attributeName, definition, kind, quantifier⟩
    cases operator <;> rfl
  have operator : readField (dumpAttributePredicate typed) "operator" none
      (readLiteral filterOperators) = .ok typed.operator :=
    (readField_of_lookup rfl).trans (readOperator_of_lookup (lookup_operatorName typed.operator))
  have values : readField (dumpAttributePredicate typed) "values" (some [])
      (readList readScalar) = .ok typed.values :=
    (readField_of_lookup rfl).trans (readValues_dump typed.values)
  have parts := both_eq_ok.mpr ⟨operator, values⟩
  rw [readPlanFilter, same]
  apply Refused.bind
  rw [parts]
  exact .both (.both_of_ok ⟨_, rfl⟩) ⟨_, rfl⟩

def readBranchAt (entries : Entries) (key : String) : Reading PlanRule (List FilterNode) :=
  ((entries.lookup key).map readFilterBranch).getD (.ok [])

theorem lookup_neutralBranches (entries : Entries) (key : String) :
    (neutralBranches entries).lookup key = (entries.lookup key).map isNeutralBranch := by
  have ahead : neutralBranches entries =
      entries.map fun entry => (entry.1, isNeutralBranch entry.2) := by
    induction entries with
    | nil => rfl
    | cons entry entries ih =>
      rcases entry with ⟨name, value⟩
      rw [neutralBranches, ih, List.map_cons]
  rw [ahead, lookup_map_values]

theorem lookup_readFilterBranches (entries : Entries) (key : String) :
    (readFilterBranches entries).lookup key = (entries.lookup key).map readFilterBranch := by
  have ahead : readFilterBranches entries =
      entries.map fun entry => (entry.1, readFilterBranch entry.2) := by
    induction entries with
    | nil => rfl
    | cons entry entries ih =>
      rcases entry with ⟨name, value⟩
      rw [readFilterBranches, ih, List.map_cons]
  rw [ahead, lookup_map_values]

/-- What a group read from a dictionary holds. -/
structure GroupRead (entries : Entries) (group : FilterGroup) : Prop where
  hasBranch : (hasKey entries "all" || hasKey entries "any") = true
  all : readBranchAt entries "all" = .ok group.all
  any : readBranchAt entries "any" = .ok group.any
  closed : ∀ entry ∈ entries, entry.1 ∈ branchKeys

variable {entries : Entries} {group : FilterGroup}

theorem readGroupParts_eq_ok :
    readGroupParts entries (readFilterBranches entries) = .ok group ↔ GroupRead entries group := by
  rw [readGroupParts, lookup_readFilterBranches, lookup_readFilterBranches]
  split
  · rename_i hasBranch
    rw [map_eq_ok]
    constructor
    · rintro ⟨⟨⟨all, any⟩, done⟩, parts, same⟩
      cases same
      simp only [both_eq_ok] at parts
      exact ⟨hasBranch, parts.1.1, parts.1.2, forbidExtra_eq_ok.mp parts.2⟩
    · intro read
      refine ⟨((group.all, group.any), ()), ?_, rfl⟩
      simp only [both_eq_ok]
      exact ⟨⟨read.all, read.any⟩, forbidExtra_eq_ok.mpr read.closed⟩
  · rename_i noBranch
    constructor
    · intro read
      cases read
    · intro read
      exact absurd read.hasBranch noBranch

mutual

def filledNode : FilterNode → Bool
  | .leaf _ => true
  | .group all any =>
    (!all.isEmpty || !any.isEmpty) && filledNodes all && filledNodes any

def filledNodes : List FilterNode → Bool
  | [] => true
  | node :: nodes => filledNode node && filledNodes nodes

end

def filledGroup (group : FilterGroup) : Bool :=
  filledNode (.group group.all group.any)

def BranchFilled (json : Json) (nodes : List FilterNode) : Prop :=
  filledNodes nodes = true ∧ (nodes = [] → isNeutralBranch json = true)

theorem filledGroup_of_branches (branches : ∀ entry ∈ entries, ∀ nodes,
      readFilterBranch entry.2 = .ok nodes → BranchFilled entry.2 nodes)
    (kept : isNeutralGroupNode (.dict entries) = false)
    (read : GroupRead entries group) : filledGroup group = true := by
  have branchAt : ∀ key nodes, readBranchAt entries key = .ok nodes →
      filledNodes nodes = true ∧ (nodes = [] →
        ((entries.lookup key).map isNeutralBranch).getD true = true) := by
    intro key nodes found
    rw [readBranchAt] at found
    cases value : entries.lookup key with
    | none =>
      rw [value] at found
      cases found
      exact ⟨rfl, fun _ => rfl⟩
    | some json =>
      rw [value] at found
      exact branches (key, json) (mem_of_lookup_eq_some value) nodes found
  have all := branchAt "all" group.all read.all
  have any := branchAt "any" group.any read.any
  have noLeaf : leafKeys.any (hasKey entries) = false := by
    rw [List.any_eq_false]
    intro key isLeafKey held
    rcases Option.isSome_iff_exists.mp held with ⟨json, found⟩
    have apart : ∀ key ∈ leafKeys, key ∉ branchKeys := by decide
    exact apart key isLeafKey (read.closed _ (mem_of_lookup_eq_some found))
  have nonempty : (!group.all.isEmpty || !group.any.isEmpty) = true := by
    by_contra empty
    rw [Bool.not_eq_true, Bool.or_eq_false_iff, Bool.not_eq_false',
      Bool.not_eq_false', List.isEmpty_iff, List.isEmpty_iff] at empty
    rw [isNeutralGroupNode, lookup_neutralBranches, lookup_neutralBranches,
      read.hasBranch, noLeaf, all.2 empty.1, any.2 empty.2] at kept
    cases kept
  rw [filledGroup, filledNode, nonempty, all.1, any.1]
  rfl

theorem filledNode_of_branches {node : FilterNode} (branches : ∀ entry ∈ entries, ∀ nodes,
      readFilterBranch entry.2 = .ok nodes → BranchFilled entry.2 nodes)
    (kept : isNeutralGroupNode (.dict entries) = false)
    (read : readFilterNode (.dict entries) = .ok node) :
    filledNode node = true := by
  rw [readFilterNode] at read
  rcases oneOf_eq_ok read with leaf | typed | parts
  · rcases map_eq_ok.mp leaf with ⟨found, _, rfl⟩
    rfl
  · rcases map_eq_ok.mp typed with ⟨found, _, rfl⟩
    rfl
  · rcases map_eq_ok.mp parts with ⟨group, isGroup, rfl⟩
    exact filledGroup_of_branches branches kept (readGroupParts_eq_ok.mp isGroup)

mutual

theorem filledNode_of_read : ∀ (json : Json) (node : FilterNode),
    isNeutralGroupNode json = false → readFilterNode json = .ok node → filledNode node = true
  | .dict entries, _, kept, read =>
    filledNode_of_branches (branchFilled_of_read entries) kept read

theorem branchFilled_of_read : ∀ (entries : List (String × Json)), ∀ entry ∈ entries, ∀ nodes,
      readFilterBranch entry.2 = .ok nodes → BranchFilled entry.2 nodes
  | [], _, listed => absurd listed List.not_mem_nil
  | (key, value) :: rest, found, listed => by
      have head := branchFilled_of_value value
      have tail := branchFilled_of_read rest
      rcases List.mem_cons.mp listed with rfl | later
      · exact head
      · exact tail found later

theorem branchFilled_of_value : ∀ (json : Json) (nodes : List FilterNode),
    readFilterBranch json = .ok nodes → BranchFilled json nodes
  | .list items, nodes, read => filledNodes_of_read items nodes read

theorem filledNodes_of_read : ∀ (items : List Json) (nodes : List FilterNode),
    readFilterNodes items = .ok nodes →
      filledNodes nodes = true ∧ (nodes = [] → allNeutral items = true)
  | [], nodes, read => by
      cases read
      exact ⟨rfl, fun _ => rfl⟩
  | item :: items, nodes, read => by
      have own := filledNode_of_read item
      have later := filledNodes_of_read items
      rw [readFilterNodes] at read
      rw [allNeutral]
      cases neutral : isNeutralGroupNode item with
      | true =>
        rw [neutral, if_pos rfl] at read
        rcases later nodes read with ⟨filled, empty⟩
        exact ⟨filled, empty⟩
      | false =>
        rw [neutral, if_neg Bool.false_ne_true] at read
        rcases map_eq_ok.mp read with ⟨⟨node, rest⟩, parts, rfl⟩
        rcases both_eq_ok.mp parts with ⟨isNode, isRest⟩
        constructor
        · rw [filledNodes, own node neutral isNode, (later rest isRest).1]
          rfl
        · intro empty
          cases empty

end

section Branches

variable {all any : List Json}

theorem readBranchAt_all : readBranchAt (branchEntries all any) "all" = readFilterNodes all := by
  cases all with
  | nil =>
    cases any with
    | nil => rfl
    | cons item items => rfl
  | cons item items => rfl

theorem readBranchAt_any : readBranchAt (branchEntries all any) "any" = readFilterNodes any := by
  cases all with
  | nil =>
    cases any with
    | nil => rfl
    | cons item items => rfl
  | cons item items =>
    cases any with
    | nil => rfl
    | cons first rest => rfl

theorem mem_branchKeys {entry : String × Json}
    (listed : entry ∈ branchEntries all any) : entry.1 ∈ branchKeys := by
  rcases List.mem_append.mp listed with isAll | isAny
  · cases all with
    | nil => cases isAll
    | cons item items =>
      rw [List.mem_singleton.mp isAll]
      exact List.mem_cons_self ..
  · cases any with
    | nil => cases isAny
    | cons item items =>
      rw [List.mem_singleton.mp isAny]
      exact List.mem_cons_of_mem _ (List.mem_cons_self ..)

theorem hasBranch_branchEntries (nonempty : (!all.isEmpty || !any.isEmpty) = true) :
    (hasKey (branchEntries all any) "all" ||
      hasKey (branchEntries all any) "any") = true := by
  cases all with
  | nil =>
    cases any with
    | nil => cases nonempty
    | cons item items => rfl
  | cons item items => rfl

/-- A group is no leaf. -/
theorem refused_readPlanFilter_branches : Refused (readPlanFilter (branchEntries all any)) := by
  cases all with
  | nil =>
    cases any with
    | nil => exact ⟨_, rfl⟩
    | cons item items => exact ⟨_, rfl⟩
  | cons item items =>
    cases any with
    | nil => exact ⟨_, rfl⟩
    | cons first rest => exact ⟨_, rfl⟩

theorem refused_readAttributePredicate_branches :
    Refused (readAttributePredicate (branchEntries all any)) := by
  cases all with
  | nil =>
    cases any with
    | nil => exact ⟨_, rfl⟩
    | cons item items => exact ⟨_, rfl⟩
  | cons item items =>
    cases any with
    | nil => exact ⟨_, rfl⟩
    | cons first rest => exact ⟨_, rfl⟩

theorem isNeutralGroupNode_branchEntries (nonempty : (!all.isEmpty || !any.isEmpty) = true)
    (allKept : allNeutral all = all.isEmpty)
    (anyKept : allNeutral any = any.isEmpty) :
    isNeutralGroupNode (.dict (branchEntries all any)) = false := by
  rw [isNeutralGroupNode, lookup_neutralBranches, lookup_neutralBranches]
  cases all with
  | nil =>
    cases any with
    | nil => cases nonempty
    | cons item items =>
      rw [Bool.and_eq_false_iff]
      exact .inr anyKept
  | cons item items =>
    rw [Bool.and_eq_false_iff, Bool.and_eq_false_iff]
    exact .inl (.inr allKept)

end Branches

theorem readFilterNode_leaf (leaf : FilterLeaf) :
    readFilterNode (.dict (dumpFilterLeaf leaf)) = .ok (.leaf leaf) := by
  rw [readFilterNode]
  cases leaf with
  | filter leaf =>
    rw [dumpFilterLeaf, readPlanFilter_dump]
    rfl
  | predicate typed =>
    rw [dumpFilterLeaf]
    apply Refused.oneOf_second (refused_readPlanFilter_dump typed).map
    rw [readAttributePredicate_dump]
    rfl

theorem isNeutralGroupNode_leaf (leaf : FilterLeaf) :
    isNeutralGroupNode (.dict (dumpFilterLeaf leaf)) = false := by
  cases leaf with
  | filter leaf => rfl
  | predicate typed => rfl

theorem groupRead_branchEntries {all any : List Json} {group : FilterGroup}
    (nonempty : (!all.isEmpty || !any.isEmpty) = true)
    (allRead : readFilterNodes all = .ok group.all)
    (anyRead : readFilterNodes any = .ok group.any) :
    GroupRead (branchEntries all any) group where
  hasBranch := hasBranch_branchEntries nonempty
  all := readBranchAt_all.trans allRead
  any := readBranchAt_any.trans anyRead
  closed := fun _ listed => mem_branchKeys listed

theorem isEmpty_dumpFilterNodes (nodes : List FilterNode) :
    (dumpFilterNodes nodes).isEmpty = nodes.isEmpty := by
  cases nodes with
  | nil => rfl
  | cons node nodes => rfl

mutual

theorem readFilterNode_dump : ∀ (node : FilterNode), filledNode node = true →
    readFilterNode (dumpFilterNode node) = .ok node ∧
      isNeutralGroupNode (dumpFilterNode node) = false
  | .leaf leaf, _ => ⟨readFilterNode_leaf leaf, isNeutralGroupNode_leaf leaf⟩
  | .group all any, filled => by
      rw [filledNode, Bool.and_eq_true, Bool.and_eq_true] at filled
      have allBack := readFilterNodes_dump all filled.1.2
      have anyBack := readFilterNodes_dump any filled.2
      have nonempty : (!(dumpFilterNodes all).isEmpty ||
          !(dumpFilterNodes any).isEmpty) = true := by
        rw [isEmpty_dumpFilterNodes, isEmpty_dumpFilterNodes]
        exact filled.1.1
      constructor
      · have parts := readGroupParts_eq_ok.mpr (@groupRead_branchEntries _ _
          ⟨all, any⟩ nonempty allBack.1 anyBack.1)
        rw [dumpFilterNode, readFilterNode, refused_readPlanFilter_branches.map.oneOf_third
            refused_readAttributePredicate_branches.map, parts]
        rfl
      · exact isNeutralGroupNode_branchEntries nonempty allBack.2 anyBack.2

theorem readFilterNodes_dump : ∀ (nodes : List FilterNode), filledNodes nodes = true →
      readFilterNodes (dumpFilterNodes nodes) = .ok nodes ∧
        allNeutral (dumpFilterNodes nodes) = (dumpFilterNodes nodes).isEmpty
  | [], _ => ⟨rfl, rfl⟩
  | node :: nodes, filled => by
      rw [filledNodes, Bool.and_eq_true] at filled
      have own := readFilterNode_dump node filled.1
      have later := readFilterNodes_dump nodes filled.2
      constructor
      · rw [dumpFilterNodes, readFilterNodes, own.2, if_neg Bool.false_ne_true, map_eq_ok]
        exact ⟨(node, nodes), both_eq_ok.mpr ⟨own.1, later.1⟩, rfl⟩
      · rw [dumpFilterNodes, allNeutral, own.2]
        rfl

end

theorem readFilterGroup_dump (filled : filledGroup group = true) :
    readFilterGroup (dumpFilterGroup group) = .ok group ∧
      isNeutralGroupNode (dumpFilterGroup group) = false := by
  rw [filledGroup, filledNode, Bool.and_eq_true, Bool.and_eq_true] at filled
  have allBack := readFilterNodes_dump group.all filled.1.2
  have anyBack := readFilterNodes_dump group.any filled.2
  have nonempty : (!(dumpFilterNodes group.all).isEmpty ||
      !(dumpFilterNodes group.any).isEmpty) = true := by
    rw [isEmpty_dumpFilterNodes, isEmpty_dumpFilterNodes]
    exact filled.1.1
  constructor
  · exact readGroupParts_eq_ok.mpr (groupRead_branchEntries nonempty allBack.1 anyBack.1)
  · exact isNeutralGroupNode_branchEntries nonempty allBack.2 anyBack.2

theorem filledGroup_of_read {json : Json} (kept : isNeutralGroupNode json = false)
    (read : readFilterGroup json = .ok group) : filledGroup group = true := by
  cases json with
  | dict entries =>
    exact filledGroup_of_branches (branchFilled_of_read entries) kept (readGroupParts_eq_ok.mp read)
  | _ => cases read

end McpAssistant.BusinessQuery.FilterRoundTrip
