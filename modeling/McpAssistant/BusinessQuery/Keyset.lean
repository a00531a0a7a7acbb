import McpAssistant.BusinessQuery.Outcomes
import McpAssistant.BusinessQuery.QueryPlan

/-!
# Keyset pages

A page of a stored answer runs the stored plan with an order that should tell
its rows apart, a filter that starts after the position of the last row shown,
and the page size as its limit.
-/

namespace McpAssistant.BusinessQuery.Keyset

open Definitions FilterTree QueryPlan Outcomes

/-- The measure a member names, through its capability. -/
def measureForMember (bundle : DefinitionBundle) (member : String) : Option MeasureDefinition :=
  match resolveMember bundle member with
  | some (_, .measure measure) => some measure
  | _ => none

/-- A share divides by a window; a page would split its denominator. -/
def hasShareMeasure (plan : PlanNode) (bundle : DefinitionBundle) : Bool :=
  plan.measures.any fun member =>
    match measureForMember bundle member with
    | some measure => measure.expressionKind == some .share
    | none => false

def planIsPageable (plan : PlanNode) (bundle : DefinitionBundle) : Bool :=
  plan.compareTo.isNone && !hasShareMeasure plan bundle

/-- The members a position holds, each with its value in the last row shown;
`none` is null. -/
abbrev KeysetPosition := List (String × Option FilterValue)

abbrev OrderItem := String × Direction

def orderItem (clause : OrderClause) : OrderItem :=
  (clause.member, clause.direction)

def projectedOwners (plan : PlanNode) (bundle : DefinitionBundle) : List String :=
  let owners := sortedSet ((bundle.dimensions.filter fun dimension =>
    plan.dimensions.contains dimension.name).map DimensionDefinition.owningResource)
  (owners.filter fun owner => plan.anchor == some owner) ++
    owners.filter fun owner => plan.anchor != some owner

def addPrimaryKey (bundle : DefinitionBundle)
    (shape : List String × List OrderItem) (resource : String) :
    List String × List OrderItem :=
  match primaryKeyDimension bundle resource with
  | none => shape
  | some key =>
    let (dimensions, items) := shape
    (if key.name ∈ dimensions then dimensions else dimensions ++ [key.name],
      if key.name ∈ items.map Prod.fst then items
      else items ++ [(key.name, .asc)])

def keysetShape (plan : PlanNode) (bundle : DefinitionBundle) : List String × List OrderItem :=
  match plan.grain with
  | .entityRows =>
    let (dimensions, items) := (projectedOwners plan bundle).foldl
      (addPrimaryKey bundle) (plan.dimensions, plan.order.map orderItem)
    match items, dimensions with
    | [], first :: _ => (dimensions, [(first, .asc)])
    | items, dimensions => (dimensions, items)
  | .grouped =>
    if plan.order.isEmpty then
      (plan.dimensions, plan.dimensions.map (fun member => (member, .asc)) ++
          (plan.bucketSet.toList.filter fun bucket =>
            !plan.dimensions.contains bucket).map fun bucket => (bucket, .asc))
    else
      (plan.dimensions, plan.order.map orderItem)
  | .scalar => (plan.dimensions, plan.order.map orderItem)

/-- An order member with its direction and its value in the position. -/
abbrev KeysetEntry := String × Direction × FilterValue

/-- The order members whose value in the position is present and not null. -/
def activeKeyset (items : List OrderItem) (position : KeysetPosition) : List KeysetEntry :=
  items.filterMap fun (member, direction) =>
    match position.lookup member with
    | some (some value) => some (member, direction, value)
    | _ => none

/-- The member lies beyond its value, in the order's direction. -/
def beyondFilter (entry : KeysetEntry) : FilterNode :=
  let (member, direction, value) := entry
  match direction with
  | .asc => .leaf (.filter ⟨member, .gt, [value], rfl⟩)
  | .desc => .leaf (.filter ⟨member, .lt, [value], rfl⟩)

/-- The member equals its value. -/
def equalFilter (entry : KeysetEntry) : FilterNode :=
  .leaf (.filter ⟨entry.1, .eq, [entry.2.2], rfl⟩)

def keysetBranches (earlier : List FilterNode) : List KeysetEntry → List FilterNode
  | [] => []
  | entry :: entries =>
    (if earlier.isEmpty then beyondFilter entry
      else .group (earlier ++ [beyondFilter entry]) []) ::
      keysetBranches (earlier ++ [equalFilter entry]) entries

def keysetFilter : List KeysetEntry → FilterNode
  | [entry] => beyondFilter entry
  | entries => .group [] (keysetBranches [] entries)

def FilterGroup.node (group : FilterGroup) : FilterNode :=
  .group group.all group.any

/-- The plan's own filters and the page's. -/
def combinedFilters (filters : Option FilterGroup)
    (active : List KeysetEntry) : Option FilterGroup :=
  match active, filters with
  | [], filters => filters
  | active, some group => some { all := [FilterGroup.node group, keysetFilter active] }
  | active, none => some { all := [keysetFilter active] }

def applyKeysetToPlan (plan : BusinessQueryPlan) (bundle : DefinitionBundle)
    (position : KeysetPosition) (pageSize : Nat) :
    Except Raised BusinessQueryPlan :=
  if !planIsPageable plan.toPlanNode bundle then
    .error (unexpressible "unpageable_plan")
  else if plan.grain = .scalar then
    .ok { plan with limit := pageSize }
  else
    let (dimensions, items) := keysetShape plan.toPlanNode bundle
    .ok { plan with
      dimensions := dimensions
      order := items.map fun (member, direction) => ⟨member, direction⟩
      filters := combinedFilters plan.filters (activeKeyset items position)
      limit := pageSize }

/-- The plan's node as every page of it is projected and ordered. -/
def pageShape (plan : PlanNode) (bundle : DefinitionBundle) : PlanNode :=
  let (dimensions, items) := keysetShape plan bundle
  { plan with
    dimensions := dimensions
    order := items.map fun (member, direction) => ⟨member, direction⟩ }

theorem orderItems_pageShape (plan : PlanNode) (bundle : DefinitionBundle) :
    (pageShape plan bundle).order.map orderItem = (keysetShape plan bundle).2 := by
  show ((keysetShape plan bundle).2.map fun (member, direction) =>
    (⟨member, direction⟩ : OrderClause)).map orderItem = _
  rw [List.map_map]
  exact List.map_id _

variable {bundle : DefinitionBundle} {position : KeysetPosition}

theorem applyKeysetToPlan_eq_ok {plan page : BusinessQueryPlan} {pageSize : Nat}
    (rows : plan.grain ≠ .scalar)
    (applied : applyKeysetToPlan plan bundle position pageSize = .ok page) :
    page.toPlanNode =
      { pageShape plan.toPlanNode bundle with
        filters := combinedFilters plan.filters (activeKeyset
            ((pageShape plan.toPlanNode bundle).order.map orderItem) position)
        limit := pageSize } := by
  rw [applyKeysetToPlan] at applied
  split at applied
  · cases applied
  · cases applied
    rw [orderItems_pageShape]
    rfl

theorem applyKeysetToPlan_isOk {plan : BusinessQueryPlan}
    (pageable : planIsPageable plan.toPlanNode bundle = true)
    (position : KeysetPosition) (pageSize : Nat) :
    ∃ page, applyKeysetToPlan plan bundle position pageSize = .ok page := by
  rw [applyKeysetToPlan, pageable]
  by_cases scalar : plan.grain = .scalar
  · exact ⟨_, if_pos scalar⟩
  · exact ⟨_, if_neg scalar⟩

def answerColumns (plan : PlanNode) : List String :=
  match plan.grain with
  | .entityRows => plan.dimensions
  | _ => plan.measures ++ plan.dimensions ++ plan.bucketSet.toList

def nextKeyset (plan : PlanNode) (row : String → Option FilterValue) : KeysetPosition :=
  ((plan.order.map OrderClause.member ++ plan.dimensions).filter fun member =>
    (answerColumns plan).contains member).map fun member => (member, row member)

variable {row : String → Option FilterValue}

theorem mem_answerColumns_of_mem_nextKeyset {plan : PlanNode} {entry : String × Option FilterValue}
    (member : entry ∈ nextKeyset plan row) : entry.1 ∈ answerColumns plan := by
  obtain ⟨name, kept, rfl⟩ := List.mem_map.mp member
  simpa using (List.mem_filter.mp kept).2

theorem mem_activeKeyset {items : List OrderItem}
    {entry : KeysetEntry} (active : entry ∈ activeKeyset items position) :
    (entry.1, entry.2.1) ∈ items ∧ (entry.1, some entry.2.2) ∈ position := by
  obtain ⟨⟨member, direction⟩, listed, found⟩ := List.mem_filterMap.mp active
  dsimp only at found
  split at found
  · rename_i value present
    cases found
    obtain ⟨before, after, equal, -⟩ := List.lookup_eq_some_iff.mp present
    refine ⟨listed, ?_⟩
    rw [equal]
    exact List.mem_append_right _ List.mem_cons_self
  · cases found

theorem lookup_nextKeyset {plan : PlanNode}
    {member : String} (named : member ∈ plan.order.map OrderClause.member) :
    (nextKeyset plan row).lookup member =
      if member ∈ answerColumns plan then some (row member) else none := by
  have general : ∀ members : List String,
      ((members.filter fun name => (answerColumns plan).contains name).map
          fun name => (name, row name)).lookup member =
        if member ∈ members ∧ member ∈ answerColumns plan then
          some (row member)
        else
          none := by
    intro members
    induction members with
    | nil => simp
    | cons name members ih =>
      rw [List.filter_cons]
      by_cases same : member = name
      · subst same
        by_cases column : member ∈ answerColumns plan
        · simp [column]
        · rw [if_neg (by simpa using column), ih]
          simp [column]
      · split
        · have unequal : (member == name) = false := by simpa using same
          rw [List.map_cons, List.lookup_cons, unequal]
          dsimp only
          rw [ih]
          simp [same]
        · rw [ih]
          simp [same]
  rw [nextKeyset, general]
  simp [named]

end McpAssistant.BusinessQuery.Keyset
