import McpAssistant.BusinessQuery.BusinessTime
import McpAssistant.BusinessQuery.FilterEvaluation
import McpAssistant.BusinessQuery.Scoping
import McpAssistant.Foundations.Grouping

/-!
# Set filters

A set filter compares a row's key with the keys a derived set's relation
selects, or its date with the calendar periods a time group selects.  The
relation has its own filters, which may name the sets declared before it.
-/

namespace McpAssistant.BusinessQuery.SetMembership

open Definitions FilterTree QueryPlan Visibility Scopes BusinessTime
  FilterEvaluation Scoping SetKeys Foundations.Grouping Foundations.Fallible
  List

section Clauses

variable {Value : Type} (equal : Value → Value → Bool)

/-- A comparison with NULL is unknown. -/
def sqlEqual : Option Value → Option Value → Truth
  | some left, some right => some (equal left right)
  | _, _ => none

/-- `IN` over a subquery: equality with one of its values. -/
def sqlIn (key : Option Value) (members : List (Option Value)) : Truth :=
  disjunction (members.map (sqlEqual equal key))

def sqlNotIn (key : Option Value) (members : List (Option Value)) : Truth :=
  (sqlIn equal key members).map not

def membershipClause (key : Option Value) (members : List (Option Value))
    (exclude : Bool) : Truth :=
  conjunction [some key.isSome,
    if exclude then sqlNotIn equal key members else sqlIn equal key members]

variable {equal}

/-- Definite alternatives have a definite disjunction. -/
theorem disjunction_map_some (choices : List Bool) :
    disjunction (choices.map some) = some (choices.any id) := by
  induction choices with
  | nil => rfl
  | cons choice choices ih =>
    show Truth.or (some choice) (disjunction (choices.map some)) = _
    rw [ih, any_cons]
    cases choice <;> cases choices.any id <;> rfl

/-- Without a NULL among the members, membership of a key is decided. -/
theorem sqlIn_some (key : Value) (members : List Value) :
    sqlIn equal (some key) (members.map some) = some (members.any (equal key)) := by
  have definite : (members.map some).map (sqlEqual equal (some key)) =
      (members.map (equal key)).map some := by
    simp only [map_map]
    rfl
  rw [sqlIn, definite, disjunction_map_some, any_map]
  rfl

theorem membershipClause_null (members : List (Option Value)) (exclude : Bool) :
    membershipClause equal none members exclude = some false :=
  rfl

theorem membershipClause_some (key : Value) (members : List Value) (exclude : Bool) :
    membershipClause equal (some key) (members.map some) exclude =
      some (members.any (equal key) != exclude) := by
  cases exclude with
  | false =>
    show Truth.and (some true)
      (Truth.and (sqlIn equal (some key) (members.map some)) (some true)) = _
    rw [sqlIn_some]
    cases members.any (equal key) <;> rfl
  | true =>
    show Truth.and (some true) (Truth.and (sqlNotIn equal (some key) (members.map some))
        (some true)) = _
    rw [sqlNotIn, sqlIn_some]
    cases members.any (equal key) <;> rfl

end Clauses

/-- A stored point in time: its day, and the time since midnight. -/
structure Stamp where
  day : Int
  time : Nat
deriving DecidableEq

def Stamp.before (stamp bound : Stamp) : Bool :=
  stamp.day < bound.day || (stamp.day = bound.day && stamp.time < bound.time)

/-- The stored form of the start of a business day; columns hold local time. -/
def midnight (day : Int) : Stamp :=
  ⟨day, 0⟩

/-- Rows dated inside one of the periods. -/
def timeGroupClause (column : Option Stamp) (periods : List (Int × Int)) : Truth :=
  if periods.isEmpty then
    some false
  else
    disjunction (periods.map fun period => conjunction [
      column.map fun stamp => !stamp.before (midnight period.1),
      column.map fun stamp => stamp.before (midnight period.2)])

theorem not_before_midnight {stamp : Stamp} {day : Int} :
    stamp.before (midnight day) = false ↔ day ≤ stamp.day := by
  simp only [Stamp.before, midnight]
  by_cases earlier : stamp.day < day
  · simp [earlier]
  · simp [earlier]
    omega

theorem timeGroupClause_eq_true {column : Option Stamp} {periods : List (Int × Int)} :
    timeGroupClause column periods = some true ↔ ∃ stamp ∈ column, ∃ period ∈ periods,
        period.1 ≤ stamp.day ∧ stamp.day < period.2 := by
  have unfolded : timeGroupClause column periods = some true ↔ ∃ period ∈ periods, conjunction [
        column.map fun stamp => !stamp.before (midnight period.1),
        column.map fun stamp => stamp.before (midnight period.2)] = some true := by
    cases periods with
    | nil => simp [timeGroupClause]
    | cons period periods =>
      show disjunction _ = some true ↔ _
      rw [disjunction_eq_true]
      simp only [mem_map, exists_exists_and_eq_and]
  rw [unfolded]
  simp only [conjunction_eq_true, forall_mem_cons, not_mem_nil,
    false_implies, implies_true, and_true]
  cases column with
  | none => simp
  | some stamp =>
    simp only [Option.map_some, Option.some.injEq, Bool.not_eq_true',
      not_before_midnight, Option.mem_def, exists_eq_left']
    apply exists_congr
    intro period
    have upper : stamp.before (midnight period.2) = true ↔ stamp.day < period.2 := by
      rw [← Bool.not_eq_false, not_before_midnight, not_le]
    rw [upper]

/-- What a database holds for the statements of a query.  `sources` are the
rows a scope's FROM clause and its conditions other than the filter tree leave;
`value` reads the expression a statement uses for a member, `stamp` the stored
column behind a time member; `other` and `having` decide the leaves that are
not set filters. -/
structure SetDatabase (Row Key : Type) where
  sources : ScopedPlan → List Row
  value : ScopedPlan → Row → String → Option FilterValue
  stamp : Row → String → Option Stamp
  rank : String → FilterValue → Key
  equal : FilterValue → FilterValue → Bool
  aggregate : ScopedPlan → String → List Row → Option FilterValue
  other : ScopedPlan → FilterLeaf → Row → Truth
  having : ScopedPlan → FilterLeaf → List Row → Truth

/-- What a set selects: keys, or calendar buckets by their first day.  Inside
another set a time group is not resolved, and the compiler stops there. -/
inductive Selection where
  | keys (members : List (Option FilterValue))
  | periods (granularity : TimeGranularity) (starts : List Int)
  | unresolved

section Evaluate

variable {Row Key : Type} [LinearOrder Key] (database : SetDatabase Row Key)

def selectedBounds (granularity : TimeGranularity) (starts : List Int) : List (Int × Int) :=
  starts.filterMap fun start => (bucketBounds start granularity).toOption

def setLeafTruth (scope : ScopedPlan) (sets : String → Option Selection)
    (row : Row) (leaf : PlanFilter) (setId : String) : Truth :=
  match sets setId with
  | some (.keys members) =>
    membershipClause database.equal (database.value scope row leaf.member)
      members (leaf.operator == .notInSet)
  | some (.periods granularity starts) =>
    timeGroupClause (database.stamp row leaf.member) (selectedBounds granularity starts)
  | some .unresolved => none
  | none => none

def leafTruth (scope : ScopedPlan) (sets : String → Option Selection)
    (row : Row) (leaf : FilterLeaf) : Truth :=
  match leaf with
  | .predicate _ => database.other scope leaf row
  | .filter filter =>
    match filter.setId with
    | some setId => setLeafTruth database scope sets row filter setId
    | none => database.other scope leaf row

/-- The source rows a scope's filter tree keeps. -/
def keptRows (scope : ScopedPlan) (sets : String → Option Selection) : List Row :=
  (database.sources scope).filter fun row =>
    filtersTruth (leafTruth database scope sets row) scope.plan.filters == some true

/-- Sorting by one column, NULLs last. -/
inductive Placing where
  | earlier
  | equal
  | later

def place (direction : Direction) : Option Key → Option Key → Placing
  | none, none => .equal
  | none, some _ => .later
  | some _, none => .earlier
  | some left, some right =>
    if left = right then .equal
    else if direction = .asc ↔ left < right then .earlier
    else .later

/-- Rows of sort keys, column by column. -/
def notAfter : List Direction → List (Option Key) → List (Option Key) → Bool
  | direction :: directions, left :: lefts, right :: rights =>
    match place direction left right with
    | .earlier => true
    | .later => false
    | .equal => notAfter directions lefts rights
  | _, _, _ => true

section Relation

variable {Cell : Type} (scope : ScopedPlan) (key : String)
  (cell : Row → Option Cell) (rankCell : Cell → Key)

def relationGroups (rows : List Row) : List (List Row) :=
  let keyed := rows.filter fun row => (cell row).isSome
  if scope.plan.grain = .grouped then
    (groupsBy (fun row => (cell row).map rankCell) keyed).filter fun group =>
      filtersTruth (fun leaf => database.having scope leaf group) scope.plan.having == some true
  else
    keyed.map fun row => [row]

/-- The key of a group, read from a row of it. -/
def groupCell (group : List Row) : Option Cell :=
  group.head?.bind cell

def groupValue (group : List Row) (member : String) : Option FilterValue :=
  if scope.plan.measures.contains member then
    database.aggregate scope member group
  else
    group.head?.bind fun row => database.value scope row member

/-- The authored basis, then the key. -/
def pickDirections : List Direction :=
  ((scope.plan.order.filter fun clause => clause.member ≠ key).map OrderClause.direction) ++
    [((scope.plan.order.find? fun clause => clause.member = key).map
      OrderClause.direction).getD .asc]

def pickColumns (group : List Row) : List (Option Key) :=
  ((scope.plan.order.filter fun clause => clause.member ≠ key).map fun clause =>
    (groupValue database scope group clause.member).map (database.rank clause.member)) ++
    [(groupCell cell group).map rankCell]

/-- Orders by the authored basis with NULLs last, then the key, and keeps the
plan's limit. -/
def applyPickOrder (groups : List (List Row)) : List (List Row) :=
  (groups.insertionSort fun left right =>
    notAfter (pickDirections scope key) (pickColumns database scope key cell rankCell left)
      (pickColumns database scope key cell rankCell right) = true).take
    scope.plan.limit

def compileSetRelation (mode : SetMode) (rows : List Row) : List (Option Cell) :=
  let groups := relationGroups database scope cell rankCell rows
  match mode with
  | .complete =>
    let cells := groups.map (groupCell cell)
    if scope.plan.grain = .entityRows then
      (groupsBy (fun cell => cell.map rankCell) cells).filterMap List.head?
    else
      cells
  | _ => (applyPickOrder database scope key cell rankCell groups).map
      (groupCell cell)

end Relation

mutual

def selection (resolves : Bool) (key : String) (mode : SetMode) : ScopedPlan → Selection
  | ⟨plan, resources, forced, derived, principal, businessDate, bundleHash,
      responsePolicy, answerQueryId, display⟩ =>
    let scope : ScopedPlan :=
      ⟨plan, resources, forced, derived, principal, businessDate, bundleHash,
        responsePolicy, answerQueryId, display⟩
    let rows := keptRows database scope (selections false derived)
    match timeGroupFor key plan.toPlanNode with
    | none =>
      .keys (compileSetRelation database scope key
        (fun row => database.value scope row key) (database.rank key) mode
        rows)
    | some granularity =>
      if resolves then
        .periods granularity ((compileSetRelation database scope key
            (fun row => (database.stamp row key).map fun stamp =>
              timeBucket granularity stamp.day)
            (fun start => database.rank key (.integer start)) .ranked
            rows).filterMap id)
      else
        .unresolved

def selections (resolves : Bool) : List (ScopedDerivedSet ScopedPlan) → String → Option Selection
  | [], _ => none
  | ⟨id, key, mode, inner⟩ :: items, name =>
    match selections resolves items name with
    | some found => some found
    | none =>
      if id = name then some (selection resolves key mode inner) else none

end

def keyColumn (item : ScopedDerivedSet ScopedPlan) : List (Option FilterValue) :=
  let scope := item.scopedPlan
  compileSetRelation database scope item.key
    (fun row => database.value scope row item.key) (database.rank item.key)
    item.mode
    (keptRows database scope (selections database false scope.derived))

def bucketColumn (item : ScopedDerivedSet ScopedPlan)
    (granularity : TimeGranularity) : List (Option Int) :=
  let scope := item.scopedPlan
  compileSetRelation database scope item.key
    (fun row => (database.stamp row item.key).map fun stamp =>
      timeBucket granularity stamp.day)
    (fun start => database.rank item.key (.integer start)) .ranked
    (keptRows database scope (selections database false scope.derived))

theorem selection_eq (resolves : Bool) (item : ScopedDerivedSet ScopedPlan) :
    selection database resolves item.key item.mode item.scopedPlan =
      match timeGroupFor item.key item.scopedPlan.plan.toPlanNode with
      | none => .keys (keyColumn database item)
      | some granularity =>
        if resolves then
          .periods granularity ((bucketColumn database item granularity).filterMap id)
        else
          .unresolved := by
  obtain ⟨id, key, mode, ⟨plan, resources, forced, derived, principal,
    businessDate, bundleHash, responsePolicy, answerQueryId, display⟩⟩ := item
  rw [selection]
  rfl

def namedSet (items : List (ScopedDerivedSet ScopedPlan)) (setId : String) :
    Option (ScopedDerivedSet ScopedPlan) :=
  items.reverse.find? fun item => item.id == setId

theorem selections_eq (resolves : Bool)
    (items : List (ScopedDerivedSet ScopedPlan)) (setId : String) :
    selections database resolves items setId = (namedSet items setId).map fun item =>
        selection database resolves item.key item.mode item.scopedPlan := by
  induction items with
  | nil => rfl
  | cons item items ih =>
    obtain ⟨id, key, mode, inner⟩ := item
    rw [selections, ih]
    simp only [namedSet, reverse_cons, List.find?_append]
    cases items.reverse.find? fun item => item.id == setId with
    | some found => rfl
    | none =>
      by_cases same : id = setId
      · simp [same]
      · simp [same]

section Column

variable {database} {Cell : Type} {scope : ScopedPlan} {key : String}
  {cell : Row → Option Cell} {rankCell : Cell → Key}
  {rows : List Row}

theorem exists_keyed_head {group : List Row}
    (member : group ∈ relationGroups database scope cell rankCell rows) :
    ∃ row value, row ∈ rows ∧ group.head? = some row ∧ cell row = some value := by
  have first : ∃ row, group.head? = some row ∧ row ∈ rows.filter fun row => (cell row).isSome := by
    rw [relationGroups] at member
    split at member
    · obtain ⟨row, isHead, inRows, -⟩ :=
        exists_head (List.mem_filter.mp member).1
      exact ⟨row, isHead, inRows⟩
    · obtain ⟨row, inRows, rfl⟩ := List.mem_map.mp member
      exact ⟨row, rfl, inRows⟩
  obtain ⟨row, isHead, keyed⟩ := first
  obtain ⟨inRows, hasKey⟩ := List.mem_filter.mp keyed
  obtain ⟨value, isValue⟩ := Option.isSome_iff_exists.mp hasKey
  exact ⟨row, value, inRows, isHead, isValue⟩

variable {entry : Option Cell}

theorem exists_group_of_mem {mode : SetMode} (member : entry ∈
      compileSetRelation database scope key cell rankCell mode rows) :
    ∃ group ∈ relationGroups database scope cell rankCell rows, groupCell cell group = entry := by
  have ordered : ∀ group, group ∈ applyPickOrder database scope key cell
      rankCell (relationGroups database scope cell rankCell rows) →
      group ∈ relationGroups database scope cell rankCell rows := by
    intro group picked
    have sorted := mem_of_mem_take picked
    exact (mem_insertionSort _).mp sorted
  have picked : entry ∈ (applyPickOrder database scope key cell rankCell
      (relationGroups database scope cell rankCell rows)).map (groupCell cell) →
      ∃ group ∈ relationGroups database scope cell rankCell rows, groupCell cell group = entry := by
    intro inColumn
    obtain ⟨group, inGroups, isCell⟩ := List.mem_map.mp inColumn
    exact ⟨group, ordered group inGroups, isCell⟩
  cases mode with
  | complete =>
    rw [compileSetRelation] at member
    split at member
    · obtain ⟨cells, inCells, isHead⟩ := List.mem_filterMap.mp member
      obtain ⟨head, isHead', inGroups, -⟩ := exists_head inCells
      rw [isHead'] at isHead
      cases isHead
      exact List.mem_map.mp inGroups
    · exact List.mem_map.mp member
  | pick => exact picked member
  | ranked => exact picked member

/-- A relation selects no NULL, and each key it selects is a kept row's. -/
theorem mem_compileSetRelation {mode : SetMode} (member : entry ∈
      compileSetRelation database scope key cell rankCell mode rows) :
    ∃ row ∈ rows, ∃ value, entry = some value ∧ cell row = some value := by
  obtain ⟨group, inGroups, isCell⟩ := exists_group_of_mem member
  obtain ⟨row, value, inRows, isHead, isValue⟩ := exists_keyed_head inGroups
  refine ⟨row, inRows, value, ?_, isValue⟩
  rw [← isCell, groupCell, isHead, Option.bind_some, isValue]

theorem compileSetRelation_eq_map_some (mode : SetMode) :
    compileSetRelation database scope key cell rankCell mode rows =
      ((compileSetRelation database scope key cell rankCell mode rows).filterMap id).map some := by
  have noNull : ∀ entry ∈ compileSetRelation database scope key cell rankCell
      mode rows, entry.isSome = true := by
    intro entry member
    obtain ⟨-, -, value, rfl, -⟩ := mem_compileSetRelation member
    rfl
  generalize compileSetRelation database scope key cell rankCell mode rows = column at noNull
  induction column with
  | nil => rfl
  | cons entry column ih =>
    obtain ⟨isKey, rest⟩ := List.forall_mem_cons.mp noNull
    obtain ⟨value, rfl⟩ := Option.isSome_iff_exists.mp isKey
    rw [filterMap_cons_some (rfl : id (some value) = some value), map_cons, ← ih rest]

end Column

def selectedKeys (item : ScopedDerivedSet ScopedPlan) : List FilterValue :=
  (keyColumn database item).filterMap id

/-- The first days of the calendar buckets a time group selects. -/
def selectedStarts (item : ScopedDerivedSet ScopedPlan)
    (granularity : TimeGranularity) : List Int :=
  (bucketColumn database item granularity).filterMap id

def OnSide (scope : ScopedPlan) (row : Row) (leaf : PlanFilter)
    (item : ScopedDerivedSet ScopedPlan) : Option TimeGranularity → Prop
  | none =>
    ∃ key ∈ database.value scope row leaf.member,
      if leaf.operator = .notInSet then
        ∀ found ∈ selectedKeys database item, database.equal key found = false
      else
        ∃ found ∈ selectedKeys database item, database.equal key found = true
  | some granularity =>
    ∃ stamp ∈ database.stamp row leaf.member,
      if leaf.operator = .notInSet then
        timeBucket granularity stamp.day ∉ selectedStarts database item granularity
      else
        timeBucket granularity stamp.day ∈ selectedStarts database item granularity

instance (scope : ScopedPlan) (row : Row) (leaf : PlanFilter) (item : ScopedDerivedSet ScopedPlan) :
    ∀ granularity, Decidable (OnSide database scope row leaf item granularity)
  | none => inferInstanceAs (Decidable (∃ key ∈ database.value _ _ _, _))
  | some _ => inferInstanceAs (Decidable (∃ stamp ∈ database.stamp _ _, _))

def MemberOf (scope : ScopedPlan) (row : Row) (leaf : PlanFilter)
    (item : ScopedDerivedSet ScopedPlan) : Prop :=
  OnSide database scope row leaf item (timeGroupFor item.key item.scopedPlan.plan.toPlanNode)

instance (scope : ScopedPlan) (row : Row) (leaf : PlanFilter) (item : ScopedDerivedSet ScopedPlan) :
    Decidable (MemberOf database scope row leaf item) :=
  inferInstanceAs (Decidable (OnSide _ _ _ _ _ _))

/-- A filter tree's leaves with each set filter read as membership. -/
def membershipTruth (scope : ScopedPlan) (row : Row) (leaf : FilterLeaf) : Truth :=
  match leaf with
  | .predicate _ => database.other scope leaf row
  | .filter filter =>
    match filter.setId with
    | none => database.other scope leaf row
    | some setId =>
      (namedSet scope.derived setId).map fun item =>
        decide (MemberOf database scope row filter item)

def Resolved (resolves : Bool) (scope : ScopedPlan) : Prop :=
  ∀ setId ∈ setReferenceIds scope.plan.filters, ∀ item ∈ namedSet scope.derived setId,
      (timeGroupFor item.key item.scopedPlan.plan.toPlanNode).isSome → resolves = true

section Leaf

variable {database} {scope : ScopedPlan} {row : Row} {leaf : PlanFilter}
  {item : ScopedDerivedSet ScopedPlan}

theorem keyColumn_eq_map_some : keyColumn database item = (selectedKeys database item).map some :=
  compileSetRelation_eq_map_some item.mode

theorem membershipClause_keyColumn :
    membershipClause database.equal (database.value scope row leaf.member)
        (keyColumn database item) (leaf.operator == .notInSet) = some true ↔
      OnSide database scope row leaf item none := by
  cases isKey : database.value scope row leaf.member with
  | none =>
    simp only [membershipClause_null, OnSide, isKey]
    simp
  | some key =>
    rw [keyColumn_eq_map_some, membershipClause_some]
    simp only [OnSide, isKey, Option.mem_def, Option.some.injEq, exists_eq_left']
    by_cases excludes : leaf.operator = .notInSet
    · simp [excludes]
    · simp [excludes, beq_eq_false_iff_ne.mpr excludes]

variable {granularity : TimeGranularity}

theorem exists_day_of_mem_selectedStarts
    {start : Int} (member : start ∈ selectedStarts database item granularity) :
    ∃ day, start = timeBucket granularity day := by
  obtain ⟨entry, inColumn, isStart⟩ := List.mem_filterMap.mp member
  rw [bucketColumn] at inColumn
  obtain ⟨row, -, value, rfl, isBucket⟩ := mem_compileSetRelation inColumn
  obtain ⟨stamp, -, isValue⟩ := Option.map_eq_some_iff.mp isBucket
  cases isStart
  exact ⟨stamp.day, isValue.symm⟩

theorem exists_selectedBounds_iff (granularity : TimeGranularity) (day : Int) :
    (∃ period ∈ selectedBounds granularity (selectedStarts database item granularity),
      period.1 ≤ day ∧ day < period.2) ↔
      timeBucket granularity day ∈ selectedStarts database item granularity := by
  simp only [selectedBounds, mem_filterMap]
  constructor
  · rintro ⟨period, ⟨start, selected, isPeriod⟩, enclosed⟩
    obtain ⟨other, rfl⟩ := exists_day_of_mem_selectedStarts selected
    obtain ⟨first, after, isBounds, encloses⟩ := bucketBounds_enclose granularity other
    rw [isBounds] at isPeriod
    cases isPeriod
    rw [(encloses day).mp enclosed]
    exact selected
  · intro selected
    obtain ⟨first, after, isBounds, encloses⟩ := bucketBounds_enclose granularity day
    refine ⟨(first, after), ⟨_, selected, ?_⟩, (encloses day).mpr rfl⟩
    rw [isBounds]
    rfl

theorem timeGroupClause_selectedBounds (includes : leaf.operator ≠ .notInSet) :
    timeGroupClause (database.stamp row leaf.member) (selectedBounds granularity
          (selectedStarts database item granularity)) = some true ↔
      OnSide database scope row leaf item (some granularity) := by
  rw [timeGroupClause_eq_true]
  simp only [OnSide, if_neg includes, exists_selectedBounds_iff]

theorem setLeafTruth_eq_true {resolves : Bool} {setId : String}
    (named : namedSet scope.derived setId = some item)
    (resolved : (timeGroupFor item.key item.scopedPlan.plan.toPlanNode).isSome → resolves = true)
    (includes : (timeGroupFor item.key
      item.scopedPlan.plan.toPlanNode).isSome → leaf.operator ≠ .notInSet) :
    setLeafTruth database scope (selections database resolves scope.derived)
        row leaf setId = some true ↔
      MemberOf database scope row leaf item := by
  rw [setLeafTruth, selections_eq, named, Option.map_some, selection_eq, MemberOf]
  cases isGroup : timeGroupFor item.key item.scopedPlan.plan.toPlanNode with
  | none => exact membershipClause_keyColumn
  | some granularity =>
    rw [isGroup] at resolved includes
    obtain rfl := resolved rfl
    exact timeGroupClause_selectedBounds (includes rfl)

end Leaf

end Evaluate

variable {bundle : DefinitionBundle}

theorem includes_of_assertTimeGroupCompatible
    {outerMember key : String} {mode : SetMode} {inner : PlanNode}
    {exclude : Bool}
    (accepted : assertTimeGroupCompatible bundle outerMember mode key inner exclude = .ok ()) :
    exclude = false := by
  cases exclude with
  | false => rfl
  | true => cases accepted

theorem namedSet_of_compatible {plan : PlanNode} {items : List (ScopedDerivedSet ScopedPlan)}
    (compatible : assertSetFiltersCompatible bundle plan items = .ok ())
    {leaf : PlanFilter} (member : .filter leaf ∈ iterFilterLeaves plan.filters)
    {setId : String} (names : leaf.setId = some setId) :
    ∃ item, namedSet items setId = some item ∧
      ((timeGroupFor item.key item.scopedPlan.plan.toPlanNode).isSome →
        leaf.operator ≠ .notInSet) := by
  have accepted := forM_eq_ok.mp compatible leaf (mem_planFilters.mpr member)
  simp only [names] at accepted
  cases isNamed : items.reverse.find? fun item => item.id == setId with
  | none =>
    rw [isNamed] at accepted
    cases accepted
  | some item =>
    rw [isNamed] at accepted
    refine ⟨item, isNamed, ?_⟩
    intro isGroup excludes
    simp only [assertSetKeyCompatible, isGroup, if_true] at accepted
    split_ifs at accepted
    have included := includes_of_assertTimeGroupCompatible accepted
    rw [excludes] at included
    cases included

section Scoped

variable {Row Key : Type} [LinearOrder Key] (database : SetDatabase Row Key)
  {principal : Principal} {bundle : DefinitionBundle}
  {businessDate : Option Int} {plan : BusinessQueryPlan}
  {root part : ScopedPlan}

theorem compatible_of_applyRoleScope
    (succeeded : applyRoleScope principal bundle businessDate plan = .ok root)
    (inside : Part root part) :
    assertSetFiltersCompatible bundle part.plan.toPlanNode part.derived = .ok () := by
  have step : ∀ earlier inner scope, PlanPart plan inner →
      ScopedNode principal bundle businessDate earlier inner scope →
        assertSetFiltersCompatible bundle scope.plan.toPlanNode scope.derived = .ok () := by
    intro earlier inner scope _ node
    rw [node.samePlan]
    exact node.compatible
  exact forall_part_of_applyRoleScope step succeeded part inside

/-- In a scoped plan and in every set below it, a set filter is true for a row
exactly when the row's key is on the filter's side of the set, and a filter tree
keeps the rows it keeps when its set filters are read so. -/
theorem set_filters_mean_membership
    (succeeded : applyRoleScope principal bundle businessDate plan = .ok root)
    (inside : Part root part) (resolves : Bool)
    (resolved : Resolved resolves part) (row : Row) :
    (∀ leaf setId, .filter leaf ∈ iterFilterLeaves part.plan.filters → leaf.setId = some setId →
      ∃ item, namedSet part.derived setId = some item ∧
        (leafTruth database part (selections database resolves part.derived)
            row (.filter leaf) = some true ↔
          MemberOf database part row leaf item)) ∧
      (filtersTruth (leafTruth database part (selections database resolves part.derived) row)
          part.plan.filters = some true ↔
        filtersTruth (membershipTruth database part row) part.plan.filters = some true) := by
  have compatible := compatible_of_applyRoleScope succeeded inside
  have each : ∀ leaf setId, .filter leaf ∈ iterFilterLeaves part.plan.filters →
      leaf.setId = some setId →
      ∃ item, namedSet part.derived setId = some item ∧
        (leafTruth database part (selections database resolves part.derived)
            row (.filter leaf) = some true ↔
          MemberOf database part row leaf item) := by
    intro leaf setId member names
    obtain ⟨item, named, includes⟩ :=
      namedSet_of_compatible compatible member names
    have referenced : setId ∈ setReferenceIds part.plan.filters :=
      List.mem_filterMap.mpr ⟨leaf, mem_planFilters.mpr member, names⟩
    refine ⟨item, named, ?_⟩
    simp only [leafTruth, names]
    exact setLeafTruth_eq_true named (resolved setId referenced item named) includes
  refine ⟨each, ?_⟩
  apply filtersTruth_congr
  intro leaf member
  cases leaf with
  | predicate typed => exact Iff.rfl
  | filter filter =>
    cases names : filter.setId with
    | none => simp only [leafTruth, membershipTruth, names]
    | some setId =>
      obtain ⟨item, named, means⟩ := each filter setId member names
      rw [means]
      simp only [membershipTruth, names, named, Option.map_some,
        Option.some.injEq, decide_eq_true_eq]

end Scoped

def customerBundle : DefinitionBundle where
  contentHash := "sha256:customers"
  resources := [
    { name := "customer", projectionView := "ai_v1_bq_customer_fact"
      primaryKey := "customer_id", departmentScopeMode := .none
      scopeColumns := ⟨some "entity_id", none⟩ }]
  dimensions := [
    { name := "customer.id", owningResource := "customer"
      sqlExpression := "customer_id", type := .number },
    { name := "customer.name", owningResource := "customer"
      sqlExpression := "name", type := .string }]
  capabilities := [
    { name := "customer.id", kind := .dimension, resolvesTo := "customer.id"
      requiredPermissions := ["view customer"], capabilityState := .enabled },
    { name := "customer.name", kind := .dimension, resolvesTo := "customer.name"
      requiredPermissions := ["view customer"], capabilityState := .enabled }]

def firstCustomer : BusinessQueryPlan where
  dimensions := ["customer.id"]
  order := [⟨"customer.name", .asc⟩]
  grain := .entityRows
  limit := 1

def otherCustomers : BusinessQueryPlan where
  dimensions := ["customer.name"]
  filters := some {
    all := [.leaf (.filter ⟨"customer.id", .notInSet, [.text "s1"], rfl⟩)] }
  grain := .entityRows
  derivedSets := [⟨"s1", .pick, "customer.id", firstCustomer⟩]

/-- Customers with and without a key; a name counts by its length. -/
def customerDatabase : SetDatabase (Option Int × String) Int where
  sources _ := [(some 7, "Bo"), (none, "A"), (some 9, "Cleo")]
  value _ row member :=
    if member = "customer.id" then row.1.map .integer else some (.text row.2)
  stamp _ _ := none
  rank _ value :=
    match value with
    | .integer number => number
    | value => value.pyStr.length
  equal left right := left == right
  aggregate _ _ _ := none
  other _ _ _ := none
  having _ _ _ := none

def customerViewer : Principal where
  role := "viewer"
  permissions := ["view customer"]
  entityId := some 1

def firstCustomerScope : ScopedPlan where
  plan := firstCustomer
  resources := ["customer"]
  forced := [⟨"customer", "entity_id", .eq, [.integer 1], .principalScope⟩]
  principal := some customerViewer
  bundleHash := some "sha256:customers"

def otherCustomersScope : ScopedPlan where
  plan := otherCustomers
  resources := ["customer"]
  forced := [⟨"customer", "entity_id", .eq, [.integer 1], .principalScope⟩]
  derived := [⟨"s1", "customer.id", .pick, firstCustomerScope⟩]
  principal := some customerViewer
  bundleHash := some "sha256:customers"

theorem applyRoleScope_otherCustomers :
    applyRoleScope customerViewer customerBundle none otherCustomers = .ok otherCustomersScope := by
  rfl

theorem resolved_otherCustomersScope : Resolved true otherCustomersScope := fun _ _ _ _ _ => rfl

/-- The customer with key 9 is outside the set and the one with key 7 is in it;
the customer without a key is neither. -/
example : (keptRows customerDatabase otherCustomersScope
      (selections customerDatabase true otherCustomersScope.derived)) =
      [(some 9, "Cleo")] := by
  decide

theorem set_filters_mean_membership_otherCustomers :
    ∃ item, namedSet otherCustomersScope.derived "s1" = some item ∧
      (leafTruth customerDatabase otherCustomersScope
          (selections customerDatabase true otherCustomersScope.derived)
          (some 9, "Cleo")
          (.filter ⟨"customer.id", .notInSet, [.text "s1"], rfl⟩) = some true ↔
        MemberOf customerDatabase otherCustomersScope (some 9, "Cleo")
          ⟨"customer.id", .notInSet, [.text "s1"], rfl⟩ item) :=
  (set_filters_mean_membership customerDatabase applyRoleScope_otherCustomers
    .self true resolved_otherCustomersScope (some 9, "Cleo")).1 _ "s1"
    (mem_singleton_self _) rfl

end McpAssistant.BusinessQuery.SetMembership
