import McpAssistant.BusinessQuery.SetMembership

/-!
# The record a key identifies

A column identifies records by a declared primary key: its own, or the one it reaches
through declared joins.  The search for that key sees the joins as a set, so that their
order does not matter.
-/

namespace McpAssistant.BusinessQuery.KeyIdentity

open Definitions QueryPlan Scopes SetKeys Outcomes Foundations.Fallible List

section Joins

variable (bundle : DefinitionBundle)

/-- A declared join matches one column to another, and each value of the first to one of
the second at most. -/
def References (first second : KeyColumn) : Prop :=
  ∃ join ∈ bundle.joins, ∃ fromColumn toColumn,
    joinColumns join.onSql = some (fromColumn, toColumn) ∧
      (join.relationship ≠ .oneToMany ∧ first = (join.fromResource, fromColumn) ∧
          second = (join.toResource, toColumn) ∨
        join.relationship ≠ .manyToOne ∧ first = (join.toResource, toColumn) ∧
          second = (join.fromResource, fromColumn))

def DeclaredKey (column : KeyColumn) : Prop :=
  ∃ binding, resourceNamed bundle column.1 = some binding ∧ binding.primaryKey = column.2

/-- A primary key that a column reaches in one join, or in two over a column that is no
primary key. -/
def ReachesKey (column key : KeyColumn) : Prop :=
  DeclaredKey bundle key ∧ (References bundle column key ∨
      ∃ middle, ¬DeclaredKey bundle middle ∧ References bundle column middle ∧
        References bundle middle key)

structure Identifies (column key : KeyColumn) : Prop where
  declared : DeclaredKey bundle key
  chain : Relation.ReflTransGen (References bundle) column key
  only : column = key ∨ ∀ other, ReachesKey bundle column other → other = key

def Denotes (member : String) (key : KeyColumn) : Prop :=
  ∃ dimension, resolveDimension bundle member = .ok dimension ∧
    Identifies bundle (dimension.owningResource, dimension.sqlExpression) key

end Joins

section Search

variable {bundle : DefinitionBundle}

theorem isPrimaryKeyColumn_iff (column : KeyColumn) :
    isPrimaryKeyColumn bundle column = true ↔ DeclaredKey bundle column := by
  unfold isPrimaryKeyColumn DeclaredKey
  rw [beq_iff_eq, Option.map_eq_some_iff]

/-- Where a join matches both ways, it leads from a column to itself. -/
theorem nextHop_eq_some {join : JoinDefinition} {first second : KeyColumn} :
    nextHop join first = some second ↔ ∃ fromColumn toColumn,
        joinColumns join.onSql = some (fromColumn, toColumn) ∧
          (join.relationship ≠ .oneToMany ∧ first = (join.fromResource, fromColumn) ∧
              second = (join.toResource, toColumn) ∨
            join.relationship ≠ .manyToOne ∧ first = (join.toResource, toColumn) ∧
              second = (join.fromResource, fromColumn)) := by
  obtain ⟨resource, column⟩ := first
  unfold nextHop
  cases joinColumns join.onSql with
  | none => simp
  | some columns =>
    obtain ⟨fromColumn, toColumn⟩ := columns
    simp only [Option.some.injEq, Prod.mk.injEq]
    split_ifs with outward inward
    · obtain ⟨kind, rfl, rfl⟩ := outward
      constructor
      · intro leads
        exact ⟨_, _, ⟨rfl, rfl⟩, .inl ⟨kind, ⟨rfl, rfl⟩, (Option.some.inj leads).symm⟩⟩
      · rintro ⟨_, _, ⟨rfl, rfl⟩, ⟨_, _, rfl⟩ | ⟨_, ⟨same, sameColumn⟩, rfl⟩⟩
        · rfl
        · rw [same, sameColumn]
    · obtain ⟨kind, rfl, rfl⟩ := inward
      constructor
      · intro leads
        exact ⟨_, _, ⟨rfl, rfl⟩, .inr ⟨kind, ⟨rfl, rfl⟩, (Option.some.inj leads).symm⟩⟩
      · rintro ⟨_, _, ⟨rfl, rfl⟩, ⟨kind', ⟨same, sameColumn⟩, _⟩ | ⟨_, _, rfl⟩⟩
        · exact absurd ⟨kind', same.symm, sameColumn.symm⟩ outward
        · rfl
    · apply iff_of_false nofun
      rintro ⟨_, _, ⟨rfl, rfl⟩, ⟨kind, ⟨same, sameColumn⟩, _⟩ | ⟨kind, ⟨same, sameColumn⟩, _⟩⟩
      · exact outward ⟨kind, same.symm, sameColumn.symm⟩
      · exact inward ⟨kind, same.symm, sameColumn.symm⟩

theorem references_iff (first second : KeyColumn) : References bundle first second ↔
      ∃ join ∈ bundle.joins, nextHop join first = some second := by
  unfold References
  simp only [nextHop_eq_some]

structure Tallied (bundle : DefinitionBundle) (walk : KeyWalk) : Prop where
  once : walk.reached.Nodup
  keys : ∀ column, column ∈ walk.reached ↔ column ∈ walk.visited ∧ DeclaredKey bundle column

structure Led (bundle : DefinitionBundle) (leads : KeyColumn → Prop)
    (walk after : KeyWalk) : Prop where
  tallied : Tallied bundle walk → Tallied bundle after
  visited : ∀ column, column ∈ after.visited ↔ column ∈ walk.visited ∨ leads column
  next : ∀ column, column ∈ after.next ↔ column ∈ walk.next ∨
    column ∉ walk.visited ∧ ¬DeclaredKey bundle column ∧ leads column

theorem Led.trans {first second : KeyColumn → Prop} {walk middle after : KeyWalk}
    (before : Led bundle first walk middle) (later : Led bundle second middle after) :
    Led bundle (fun column => first column ∨ second column) walk after := by
  constructor
  · intro tallied
    exact later.tallied (before.tallied tallied)
  · intro column
    rw [later.visited, before.visited, or_assoc]
  · intro column
    rw [later.next, before.next, before.visited]
    tauto

theorem Led.congr {first second : KeyColumn → Prop} {walk after : KeyWalk}
    (led : Led bundle first walk after) (same : ∀ column, first column ↔ second column) :
    Led bundle second walk after := by
  have equal : first = second := funext fun column => propext (same column)
  exact equal ▸ led

theorem led_self (walk : KeyWalk) : Led bundle (fun _ => False) walk walk := by
  constructor
  · exact id
  · intro column
    rw [or_false]
  · intro column
    rw [and_false, and_false, or_false]

local instance lawfulBEq_column : LawfulBEq KeyColumn :=
  inferInstance

/-- The walk after one column was offered. -/
def visit (bundle : DefinitionBundle) (column : KeyColumn) (walk : KeyWalk) : KeyWalk :=
  if column ∈ walk.visited then
    walk
  else if isPrimaryKeyColumn bundle column then
    ⟨column :: walk.visited, column :: walk.reached, walk.next⟩
  else
    ⟨column :: walk.visited, walk.reached, walk.next ++ [column]⟩

theorem led_visit (column : KeyColumn) (walk : KeyWalk) :
    Led bundle (fun other => other = column) walk (visit bundle column walk) := by
  unfold visit
  split_ifs with known isKey
  · constructor
    · exact id
    · intro other
      constructor
      · exact .inl
      · rintro (old | rfl)
        · exact old
        · exact known
    · intro other
      constructor
      · exact .inl
      · rintro (old | ⟨fresh, _, rfl⟩)
        · exact old
        · exact absurd known fresh
  · rw [isPrimaryKeyColumn_iff] at isKey
    constructor
    · intro tallied
      constructor
      · apply List.nodup_cons.mpr
        constructor
        · intro reached
          exact known ((tallied.keys column).mp reached).1
        · exact tallied.once
      · intro other
        rw [mem_cons, mem_cons, tallied.keys]
        constructor
        · rintro (rfl | ⟨visited, key⟩)
          · exact ⟨.inl rfl, isKey⟩
          · exact ⟨.inr visited, key⟩
        · rintro ⟨rfl | visited, key⟩
          · exact .inl rfl
          · exact .inr ⟨visited, key⟩
    · intro other
      rw [mem_cons, or_comm]
    · intro other
      constructor
      · exact .inl
      · rintro (old | ⟨_, noKey, rfl⟩)
        · exact old
        · exact absurd isKey noKey
  · rw [isPrimaryKeyColumn_iff] at isKey
    constructor
    · intro tallied
      constructor
      · exact tallied.once
      · intro other
        rw [mem_cons, tallied.keys]
        constructor
        · rintro ⟨visited, key⟩
          exact ⟨.inr visited, key⟩
        · rintro ⟨rfl | visited, key⟩
          · exact absurd key isKey
          · exact ⟨visited, key⟩
    · intro other
      rw [mem_cons, or_comm]
    · intro other
      rw [mem_append, mem_singleton]
      constructor
      · rintro (old | rfl)
        · exact .inl old
        · exact .inr ⟨known, isKey, rfl⟩
      · rintro (old | ⟨_, _, rfl⟩)
        · exact .inl old
        · exact .inr rfl

theorem led_visitJoins (current : KeyColumn) (joins : List JoinDefinition) (walk : KeyWalk) :
    Led bundle (fun column => ∃ join ∈ joins, nextHop join current = some column) walk
      (visitJoins bundle current joins walk) := by
  induction joins generalizing walk with
  | nil =>
    apply (led_self walk).congr
    simp
  | cons join joins ih =>
    rw [visitJoins]
    cases hop : nextHop join current with
    | none =>
      apply (ih walk).congr
      intro column
      simp [hop]
    | some target =>
      apply ((led_visit target walk).trans (ih _)).congr
      intro column
      simp [hop, eq_comm]

theorem led_level (level : List KeyColumn) (walk : KeyWalk) :
    Led bundle (fun column => ∃ current ∈ level, References bundle current column) walk
      (level.foldl (fun walk current => visitJoins bundle current bundle.joins walk) walk) := by
  induction level generalizing walk with
  | nil =>
    apply (led_self walk).congr
    simp
  | cons current level ih =>
    apply ((led_visitJoins current bundle.joins walk).trans (ih _)).congr
    intro column
    rw [exists_mem_cons_iff, references_iff]

theorem walkLevels_spec {start : KeyColumn} (noKey : ¬DeclaredKey bundle start) :
    (walkLevels bundle maxKeyHops [start] ⟨[start], [], []⟩).Nodup ∧
      ∀ key, key ∈ walkLevels bundle maxKeyHops [start] ⟨[start], [], []⟩ ↔
        ReachesKey bundle start key := by
  have initially : Tallied bundle ⟨[start], [], []⟩ := by
    constructor
    · exact nodup_nil
    · intro column
      apply iff_of_false not_mem_nil
      rintro ⟨visited, isKey⟩
      rw [List.mem_singleton.mp visited] at isKey
      exact noKey isKey
  let level (columns : List KeyColumn) (walk : KeyWalk) : KeyWalk :=
    columns.foldl (fun walk current => visitJoins bundle current bundle.joins walk) walk
  let one := level [start] ⟨[start], [], []⟩
  let two := level one.next ⟨one.visited, one.reached, []⟩
  have ledOne : Led bundle _ ⟨[start], [], []⟩ one := led_level [start] _
  have ledTwo : Led bundle _ ⟨one.visited, one.reached, []⟩ two := led_level one.next _
  have tallied : Tallied bundle two :=
    ledTwo.tallied ⟨(ledOne.tallied initially).once, (ledOne.tallied initially).keys⟩
  have nextOne (column : KeyColumn) : column ∈ one.next ↔
      column ≠ start ∧ ¬DeclaredKey bundle column ∧ References bundle start column := by
    rw [ledOne.next]
    simp
  have visitedTwo (column : KeyColumn) : column ∈ two.visited ↔
      (column = start ∨ References bundle start column) ∨
        ∃ current ∈ one.next, References bundle current column := by
    rw [ledTwo.visited]
    show column ∈ one.visited ∨ _ ↔ _
    rw [ledOne.visited]
    simp
  show two.reached.Nodup ∧ ∀ key, key ∈ two.reached ↔ _
  refine ⟨tallied.once, ?_⟩
  intro key
  rw [tallied.keys, visitedTwo]
  constructor
  · rintro ⟨(rfl | direct) | ⟨middle, isNext, reaches⟩, isKey⟩
    · exact absurd isKey noKey
    · exact ⟨isKey, .inl direct⟩
    · obtain ⟨_, noKeyBetween, leads⟩ := (nextOne middle).mp isNext
      exact ⟨isKey, .inr ⟨middle, noKeyBetween, leads, reaches⟩⟩
  · rintro ⟨isKey, direct | ⟨middle, noKeyBetween, leads, reaches⟩⟩
    · exact ⟨.inl (.inr direct), isKey⟩
    · refine ⟨?_, isKey⟩
      by_cases back : middle = start
      · subst back
        exact .inl (.inr reaches)
      · exact .inr ⟨middle, (nextOne middle).mpr ⟨back, noKeyBetween, leads⟩, reaches⟩

theorem eq_singleton_iff {Item : Type} {items : List Item} (once : items.Nodup)
    (item : Item) : items = [item] ↔ ∀ other, other ∈ items ↔ other = item := by
  constructor
  · rintro rfl other
    exact mem_singleton
  · intro only
    apply List.perm_singleton.mp
    apply (perm_ext_iff_of_nodup once (nodup_singleton item)).mpr
    intro other
    rw [only, mem_singleton]

theorem resolvePkIdentity_eq_ok {resource column : String} {key : KeyColumn} :
    resolvePkIdentity bundle resource column = .ok key ↔ isSqlIdentifier column.toList = true ∧
        (∃ binding, resourceNamed bundle resource = some binding) ∧
        (DeclaredKey bundle (resource, column) ∧ key = (resource, column) ∨
          ¬DeclaredKey bundle (resource, column) ∧
            ∀ other, ReachesKey bundle (resource, column) other ↔ other = key) := by
  unfold resolvePkIdentity
  by_cases identifier : isSqlIdentifier column.toList = true
  · rw [if_pos identifier, and_iff_right identifier]
    cases named : resourceNamed bundle resource with
    | none =>
      apply iff_of_false nofun
      rintro ⟨⟨_, isNamed⟩, _⟩
      cases isNamed
    | some binding =>
      have isKey : DeclaredKey bundle (resource, column) ↔ binding.primaryKey = column := by
        constructor
        · rintro ⟨other, isNamed, key⟩
          rw [named] at isNamed
          cases isNamed
          exact key
        · intro key
          exact ⟨binding, named, key⟩
      rw [and_iff_right ⟨binding, rfl⟩, isKey]
      simp only
      split_ifs with own
      · constructor
        · intro found
          exact .inl ⟨own, (Except.ok.inj found).symm⟩
        · rintro (⟨_, rfl⟩ | ⟨other, _⟩)
          · rfl
          · exact absurd own other
      · obtain ⟨once, mem⟩ := walkLevels_spec (mt isKey.mp own)
        have single := eq_singleton_iff once key
        simp only [mem] at single
        rw [and_iff_right own, ← single]
        constructor
        · intro found
          split at found
          · rename_i other isOther
            rw [isOther, Except.ok.inj found]
            exact .inr rfl
          · cases found
        · rintro (⟨key, _⟩ | isSingle)
          · exact absurd key own
          · rw [isSingle]
  · rw [if_neg identifier]
    apply iff_of_false nofun
    rintro ⟨isIdentifier, _⟩
    exact identifier isIdentifier

theorem identifies_of_resolvePkIdentity {resource column : String} {key : KeyColumn}
    (resolved : resolvePkIdentity bundle resource column = .ok key) :
    Identifies bundle (resource, column) key := by
  obtain ⟨_, _, ⟨isKey, rfl⟩ | ⟨_, only⟩⟩ := resolvePkIdentity_eq_ok.mp resolved
  · exact ⟨isKey, .refl, .inl rfl⟩
  · have reaches := (only key).mpr rfl
    constructor
    · exact reaches.1
    · obtain ⟨_, direct | ⟨middle, _, leads, next⟩⟩ := reaches
      · exact .single direct
      · exact .tail (.single leads) next
    · exact .inr fun other => (only other).mp

end Search

/-- A check that raises lets on only where it does not hold. -/
theorem unless_eq_ok {fails : Prop} [Decidable fails] {failure : Raised}
    {next : Unit → Except Raised Unit} :
    (if fails then (throw failure : Except Raised Unit) >>= next else next ()) = .ok () ↔
      ¬fails ∧ next () = .ok () := by
  split_ifs with raises
  · apply iff_of_false nofun
    rintro ⟨quiet, _⟩
    exact quiet raises
  · exact (and_iff_right raises).symm

/-- What an entity key goes through before the keys are compared. -/
structure EntityKeyFits (bundle : DefinitionBundle) (mode : SetMode) (key : String)
    (inner : PlanNode) (outer keyDimension : DimensionDefinition) : Prop where
  shape : assertEntityShape bundle mode key inner = .ok ()
  type : outer.type = keyDimension.type
  kind : ¬(outer.valueKind.isSome && keyDimension.valueKind.isSome &&
    outer.valueKind != keyDimension.valueKind) = true
  currency : assertMonetaryCurrencyPartition bundle inner = .ok ()

variable {bundle : DefinitionBundle}

theorem assertEntityKeyCompatible_eq_ok
    {outerMember key : String} {mode : SetMode} {inner : PlanNode} :
    assertEntityKeyCompatible bundle outerMember mode key inner = .ok () ↔
      ∃ outer keyDimension, resolveDimension bundle outerMember = .ok outer ∧
        resolveDimension bundle key = .ok keyDimension ∧
        EntityKeyFits bundle mode key inner outer keyDimension ∧
        ∃ identity, resolvePkIdentity bundle outer.owningResource outer.sqlExpression =
              .ok identity ∧
            resolvePkIdentity bundle keyDimension.owningResource
                keyDimension.sqlExpression = .ok identity := by
  unfold assertEntityKeyCompatible
  constructor
  · intro accepted
    obtain ⟨_, shape, accepted⟩ := bind_eq_ok.mp accepted
    obtain ⟨outer, isOuter, accepted⟩ := bind_eq_ok.mp accepted
    obtain ⟨keyDimension, isKey, accepted⟩ := bind_eq_ok.mp accepted
    refine ⟨outer, keyDimension, isOuter, isKey, ?_⟩
    obtain ⟨type, accepted⟩ := unless_eq_ok.mp accepted
    obtain ⟨kind, accepted⟩ := unless_eq_ok.mp accepted
    obtain ⟨_, currency, accepted⟩ := bind_eq_ok.mp accepted
    obtain ⟨outerKey, isOuterKey, accepted⟩ := bind_eq_ok.mp accepted
    obtain ⟨innerKey, isInnerKey, accepted⟩ := bind_eq_ok.mp accepted
    split_ifs at accepted with different
    rw [not_not] at different type
    exact ⟨⟨shape, type, kind, currency⟩, outerKey, isOuterKey, different ▸ isInnerKey⟩
  · rintro ⟨outer, keyDimension, isOuter, isKey, fits, identity, isOuterKey, isInnerKey⟩
    rw [fits.shape]
    show (do
      let outer ← resolveDimension bundle outerMember
      _) = _
    rw [isOuter]
    show (do
      let keyDimension ← resolveDimension bundle key
      _) = _
    rw [isKey]
    show (if _ then _ else _) = _
    rw [if_neg (not_not_intro fits.type), if_neg fits.kind, fits.currency]
    show (do
      let outerKey ← resolvePkIdentity bundle outer.owningResource outer.sqlExpression
      _) = _
    rw [isOuterKey]
    show (do
      let innerKey ← resolvePkIdentity bundle keyDimension.owningResource keyDimension.sqlExpression
      _) = _
    rw [isInnerKey]
    exact if_neg (not_not_intro rfl)

section Order

variable {bundle : DefinitionBundle} {joins : List JoinDefinition} (perm : bundle.joins.Perm joins)
include perm

theorem references_perm (first second : KeyColumn) :
    References { bundle with joins := joins } first second ↔ References bundle first second := by
  unfold References
  simp only [perm.mem_iff]

theorem resolvePkIdentity_perm (resource column : String) (key : KeyColumn) :
    resolvePkIdentity { bundle with joins := joins } resource column = .ok key ↔
      resolvePkIdentity bundle resource column = .ok key := by
  have reaches : ∀ first second, ReachesKey { bundle with joins := joins } first second ↔
      ReachesKey bundle first second := by
    intro first second
    unfold ReachesKey
    simp only [references_perm perm]
    rfl
  rw [resolvePkIdentity_eq_ok, resolvePkIdentity_eq_ok]
  simp only [reaches]
  rfl

theorem assertEntityKeyCompatible_perm
    (outerMember : String) (mode : SetMode) (key : String) (inner : PlanNode) :
    assertEntityKeyCompatible { bundle with joins := joins } outerMember mode key inner = .ok () ↔
      assertEntityKeyCompatible bundle outerMember mode key inner = .ok () := by
  rw [assertEntityKeyCompatible_eq_ok, assertEntityKeyCompatible_eq_ok]
  simp only [resolvePkIdentity_perm perm]
  constructor
  · rintro ⟨outer, keyDimension, isOuter, isKey, fits, same⟩
    exact ⟨outer, keyDimension, isOuter, isKey,
      ⟨fits.shape, fits.type, fits.kind, fits.currency⟩, same⟩
  · rintro ⟨outer, keyDimension, isOuter, isKey, fits, same⟩
    exact ⟨outer, keyDimension, isOuter, isKey,
      ⟨fits.shape, fits.type, fits.kind, fits.currency⟩, same⟩

/-- Whether a set filter is accepted does not depend on the order of the joins. -/
theorem assertSetKeyCompatible_perm
    (outerMember : String) (item : ScopedDerivedSet ScopedPlan) (exclude : Bool) :
    assertSetKeyCompatible { bundle with joins := joins } outerMember item exclude = .ok () ↔
      assertSetKeyCompatible bundle outerMember item exclude = .ok () := by
  unfold assertSetKeyCompatible
  simp only
  split_ifs
  · exact Iff.rfl
  · exact Iff.rfl
  · exact Iff.rfl
  · exact Iff.rfl
  · exact assertEntityKeyCompatible_perm perm outerMember item.mode item.key _

end Order

/-- The set selects calendar periods of its key. -/
def IsTimeGroup (item : ScopedDerivedSet ScopedPlan) : Prop :=
  (timeGroupFor item.key item.scopedPlan.plan.toPlanNode).isSome = true

theorem timeMember_of_assertTimeGroupCompatible
    {outerMember key : String} {mode : SetMode} {inner : PlanNode} {exclude : Bool}
    (accepted : assertTimeGroupCompatible bundle outerMember mode key inner exclude = .ok ()) :
    outerMember = key ∧ ∃ dimension, resolveDimension bundle key = .ok dimension ∧
        dimension.type = .time := by
  unfold assertTimeGroupCompatible at accepted
  obtain ⟨_, accepted⟩ := unless_eq_ok.mp accepted
  obtain ⟨same, accepted⟩ := unless_eq_ok.mp accepted
  obtain ⟨dimension, isDimension, accepted⟩ := bind_eq_ok.mp accepted
  obtain ⟨isTime, _⟩ := unless_eq_ok.mp accepted
  rw [not_not] at same isTime
  exact ⟨same, dimension, same ▸ isDimension, isTime⟩

/-- An accepted set filter compares keys of one record type: the member and the set's key
stand for the primary key of one declared resource.  Where the set selects periods, both
are one time member.  The order of the joins does not matter. -/
theorem set_filter_compares_keys (bundle : DefinitionBundle) (outerMember : String)
    (item : ScopedDerivedSet ScopedPlan) (exclude : Bool) :
    (assertSetKeyCompatible bundle outerMember item exclude = .ok () → (¬IsTimeGroup item →
        ∃ key, Denotes bundle outerMember key ∧ Denotes bundle item.key key) ∧
      (IsTimeGroup item → outerMember = item.key ∧
          ∃ dimension, resolveDimension bundle item.key = .ok dimension ∧ dimension.type = .time)) ∧
    ∀ joins, bundle.joins.Perm joins →
      (assertSetKeyCompatible { bundle with joins := joins } outerMember item exclude = .ok () ↔
        assertSetKeyCompatible bundle outerMember item exclude = .ok ()) := by
  constructor
  · intro accepted
    unfold assertSetKeyCompatible at accepted
    simp only at accepted
    split_ifs at accepted with _ _ _ isGroup
    · refine ⟨fun noGroup => absurd isGroup noGroup, ?_⟩
      intro _
      exact timeMember_of_assertTimeGroupCompatible accepted
    · refine ⟨?_, fun group => absurd group isGroup⟩
      intro _
      obtain ⟨outer, keyDimension, isOuter, isKey, _, key, outerKey, innerKey⟩ :=
        assertEntityKeyCompatible_eq_ok.mp accepted
      exact ⟨key, ⟨outer, isOuter, identifies_of_resolvePkIdentity outerKey⟩,
        ⟨keyDimension, isKey, identifies_of_resolvePkIdentity innerKey⟩⟩
  · intro joins perm
    exact assertSetKeyCompatible_perm perm outerMember item exclude

theorem set_filter_compares_keys_firstCustomer :
    ∃ key, Denotes SetMembership.customerBundle "customer.id" key :=
  (((set_filter_compares_keys SetMembership.customerBundle "customer.id"
      ⟨"s1", "customer.id", .pick, SetMembership.firstCustomerScope⟩ true).1 rfl).1
    nofun).imp fun _ both => both.1

def saleBundle : DefinitionBundle where
  contentHash := "sha256:sales"
  resources := [
    { name := "sale", projectionView := "ai_v1_bq_sale_fact", primaryKey := "sale_id"
      departmentScopeMode := .none, scopeColumns := ⟨some "entity_id", none⟩ }]
  measures := [
    { name := "sale.count", owningResource := "sale", sqlExpression := "sale_id"
      aggType := .count }]
  dimensions := [
    { name := "sale.sold_at", owningResource := "sale", sqlExpression := "sold_at"
      type := .time }]
  capabilities := [
    { name := "sale.count", kind := .measure, resolvesTo := "sale.count"
      requiredPermissions := ["view sale"], capabilityState := .enabled },
    { name := "sale.sold_at", kind := .dimension, resolvesTo := "sale.sold_at"
      requiredPermissions := ["view sale"], capabilityState := .enabled }]

/-- The month with the most sales. -/
def bestMonth : ScopedDerivedSet ScopedPlan where
  id := "s1"
  key := "sale.sold_at"
  mode := .pick
  scopedPlan :=
    { plan :=
        { measures := ["sale.count"]
          dimensions := ["sale.sold_at"]
          period := some ⟨"sale.sold_at", .relative .thisYear, some .month⟩
          order := [⟨"sale.count", .desc⟩]
          grain := .grouped
          limit := 1 }
      resources := ["sale"]
      forced := [] }

/-- The time of a sale is accepted against the months selected, and is no record's
key. -/
theorem accepted_without_key :
    assertSetKeyCompatible saleBundle "sale.sold_at" bestMonth false = .ok () ∧
      ¬∃ key, Denotes saleBundle "sale.sold_at" key := by
  constructor
  · rfl
  · rintro ⟨key, dimension, isDimension, identifies⟩
    have isSoldAt : dimension =
        { name := "sale.sold_at", owningResource := "sale", sqlExpression := "sold_at"
          type := .time } := by
      cases isDimension
      rfl
    subst isSoldAt
    have chain := identifies.chain
    cases Relation.ReflTransGen.cases_head chain with
    | inl same =>
      obtain ⟨binding, named, isKey⟩ := identifies.declared
      rw [← same] at named isKey
      cases named
      exact absurd isKey (by decide)
    | inr leads =>
      obtain ⟨_, ⟨_, inJoins, _⟩, _⟩ := leads
      cases inJoins

end McpAssistant.BusinessQuery.KeyIdentity
