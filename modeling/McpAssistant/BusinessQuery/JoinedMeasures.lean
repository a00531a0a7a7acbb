import McpAssistant.BusinessQuery.JoinMultiplicity
import Mathlib.Algebra.BigOperators.Group.List.Basic
import Mathlib.Algebra.Order.Ring.Rat

/-!
# Measures over joined rows

A measure aggregates over the joined rows.  The compiler accepts it when its
resource is not multiplied.  An outer join may put a row of NULLs in the place
of the resource's row; what the measure aggregates has a value there too.
-/

namespace McpAssistant.BusinessQuery.JoinedMeasures

open Definitions JoinSearch FromClause JoinedSource JoinMultiplicity
  Foundations.JoinedRows List

inductive Aggregate where
  | sum
  | count
  | avg
deriving DecidableEq

def Aggregate.apply : Aggregate → List Rat → Option Rat
  | sum, [] => none
  | sum, values => some values.sum
  | count, values => some values.length
  | avg, [] => none
  | avg, values => some (values.sum / values.length)

theorem Aggregate.apply_perm (aggregate : Aggregate) {first second : List Rat}
    (perm : first.Perm second) :
    aggregate.apply first = aggregate.apply second := by
  cases first with
  | nil => rw [perm.nil_eq]
  | cons value values =>
    cases second with
    | nil => exact absurd perm.length_eq (Nat.succ_ne_zero _)
    | cons other others =>
      cases aggregate with
      | sum => simp only [apply, perm.sum_eq]
      | count => simp only [apply, perm.length_eq]
      | avg => simp only [apply, perm.sum_eq, perm.length_eq]

theorem Aggregate.apply_ne_nil (aggregate : Aggregate) {values : List Rat}
    (nonempty : values ≠ []) :
    aggregate.apply values ≠ aggregate.apply [] := by
  cases values with
  | nil => exact absurd rfl nonempty
  | cons value values =>
    cases aggregate with
    | sum => simp [apply]
    | count =>
      simp only [apply, ne_eq, Option.some.injEq, Nat.cast_inj]
      exact Nat.succ_ne_zero _
    | avg => simp [apply]

section Measure

variable {Row : Type} [DecidableEq Row]

/-- What a measure aggregates where its resource is bound, or is absent. -/
def measured (present : Row → Option Rat) (absent : Option Rat) : Option Row → Option Rat
  | none => absent
  | some row => present row

def joinedMeasure (aggregate : Aggregate) (present : Row → Option Rat)
    (absent : Option Rat) (owner : String)
    (combinations : List (Binding String Row)) : Option Rat :=
  aggregate.apply (combinations.filterMap fun combination =>
    measured present absent (combination owner))

def qualifyingRows (data : JoinData Row) (owner : String)
    (combinations : List (Binding String Row)) : List Row :=
  (data.rows owner).filter fun row =>
    combinations.any fun combination => combination owner = some row

/-- The measure over the resource's own rows, each taken once. -/
def ownMeasure (aggregate : Aggregate) (present : Row → Option Rat)
    (data : JoinData Row) (owner : String)
    (combinations : List (Binding String Row)) : Option Rat :=
  aggregate.apply ((qualifyingRows data owner combinations).filterMap present)

end Measure

/-- In every database that respects the declared relationships and under every
condition, each row of a resource occurs at most once and the measure is the
one over the resource's own qualifying rows.  `absent` is what the measure
aggregates on a row of NULLs. -/
structure MeasuresOwnRows (tree : List ResolvedJoin) (anchor : String)
    (steps : List Step) (owner : String) (aggregate : Aggregate)
    (absent : Option Rat) : Prop where
  once : ∀ (Row : Type) [DecidableEq Row] (data : JoinData Row),
    Cardinalities data tree → ∀ row : Row, (fromRows data anchor steps).countP (fun combination =>
        combination owner = some row) ≤ 1
  own : ∀ (Row : Type) [DecidableEq Row] (data : JoinData Row),
    Cardinalities data tree → ∀ (present : Row → Option Rat) (keeps : Binding String Row → Bool),
      joinedMeasure aggregate present absent owner ((fromRows data anchor steps).filter keeps) =
        ownMeasure aggregate present data owner ((fromRows data anchor steps).filter keeps)

/-- On the way from the anchor to a resource lies an outer edge beyond which,
on every branch, only outer edges follow. -/
def MayBeAbsent (tree : List ResolvedJoin) (anchor resource : String) : Prop :=
  ∃ near far before edge, Route tree anchor (near :: before) ∧ edge ∈ tree ∧
    Runs edge near far ∧ far ∉ near :: before ∧ isOuter anchor edge = true ∧
    (∃ path, Route tree anchor (resource :: path) ∧ far :: near :: before <:+ resource :: path) ∧
    ∀ path here next later, Route tree anchor (here :: path) →
      far :: near :: before <:+ here :: path → later ∈ tree →
      Runs later here next → next ∉ here :: path → isOuter anchor later = true

/-- The tables joined below a table, itself included. -/
inductive Under (steps : List Step) (top : String) : String → Prop where
  | self : Under steps top top
  | next {step : Step} (above : Under steps top step.near)
      (member : step ∈ steps) : Under steps top step.far

variable {tree : List ResolvedJoin} {anchor owner : String} {steps : List Step} {first step : Step}

section Routes

variable (assembled : Assembled anchor tree steps) {before : List String}
  (firstIn : first ∈ steps) (route : Route tree anchor (first.near :: before))
  (fresh : first.far ∉ first.near :: before)

include assembled firstIn route fresh

theorem route_of_under {name : String} (under : Under steps first.far name) :
    ∃ path, Route tree anchor (name :: path) ∧
      first.far :: first.near :: before <:+ name :: path := by
  induction under with
  | self =>
    exact ⟨first.near :: before, route.step (assembled.edge_mem firstIn)
      first.runs fresh, suffix_rfl⟩
  | @next step above member ih =>
    obtain ⟨path, toNear, suffix⟩ := ih
    obtain ⟨other, otherRoute, unseen⟩ := assembled.route member
    rw [← assembled.route_unique toNear otherRoute] at unseen
    exact ⟨step.near :: path, toNear.step (assembled.edge_mem member)
      step.runs unseen, suffix.trans (suffix_cons _ _)⟩

omit firstIn route fresh in
theorem under_of_route {name : String} {path : List String}
    (toName : Route tree anchor (name :: path))
    (suffix : first.far :: first.near :: before <:+ name :: path) :
    Under steps first.far name := by
  generalize isPath : name :: path = whole at toName
  induction toName generalizing name path with
  | start =>
    cases isPath
    exact absurd suffix.length_le (by simp)
  | @step near far earlier edge toNear member runs unseen ih =>
    cases isPath
    rcases List.suffix_cons_iff.mp suffix with same | shorter
    · rw [List.cons.inj same |>.1]
      exact .self
    · obtain ⟨step, stepIn, -, rfl, rfl⟩ :=
        assembled.step_of_route toNear member runs unseen
      exact .next (ih shorter rfl) stepIn

end Routes

theorem mayBeAbsent_iff (assembled : Assembled anchor tree steps) :
    MayBeAbsent tree anchor owner ↔ ∃ first ∈ steps, isOuter anchor first.edge = true ∧
        Under steps first.far owner ∧
        ∀ step ∈ steps, Under steps first.far step.near → isOuter anchor step.edge = true := by
  constructor
  · rintro ⟨near, far, before, edge, route, member, runs, fresh, outer,
      ⟨path, toOwner, suffix⟩, beyond⟩
    obtain ⟨first, firstIn, rfl, rfl, rfl⟩ := assembled.step_of_route route member runs fresh
    refine ⟨first, firstIn, outer, under_of_route assembled toOwner suffix, ?_⟩
    intro step stepIn under
    obtain ⟨path, toNear, suffix⟩ := route_of_under assembled firstIn route fresh under
    obtain ⟨other, otherRoute, unseen⟩ := assembled.route stepIn
    rw [← assembled.route_unique toNear otherRoute] at unseen
    exact beyond path step.near step.far step.edge toNear suffix
      (assembled.edge_mem stepIn) step.runs unseen
  · rintro ⟨first, firstIn, outer, under, beyond⟩
    obtain ⟨before, route, fresh⟩ := assembled.route firstIn
    refine ⟨first.near, first.far, before, first.edge, route,
      assembled.edge_mem firstIn, first.runs, fresh, outer,
      route_of_under assembled firstIn route fresh under, ?_⟩
    intro path here next later toHere suffix member runs unseen
    obtain ⟨step, stepIn, rfl, rfl, -⟩ := assembled.step_of_route toHere member runs unseen
    exact beyond step stepIn (under_of_route assembled toHere suffix)

section Absence

variable {Row : Type} {data : JoinData Row} {result : Binding String Row}
  (assembled : Assembled anchor tree steps)
include assembled

theorem absent_of_under (member : result ∈ fromRows data anchor steps) {top name : String}
    (absent : result top = none) (under : Under steps top name) :
    result name = none := by
  induction under with
  | self => exact absent
  | next above stepIn ih =>
    exact ((stepHolds assembled.chained member _ stepIn).absent ih).2

theorem exists_missing (member : result ∈ fromRows data anchor steps) :
    ∀ name ∈ anchor :: steps.map Step.far, result name = none →
      ∃ first ∈ steps, result first.far = none ∧ isOuter anchor first.edge ∧
        Under steps first.far name := by
  have atAnchor : result anchor ≠ none := by
    obtain ⟨row, -, bound⟩ := anchor_bound assembled.chained member
    rw [bound]
    exact Option.some_ne_none row
  have along := assembled.chained.induction (motive := fun name => result name = none →
      ∃ first ∈ steps, result first.far = none ∧ isOuter anchor first.edge ∧
        Under steps first.far name)
    (fun name here absent =>
      absurd (List.mem_singleton.mp here ▸ absent) atAnchor)
    (fun step stepIn earlier absent => by
      cases isNear : result step.near with
      | none =>
        obtain ⟨first, firstIn, missing, outer, under⟩ := earlier isNear
        exact ⟨first, firstIn, missing, outer, under.next stepIn⟩
      | some row =>
        cases stepHolds assembled.chained member step stepIn with
        | matched found foundIn bound links =>
          rw [bound] at absent
          cases absent
        | missing outer _ alone => exact ⟨step, stepIn, absent, outer, .self⟩)
  intro name placed absent
  rcases List.mem_cons.mp placed with rfl | isFar
  · exact absurd absent atAnchor
  · obtain ⟨step, stepIn, rfl⟩ := List.mem_map.mp isFar
    exact (along step stepIn).2 absent

theorem bound_of_not_mayBeAbsent (never : ¬MayBeAbsent tree anchor owner)
    (placed : owner ∈ anchor :: steps.map Step.far)
    (member : result ∈ fromRows data anchor steps) : result owner ≠ none := by
  intro absent
  obtain ⟨first, firstIn, missing, outer, under⟩ :=
    exists_missing assembled member owner placed absent
  apply never
  apply (mayBeAbsent_iff assembled).mpr
  refine ⟨first, firstIn, outer, under, ?_⟩
  intro step stepIn below
  have nearAbsent := absent_of_under assembled member missing below
  exact ((stepHolds assembled.chained member step stepIn).absent nearAbsent).1

/-- With one empty table below which every join is outer, some combination goes
without what lies under it. -/
theorem exists_absent (firstIn : first ∈ steps) (outer : isOuter anchor first.edge = true)
    (beyond : ∀ step ∈ steps, Under steps first.far step.near → isOuter anchor step.edge = true) :
    ∃ result ∈ fromRows (missingOne first.far) anchor steps,
      ∀ name, Under steps first.far name → result name = none := by
  let absentUnder (joined : List String) (binding : Binding String Unit) :=
    ∀ name ∈ joined, binding name = none ↔ Under steps first.far name
  have anchorAway : ¬Under steps first.far anchor := by
    intro under
    cases under with
    | self => exact assembled.far_ne_anchor firstIn rfl
    | next above member => exact assembled.far_ne_anchor member rfl
  have anchorRow : () ∈ (missingOne first.far).rows anchor := by
    simp [missingOne, (assembled.far_ne_anchor firstIn).symm]
  have start : absentUnder [anchor] (Function.update (fun _ => none) anchor (some ())) := by
    intro name here
    rw [List.mem_singleton.mp here, Function.update_self]
    exact iff_of_false (Option.some_ne_none _) anchorAway
  have next : ∀ joined binding, ∀ step ∈ steps, step.near ∈ joined →
      step.far ∉ joined → absentUnder joined binding →
      ∃ after ∈ extend (missingOne first.far).rows binding
          (placement (missingOne first.far) anchor step),
        absentUnder (step.far :: joined) after := by
    intro joined binding step stepIn near far holds
    have extended : ∀ value, (value = none ↔ Under steps first.far step.far) →
        absentUnder (step.far :: joined) (Function.update binding step.far value) := by
      intro value here name placed
      rcases List.mem_cons.mp placed with rfl | old
      · rw [Function.update_self]
        exact here
      · rw [Function.update_of_ne (fun same : name = step.far =>
          far (same ▸ old))]
        exact holds name old
    by_cases under : Under steps first.far step.near
    · have unbound := (holds _ near).mpr under
      refine ⟨_, mem_extend_placement.mpr (.inr
        ⟨beyond step stepIn under, ?_, rfl⟩), extended none ?_⟩
      · intro row _
        rw [unbound, linked_none]
      · exact iff_of_true rfl (under.next stepIn)
    · by_cases same : step.far = first.far
      · have isFirst := assembled.chained.step_eq stepIn firstIn same
        refine ⟨_, mem_extend_placement.mpr (.inr ⟨?_, ?_, rfl⟩), extended none ?_⟩
        · rw [isFirst]
          exact outer
        · intro row rowIn
          simp [missingOne, same] at rowIn
        · rw [same]
          exact iff_of_true rfl .self
      · have bound : binding step.near = some () :=
          (Option.ne_none_iff_exists'.mp fun none =>
            under ((holds _ near).mp none)).elim fun _ isSome => isSome
        refine ⟨_, mem_extend_placement.mpr (.inl ⟨(), ?_, ?_, rfl⟩), extended (some ()) ?_⟩
        · simp [missingOne, same]
        · simp [linked, missingOne, bound]
        · apply iff_of_false (Option.some_ne_none _)
          intro below
          generalize isTop : step.far = top at below
          cases below with
          | self => exact same isTop
          | @next above reached member =>
            rw [assembled.chained.step_eq stepIn member isTop] at under
            exact under reached
  obtain ⟨result, resultIn, holds⟩ := exists_mem_descend assembled.chained start next
  refine ⟨result, mem_fromRows.mpr ⟨(), anchorRow, resultIn⟩, ?_⟩
  intro name under
  apply (holds name ?_).mpr under
  rw [mem_append, mem_reverse]
  cases under with
  | self => exact .inl (mem_map_of_mem firstIn)
  | next above member => exact .inl (mem_map_of_mem member)

end Absence

section Measures

variable {Row : Type} [DecidableEq Row] {data : JoinData Row}

/-- Each row of a resource that is not multiplied occurs at most once. -/
theorem countP_le_one (assembled : Assembled anchor tree steps)
    (placed : owner ∈ anchor :: steps.map Step.far)
    (single : isMultiplied owner tree = false)
    (cardinalities : Cardinalities data tree) (row : Row) :
    (fromRows data anchor steps).countP (fun combination =>
      combination owner = some row) ≤ 1 := by
  rw [countP_eq_length_filter]
  have distinct : ((fromRows data anchor steps).filter fun combination =>
      decide (combination owner = some row)).Nodup :=
    (nodup_fromRows assembled.chained).filter _
  cases found : (fromRows data anchor steps).filter fun combination =>
      decide (combination owner = some row) with
  | nil => exact Nat.zero_le 1
  | cons result rest =>
    cases rest with
    | nil => exact le_rfl
    | cons other rest =>
      -- two combinations with this row would be equal
      have mem : ∀ combination ∈ result :: other :: rest,
          combination ∈ fromRows data anchor steps ∧ combination owner = some row := by
        intro combination inside
        rw [← found, mem_filter, decide_eq_true_eq] at inside
        exact inside
      obtain ⟨resultIn, bound⟩ := mem result mem_cons_self
      obtain ⟨otherIn, otherBound⟩ := mem other (mem_cons_of_mem _ mem_cons_self)
      have same := eq_of_same_row assembled cardinalities placed single
        resultIn otherIn bound otherBound
      rw [found, same] at distinct
      exact absurd mem_cons_self (List.nodup_cons.mp distinct).1

theorem bound_perm_qualifying (assembled : Assembled anchor tree steps)
    (placed : owner ∈ anchor :: steps.map Step.far)
    (single : isMultiplied owner tree = false)
    (cardinalities : Cardinalities data tree)
    (keeps : Binding String Row → Bool) :
    (((fromRows data anchor steps).filter keeps).filterMap
        fun combination => combination owner).Perm
      (qualifyingRows data owner ((fromRows data anchor steps).filter keeps)) := by
  have kept : ∀ combination ∈ (fromRows data anchor steps).filter keeps,
      combination ∈ fromRows data anchor steps :=
    fun combination inside => (List.mem_filter.mp inside).1
  apply (perm_ext_iff_of_nodup _ _).mpr
  · intro row
    rw [mem_filterMap, qualifyingRows, mem_filter, any_eq_true]
    simp only [decide_eq_true_eq]
    constructor
    · rintro ⟨combination, inside, bound⟩
      exact ⟨mem_rows_of_bound assembled.chained (kept _ inside) bound, combination, inside, bound⟩
    · rintro ⟨-, combination, inside, bound⟩
      exact ⟨combination, inside, bound⟩
  · apply List.pairwise_filterMap.mpr
    refine ((nodup_fromRows assembled.chained).filter _).imp_of_mem ?_
    intro result other resultIn otherIn differ row bound row' otherBound same
    apply differ
    rw [← same] at otherBound
    exact eq_of_same_row assembled cardinalities placed single
      (kept _ resultIn) (kept _ otherIn) bound otherBound
  · exact (data.rowsDistinct owner).filter _

omit [DecidableEq Row] in
theorem filterMap_measured {combinations : List (Binding String Row)}
    {present : Row → Option Rat} {absent : Option Rat}
    (ignored : absent = none ∨ ∀ combination ∈ combinations, combination owner ≠ none) :
    combinations.filterMap (fun combination =>
        measured present absent (combination owner)) =
      (combinations.filterMap fun combination =>
        combination owner).filterMap present := by
  rw [filterMap_filterMap]
  apply filterMap_congr
  intro combination inside
  cases isBound : combination owner with
  | some row => rfl
  | none =>
    rcases ignored with nothing | bound
    · exact nothing
    · exact absurd isBound (bound combination inside)

end Measures

/-- A measure the compiler accepts, over a resource of the compiled join,
aggregates the resource's own qualifying rows exactly when it aggregates
nothing on a row of NULLs, or its resource is never absent. -/
theorem measuresOwnRows_iff (tree : List ResolvedJoin) (anchor : String) (steps : List Step)
    (assembled : assembleFromClause anchor tree = .ok steps) (owner : String)
    (placed : owner = anchor ∨ owner ∈ treeEndpoints tree)
    (accepted : guardMeasure tree owner = .ok ()) (aggregate : Aggregate)
    (absent : Option Rat) :
    MeasuresOwnRows tree anchor steps owner aggregate absent ↔
      absent = none ∨ ¬MayBeAbsent tree anchor owner := by
  have spec := assembled_of_eq_ok assembled
  have joined := spec.placed_of_endpoint placed
  have single := isMultiplied_of_guardMeasure accepted
  constructor
  · intro own
    by_contra neither
    rw [not_or, not_not] at neither
    obtain ⟨hasValue, mayBeAbsent⟩ := neither
    obtain ⟨value, rfl⟩ := Option.ne_none_iff_exists'.mp hasValue
    obtain ⟨first, firstIn, outer, under, beyond⟩ :=
      (mayBeAbsent_iff spec).mp mayBeAbsent
    obtain ⟨result, resultIn, missing⟩ :=
      exists_absent spec firstIn outer beyond
    have equal := own.own Unit (missingOne first.far)
      (cardinalities_missingOne first.far tree) (fun _ => some 0)
      fun combination => (combination owner).isNone
    have noneOwn : qualifyingRows (missingOne first.far) owner
        ((fromRows (missingOne first.far) anchor steps).filter
          fun combination => (combination owner).isNone) = [] := by
      apply List.filter_eq_nil_iff.mpr
      intro row _ occurs
      obtain ⟨combination, inside, bound⟩ := List.any_eq_true.mp occurs
      rw [mem_filter, of_decide_eq_true bound] at inside
      cases inside.2
    rw [joinedMeasure, ownMeasure, noneOwn] at equal
    apply aggregate.apply_ne_nil _ equal
    apply ne_nil_of_mem (a := value)
    apply List.mem_filterMap.mpr
    refine ⟨result, List.mem_filter.mpr ⟨resultIn, ?_⟩, ?_⟩
    · rw [missing owner under]
      rfl
    · rw [missing owner under]
      rfl
  · intro ignored
    constructor
    · intro Row _ data cardinalities row
      exact countP_le_one spec joined single cardinalities row
    · intro Row _ data cardinalities present keeps
      rw [joinedMeasure, ownMeasure, filterMap_measured (ignored.imp_right ?_)]
      · apply aggregate.apply_perm
        exact (bound_perm_qualifying spec joined single cardinalities keeps).filterMap _
      · intro never combination inside
        exact bound_of_not_mayBeAbsent spec never joined (List.mem_filter.mp inside).1

def invoiceJoins : List JoinDefinition := [
  ⟨"customer", "invoice", .oneToMany, "id = customer_id", false⟩]

def invoiceSteps : List Step := [
  ⟨⟨"customer", "invoice", .oneToMany, "id = customer_id", false⟩, "customer",
    "invoice", .inl ⟨rfl, rfl⟩⟩]

/-- `COUNT(id)` of the invoices beside their customers. -/
theorem measuresOwnRows_iff_invoiceIds :
    MeasuresOwnRows (invoiceJoins.map .ofJoin) "customer" invoiceSteps "invoice"
        .count none ↔
      (none : Option Rat) = none ∨
        ¬MayBeAbsent (invoiceJoins.map .ofJoin) "customer" "invoice" :=
  measuresOwnRows_iff (invoiceJoins.map .ofJoin) "customer" invoiceSteps rfl
    "invoice" (.inr (by decide)) rfl .count none

/-- `COUNT(*)` of the invoices of a plan anchored at the customer, where the
one customer has no invoice: it counts the row of NULLs. -/
theorem countStar_counts_absent_invoice :
    resolveJoinTree invoiceJoins ["customer", "invoice"] =
        .ok (invoiceJoins.map .ofJoin) ∧
      anchorResource ["customer", "invoice"] (invoiceJoins.map .ofJoin)
        (some "customer") = .ok "customer" ∧
      assembleFromClause "customer" (invoiceJoins.map .ofJoin) =
        .ok invoiceSteps ∧
      guardMeasure (invoiceJoins.map .ofJoin) "invoice" = .ok () ∧
      Cardinalities (missingOne "invoice") (invoiceJoins.map .ofJoin) ∧
      joinedMeasure .count (fun _ => some 1) (some 1) "invoice"
        (fromRows (missingOne "invoice") "customer" invoiceSteps) = some 1 ∧
      ownMeasure .count (fun _ => some 1) (missingOne "invoice") "invoice"
        (fromRows (missingOne "invoice") "customer" invoiceSteps) = some 0 :=
  ⟨rfl, rfl, rfl, rfl, cardinalities_missingOne _ _, rfl, rfl⟩

end McpAssistant.BusinessQuery.JoinedMeasures
