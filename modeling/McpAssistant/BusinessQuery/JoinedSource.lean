import McpAssistant.BusinessQuery.FromClause

/-!
# The rows of a FROM clause

A database gives each resource its rows, tells which two rows an edge connects
and which rows a scope lets a join reach.
-/

namespace McpAssistant.BusinessQuery.JoinedSource

open JoinSearch FromClause Foundations.JoinedRows List

/-- What a FROM clause reads of a database.  `on` takes the row of the edge's
from end first. -/
structure JoinData (Row : Type) where
  rows : String → List Row
  on : ResolvedJoin → Row → Row → Bool
  allowed : String → Row → Bool
  rowsDistinct : ∀ name, (rows name).Nodup

variable {Row : Type} (data : JoinData Row)

/-- Whether a row is joined by a step to what its near end is bound to. -/
def linked (step : Step) (near : Option Row) (row : Row) : Bool :=
  match near with
  | none => false
  | some found =>
    (if step.edge.fromResource = step.near then data.on step.edge found row
      else data.on step.edge row found) && data.allowed step.far row

def placement (anchor : String) (step : Step) : Placement String Row :=
  .joined step.far (fun binding row => linked data step (binding step.near) row)
    (isOuter anchor step.edge)

/-- The combinations of rows a FROM clause yields. -/
def fromRows (anchor : String) (steps : List Step) : List (Binding String Row) :=
  descend data.rows (.free anchor :: steps.map (placement data anchor)) fun _ => none

inductive StepHolds (anchor : String) (binding : Binding String Row) (step : Step) : Prop where
  | matched (row : Row) (member : row ∈ data.rows step.far) (bound : binding step.far = some row)
      (links : linked data step (binding step.near) row = true)
  | missing (outer : isOuter anchor step.edge = true) (absent : binding step.far = none)
      (alone : ∀ row ∈ data.rows step.far, linked data step (binding step.near) row = false)

variable {data} {anchor : String} {joined : List String} {steps : List Step}
  {step : Step} {binding result : Binding String Row}

@[simp] theorem linked_none (row : Row) : linked data step none row = false := rfl

theorem placement_names (steps : List Step) :
    (steps.map (placement data anchor)).map Placement.name = steps.map Step.far := by
  rw [map_map]
  rfl

theorem mem_extend_placement {next : Binding String Row} :
    next ∈ extend data.rows binding (placement data anchor step) ↔ (∃ row ∈ data.rows step.far,
        linked data step (binding step.near) row = true ∧
          next = Function.update binding step.far (some row)) ∨
      (isOuter anchor step.edge = true ∧ (∀ row ∈ data.rows step.far,
          linked data step (binding step.near) row = false) ∧
        next = Function.update binding step.far none) := by
  simp only [extend, placement]
  split
  · rename_i noMatch
    simp only [Bool.and_eq_true, List.isEmpty_iff, filter_eq_nil_iff, Bool.not_eq_true] at noMatch
    rw [mem_singleton]
    constructor
    · intro same
      exact .inr ⟨noMatch.2, noMatch.1, same⟩
    · rintro (⟨row, member, links, -⟩ | ⟨-, -, same⟩)
      · rw [noMatch.1 row member] at links
        cases links
      · exact same
  · rename_i someMatch
    simp only [mem_map, mem_filter]
    constructor
    · rintro ⟨row, ⟨member, links⟩, rfl⟩
      exact .inl ⟨row, member, links, rfl⟩
    · rintro (⟨row, member, links, rfl⟩ | ⟨outer, alone, -⟩)
      · exact ⟨row, ⟨member, links⟩, rfl⟩
      · apply absurd _ someMatch
        simpa [outer, filter_eq_nil_iff] using alone

theorem mem_descend_cons :
    result ∈ descend data.rows ((step :: steps).map (placement data anchor)) binding ↔
      ∃ next ∈ extend data.rows binding (placement data anchor step),
        result ∈ descend data.rows (steps.map (placement data anchor)) next := by
  rw [map_cons, descend, mem_flatMap]

variable {name : String}

/-- Tables joined before are left as they are. -/
theorem eq_of_joined (chained : Chained joined steps)
    (member : result ∈ descend data.rows (steps.map (placement data anchor))
      binding) (placed : name ∈ joined) :
    result name = binding name := by
  apply eq_of_mem_descend member
  rw [placement_names]
  intro again
  obtain ⟨step, stepIn, same⟩ := List.mem_map.mp again
  apply chained.far_not_mem stepIn
  rw [same]
  exact placed

theorem stepHolds_of_mem_descend (chained : Chained joined steps)
    (member : result ∈ descend data.rows (steps.map (placement data anchor))
      binding) : ∀ step ∈ steps, StepHolds data anchor result step := by
  induction steps generalizing joined binding with
  | nil => exact fun step none => absurd none not_mem_nil
  | cons first steps ih =>
    obtain ⟨near, far, rest⟩ := chained
    obtain ⟨next, nextIn, later⟩ := mem_descend_cons.mp member
    have farKept := eq_of_joined rest later mem_cons_self
    have nearKept := eq_of_joined rest later (mem_cons_of_mem _ near)
    have apart : first.near ≠ first.far := fun same => far (same ▸ near)
    intro step stepIn
    rcases List.mem_cons.mp stepIn with rfl | inRest
    · rcases mem_extend_placement.mp nextIn with
        ⟨row, rowIn, links, rfl⟩ | ⟨outer, alone, rfl⟩
      · rw [Function.update_of_ne apart] at nearKept
        rw [Function.update_self] at farKept
        exact .matched row rowIn farKept (by rw [nearKept]; exact links)
      · rw [Function.update_of_ne apart] at nearKept
        rw [Function.update_self] at farKept
        exact .missing outer farKept (by rw [nearKept]; exact alone)
    · exact ih rest later step inRest

/-- Induction that builds a combination: when an invariant of the joined tables
can be kept by each step, some combination keeps it to the end. -/
theorem exists_mem_descend {invariant : List String → Binding String Row → Prop}
    (chained : Chained joined steps) (start : invariant joined binding)
    (next : ∀ joined binding, ∀ step ∈ steps, step.near ∈ joined →
      step.far ∉ joined → invariant joined binding →
      ∃ after ∈ extend data.rows binding (placement data anchor step),
        invariant (step.far :: joined) after) :
    ∃ result ∈ descend data.rows (steps.map (placement data anchor)) binding,
      invariant ((steps.map Step.far).reverse ++ joined) result := by
  induction steps generalizing joined binding with
  | nil => exact ⟨binding, mem_singleton_self _, start⟩
  | cons first steps ih =>
    obtain ⟨near, far, rest⟩ := chained
    obtain ⟨after, afterIn, kept⟩ := next joined binding first mem_cons_self near far start
    obtain ⟨result, resultIn, last⟩ := ih rest kept (fun joined binding step member =>
        next joined binding step (mem_cons_of_mem _ member))
    refine ⟨result, mem_descend_cons.mpr ⟨after, afterIn, resultIn⟩, ?_⟩
    simpa using last

theorem mem_fromRows : result ∈ fromRows data anchor steps ↔ ∃ row ∈ data.rows anchor,
        result ∈ descend data.rows (steps.map (placement data anchor))
          (Function.update (fun _ => none) anchor (some row)) := by
  rw [fromRows, descend]
  simp only [extend, flatMap_map, mem_flatMap]

theorem anchor_bound (chained : Chained [anchor] steps)
    (member : result ∈ fromRows data anchor steps) :
    ∃ row ∈ data.rows anchor, result anchor = some row := by
  obtain ⟨row, rowIn, below⟩ := mem_fromRows.mp member
  refine ⟨row, rowIn, ?_⟩
  rw [eq_of_joined chained below mem_cons_self, Function.update_self]

theorem stepHolds (chained : Chained [anchor] steps)
    (member : result ∈ fromRows data anchor steps) :
    ∀ step ∈ steps, StepHolds data anchor result step := by
  obtain ⟨row, -, below⟩ := mem_fromRows.mp member
  exact stepHolds_of_mem_descend chained below

theorem absent_of_not_joined (member : result ∈ fromRows data anchor steps) (away : name ≠ anchor)
    (elsewhere : name ∉ steps.map Step.far) : result name = none := by
  obtain ⟨row, -, below⟩ := mem_fromRows.mp member
  rw [eq_of_mem_descend below (by rwa [placement_names]), Function.update_of_ne away]

theorem nodup_fromRows (chained : Chained [anchor] steps) : (fromRows data anchor steps).Nodup := by
  apply nodup_descend data.rowsDistinct
  rw [map_cons, placement_names]
  apply List.nodup_cons.mpr
  refine ⟨?_, chained.nodup_far⟩
  intro again
  obtain ⟨step, stepIn, same⟩ := List.mem_map.mp again
  apply chained.far_not_mem stepIn
  rw [same]
  exact mem_cons_self

/-- Nothing is found beyond a table without a row. -/
theorem StepHolds.absent (holds : StepHolds data anchor binding step)
    (near : binding step.near = none) :
    isOuter anchor step.edge = true ∧ binding step.far = none := by
  cases holds with
  | matched row member bound links =>
    rw [near] at links
    cases links
  | missing outer absent alone => exact ⟨outer, absent⟩

theorem mem_rows_of_bound (chained : Chained [anchor] steps)
    (member : result ∈ fromRows data anchor steps) {row : Row}
    (bound : result name = some row) : row ∈ data.rows name := by
  by_cases here : name = anchor
  · obtain ⟨found, foundIn, isFound⟩ := anchor_bound chained member
    rw [here, isFound] at bound
    cases bound
    rw [here]
    exact foundIn
  · by_cases placed : name ∈ steps.map Step.far
    · obtain ⟨step, stepIn, rfl⟩ := List.mem_map.mp placed
      cases stepHolds chained member step stepIn with
      | matched found foundIn isFound links =>
        rw [isFound] at bound
        cases bound
        exact foundIn
      | missing outer absent alone =>
        rw [absent] at bound
        cases bound
    · rw [absent_of_not_joined member here placed] at bound
      cases bound

/-- One row everywhere but in one empty table, everything connected. -/
def missingOne (empty : String) : JoinData Unit where
  rows name := if name = empty then [] else [()]
  on _ _ _ := true
  allowed _ _ := true
  rowsDistinct name := by
    split
    · exact nodup_nil
    · exact nodup_singleton _

end McpAssistant.BusinessQuery.JoinedSource
