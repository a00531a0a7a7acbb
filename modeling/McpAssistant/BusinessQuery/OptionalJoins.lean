import McpAssistant.BusinessQuery.JoinedSource

/-!
# Optional joins and anchor rows

An optional edge is joined by a LEFT JOIN, a mandatory one by an inner join.
An inner join beyond a LEFT JOIN drops the rows the LEFT JOIN kept.
-/

namespace McpAssistant.BusinessQuery.OptionalJoins

open Definitions JoinSearch FromClause JoinedSource Foundations.JoinedRows

/-- Every join declared mandatory finds a row for each row it starts from. -/
def MandatoryMatch {Row : Type} (data : JoinData Row) (steps : List Step) : Prop :=
  ∀ step ∈ steps, step.edge.optional = false → ∀ row ∈ data.rows step.near,
    ∃ found ∈ data.rows step.far, linked data step (some row) found = true

/-- Whichever optional parents are missing, each anchor row appears, and what
is not found is NULL. -/
structure KeepsAnchorRows (anchor : String) (steps : List Step) : Prop where
  kept : ∀ (Row : Type) (data : JoinData Row), MandatoryMatch data steps →
    ∀ row ∈ data.rows anchor, ∃ result ∈ fromRows data anchor steps, result anchor = some row
  nulls : ∀ (Row : Type) (data : JoinData Row), MandatoryMatch data steps →
    ∀ result ∈ fromRows data anchor steps, ∀ step ∈ steps, (∀ row ∈ data.rows step.far,
        linked data step (result step.near) row = false) →
      result step.far = none

def OptionalToTheEnd (tree : List ResolvedJoin) (anchor : String) : Prop :=
  ∀ before near middle far first second, Route tree anchor (near :: before) →
    first ∈ tree → Runs first near middle → middle ∉ near :: before →
    second ∈ tree → Runs second middle far → far ∉ middle :: near :: before →
    first.optional = true → second.optional = true

variable {anchor : String} {tree : List ResolvedJoin} {steps : List Step}

theorem optionalToTheEnd_iff (assembled : Assembled anchor tree steps) :
    OptionalToTheEnd tree anchor ↔ ∀ first ∈ steps, ∀ second ∈ steps, first.far = second.near →
        first.edge.optional = true → second.edge.optional = true := by
  constructor
  · intro optional first firstIn second secondIn meet
    obtain ⟨before, route, fresh⟩ := assembled.route secondIn
    rw [← meet] at route fresh
    have away := assembled.far_ne_anchor firstIn
    cases route with
    | start => exact absurd rfl away
    | @step near _ before edge route member runs unseen =>
      obtain ⟨step, stepIn, rfl, -, sameFar⟩ := assembled.step_of_route route member runs unseen
      have same := assembled.chained.step_eq stepIn firstIn sameFar
      subst same
      apply optional before near step.far second.far step.edge
        second.edge route member runs unseen (assembled.edge_mem secondIn)
      · rw [meet]
        exact second.runs
      · exact fresh
  · intro optional before near middle far first second route firstIn runs
      unseen secondIn runs' fresh
    obtain ⟨step, stepIn, rfl, -, rfl⟩ := assembled.step_of_route route firstIn runs unseen
    obtain ⟨step', stepIn', rfl, sameNear, -⟩ :=
      assembled.step_of_route (route.step firstIn runs unseen) secondIn runs' fresh
    exact optional step stepIn step' stepIn' sameNear.symm

def BoundWhereMandatory {Row : Type} (data : JoinData Row) (steps : List Step)
    (joined : List String) (binding : Binding String Row) : Prop :=
  ∀ step ∈ steps, step.edge.optional = false → step.near ∈ joined →
    ∃ row ∈ data.rows step.near, binding step.near = some row

theorem exists_next {Row : Type} {data : JoinData Row} {joined : List String}
    {binding : Binding String Row} {step : Step}
    (mandatory : MandatoryMatch data steps)
    (optional : ∀ first ∈ steps, ∀ second ∈ steps, first.far = second.near →
      first.edge.optional = true → second.edge.optional = true)
    (stepIn : step ∈ steps) (near : step.near ∈ joined)
    (bound : BoundWhereMandatory data steps joined binding) :
    ∃ after ∈ extend data.rows binding (placement data anchor step),
      BoundWhereMandatory data steps (step.far :: joined) after := by
  have others : ∀ value, ∀ second ∈ steps, second.edge.optional = false →
      second.near ∈ step.far :: joined → second.near ≠ step.far →
      ∃ row ∈ data.rows second.near,
        Function.update binding step.far value second.near = some row := by
    intro value second secondIn isMandatory placed apart
    rw [Function.update_of_ne apart]
    exact bound second secondIn isMandatory ((List.mem_cons.mp placed).resolve_left apart)
  cases isOptional : step.edge.optional with
  | true =>
    -- nothing mandatory starts from here
    have nowhere : ∀ second ∈ steps, second.edge.optional = false → second.near ≠ step.far := by
      intro second secondIn isMandatory meet
      rw [optional step stepIn second secondIn meet.symm isOptional] at isMandatory
      cases isMandatory
    have next : ∃ value, Function.update binding step.far value ∈
        extend data.rows binding (placement data anchor step) := by
      by_cases alone : ∀ row ∈ data.rows step.far, linked data step (binding step.near) row = false
      · refine ⟨none, mem_extend_placement.mpr (.inr ⟨?_, alone, rfl⟩)⟩
        simp [isOuter, isOptional]
      · push Not at alone
        obtain ⟨row, rowIn, links⟩ := alone
        exact ⟨some row, mem_extend_placement.mpr (.inl ⟨row, rowIn, by simpa using links, rfl⟩)⟩
    obtain ⟨value, valueIn⟩ := next
    refine ⟨_, valueIn, ?_⟩
    intro second secondIn isMandatory placed
    exact others value second secondIn isMandatory placed (nowhere second secondIn isMandatory)
  | false =>
    obtain ⟨row, rowIn, isBound⟩ := bound step stepIn isOptional near
    obtain ⟨found, foundIn, links⟩ := mandatory step stepIn isOptional row rowIn
    rw [← isBound] at links
    refine ⟨Function.update binding step.far (some found),
      mem_extend_placement.mpr (.inl ⟨found, foundIn, links, rfl⟩), ?_⟩
    intro second secondIn isMandatory placed
    by_cases here : second.near = step.far
    · rw [here]
      exact ⟨found, foundIn, Function.update_self _ _ _⟩
    · exact others _ second secondIn isMandatory placed here

variable (assembled : Assembled anchor tree steps)
include assembled

theorem keepsAnchorRows_of_optional
    (optional : ∀ first ∈ steps, ∀ second ∈ steps, first.far = second.near →
      first.edge.optional = true → second.edge.optional = true) :
    KeepsAnchorRows anchor steps := by
  constructor
  · intro Row data mandatory row rowIn
    have start : BoundWhereMandatory data steps [anchor]
        (Function.update (fun _ => none) anchor (some row)) := by
      intro step stepIn isMandatory here
      rw [List.mem_singleton.mp here]
      exact ⟨row, rowIn, Function.update_self _ _ _⟩
    obtain ⟨result, resultIn, -⟩ := @exists_mem_descend Row data anchor
      [anchor] steps _ (BoundWhereMandatory data steps) assembled.chained start
      (fun joined binding step stepIn near _ bound =>
        exists_next mandatory optional stepIn near bound)
    refine ⟨result, mem_fromRows.mpr ⟨row, rowIn, resultIn⟩, ?_⟩
    rw [eq_of_joined assembled.chained resultIn List.mem_cons_self, Function.update_self]
  · intro Row data _ result resultIn step stepIn alone
    cases stepHolds assembled.chained resultIn step stepIn with
    | matched row rowIn bound links =>
      rw [alone row rowIn] at links
      cases links
    | missing outer absent alone => exact absent

theorem mandatoryMatch_missingOne {step : Step} (stepIn : step ∈ steps)
    (isOptional : step.edge.optional = true) :
    MandatoryMatch (missingOne step.far) steps := by
  intro other otherIn isMandatory row rowIn
  have apart : other.far ≠ step.far := by
    intro same
    rw [assembled.chained.step_eq otherIn stepIn same, isOptional] at isMandatory
    cases isMandatory
  exact ⟨(), by simp [missingOne, apart], by simp [linked, missingOne]⟩

theorem optional_of_keepsAnchorRows (keeps : KeepsAnchorRows anchor steps) :
    ∀ first ∈ steps, ∀ second ∈ steps, first.far = second.near →
      first.edge.optional = true → second.edge.optional = true := by
  intro first firstIn second secondIn meet isOptional
  have away := assembled.far_ne_anchor firstIn
  obtain ⟨result, resultIn, -⟩ := keeps.kept Unit (missingOne first.far)
    (mandatoryMatch_missingOne assembled firstIn isOptional) ()
    (by simp [missingOne, away.symm])
  have absent : result first.far = none := by
    cases stepHolds assembled.chained resultIn first firstIn with
    | matched row rowIn bound links => simp [missingOne] at rowIn
    | missing outer absent alone => exact absent
  have holds := stepHolds assembled.chained resultIn second secondIn
  rw [meet] at absent away
  exact (assembled.isOuter_iff_optional secondIn away).mp (holds.absent absent).1

omit assembled

/-- A compiled FROM clause keeps every anchor row, whichever optional parents
are missing, exactly when no mandatory edge follows an optional one on a route
from the anchor. -/
theorem keepsAnchorRows_iff (tree : List ResolvedJoin) (anchor : String)
    (steps : List Step) (assembled : assembleFromClause anchor tree = .ok steps) :
    KeepsAnchorRows anchor steps ↔ OptionalToTheEnd tree anchor := by
  have spec := assembled_of_eq_ok assembled
  rw [optionalToTheEnd_iff spec]
  constructor
  · exact optional_of_keepsAnchorRows spec
  · exact keepsAnchorRows_of_optional spec

def inventoryJoins : List JoinDefinition := [
  ⟨"customer", "job", .oneToMany, "id = customer_id", false⟩,
  ⟨"job", "inventory", .oneToMany, "id = job_id", true⟩]

def inventorySteps : List Step := [
  ⟨⟨"job", "inventory", .oneToMany, "id = job_id", true⟩, "inventory", "job", .inr ⟨rfl, rfl⟩⟩,
  ⟨⟨"customer", "job", .oneToMany, "id = customer_id", false⟩, "job", "customer", .inr ⟨rfl, rfl⟩⟩]

theorem keepsAnchorRows_iff_inventory :
    KeepsAnchorRows "inventory" inventorySteps ↔
      OptionalToTheEnd (inventoryJoins.map .ofJoin) "inventory" :=
  keepsAnchorRows_iff (inventoryJoins.map .ofJoin) "inventory" inventorySteps
    rfl

/-- Listing inventory with its job's customer: the job is optional, the
customer of a job is not, and inventory without a job is not listed. -/
theorem inventory_without_job_dropped :
    resolveJoinTree inventoryJoins ["customer", "inventory", "job"] =
        .ok (inventoryJoins.map .ofJoin) ∧
      anchorResource ["customer", "inventory", "job"]
        (inventoryJoins.map .ofJoin) none = .ok "inventory" ∧
      assembleFromClause "inventory" (inventoryJoins.map .ofJoin) =
        .ok inventorySteps ∧
      MandatoryMatch (missingOne "job") inventorySteps ∧
      () ∈ (missingOne "job").rows "inventory" ∧
      fromRows (missingOne "job") "inventory" inventorySteps = [] ∧
      ¬KeepsAnchorRows "inventory" inventorySteps := by
  have mandatory : MandatoryMatch (missingOne "job") inventorySteps := by
    intro step stepIn isMandatory row rowIn
    rcases List.mem_pair.mp stepIn with rfl | rfl
    · cases isMandatory
    · simp [missingOne] at rowIn
  refine ⟨rfl, rfl, rfl, mandatory, List.mem_singleton_self _, rfl, ?_⟩
  intro keeps
  obtain ⟨result, resultIn, -⟩ :=
    keeps.kept Unit (missingOne "job") mandatory () (List.mem_singleton_self _)
  cases resultIn

end McpAssistant.BusinessQuery.OptionalJoins
