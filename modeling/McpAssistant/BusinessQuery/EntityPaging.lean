import McpAssistant.BusinessQuery.KeysetEvaluation

/-!
# Paging entity rows

A run of pages starts from an empty position and takes each next position from
the last row shown.  It shows every row of the result once, in the page order,
when at every boundary the last row has a projected, known value on each order
member and the rows held back differ from it by a known value.
-/

namespace McpAssistant.BusinessQuery.EntityPaging

open Definitions QueryPlan FilterEvaluation Keyset KeysetEvaluation
  Foundations.KeysetPaging

section Paging

variable {Row Key : Type} [LinearOrder Key] (database : Database Row Key)
  (plan : BusinessQueryPlan) (bundle : DefinitionBundle)

def asWritten : String → FilterValue → FilterValue :=
  fun _ value => value

def pageColumns : List (Column Row Key) :=
  orderColumns database (pageShape plan.toPlanNode bundle).order

/-- The rows of the whole answer. -/
def fullResult (table : List Row) : List Row :=
  table.filter fun row => decide (Passes database asWritten plan.filters row)

def PageAnswer (pageSize : Nat) (table : List Row) (position : KeysetPosition)
    (answer : List Row) : Prop :=
  ∃ page, applyKeysetToPlan plan bundle position pageSize = .ok page ∧
    answer.Perm (table.filter fun row =>
      decide (Passes database asWritten page.filters row)) ∧
    answer.Pairwise fun first second =>
      ¬Precedes (orderColumns database page.order) second first

def nextPosition (last : Row) : KeysetPosition :=
  nextKeyset (pageShape plan.toPlanNode bundle) (database.value last)

structure CleanBoundary (last : Row) (held : List Row) : Prop where
  projected : ∀ clause ∈ (pageShape plan.toPlanNode bundle).order,
    clause.member ∈ (pageShape plan.toPlanNode bundle).dimensions
  known : ∀ clause ∈ (pageShape plan.toPlanNode bundle).order,
    database.value last clause.member ≠ none
  apart : ∀ row ∈ held, ¬Ties (pageColumns database plan bundle) last row
  settled : ∀ row ∈ held, ¬FirstDiffersByNull (pageColumns database plan bundle) last row

def Selected (position : KeysetPosition) (row : Row) : Prop :=
  Passes database asWritten (combinedFilters none (activeKeyset
        ((pageShape plan.toPlanNode bundle).order.map orderItem) position)) row

end Paging

section Exact

variable {Row Key : Type} [LinearOrder Key] {database : Database Row Key}
  {plan : BusinessQueryPlan} {bundle : DefinitionBundle} {pageSize : Nat}
  {table : List Row}

instance (position : KeysetPosition) : DecidablePred (Selected database plan bundle position) :=
  fun _ => inferInstanceAs (Decidable (Passes _ _ _ _))

theorem passes_page_iff {page : BusinessQueryPlan} {position : KeysetPosition}
    (rows : plan.grain ≠ .scalar)
    (applied : applyKeysetToPlan plan bundle position pageSize = .ok page)
    (row : Row) :
    Passes database asWritten page.filters row ↔ Passes database asWritten plan.filters row ∧
        Selected database plan bundle position row := by
  have filters := congrArg PlanNode.filters (applyKeysetToPlan_eq_ok rows applied)
  rw [filters, Selected, Passes, Passes, Passes, combinedFilters_eq_true, combinedFilters_eq_true]
  simp [filtersTruth]

theorem selecting (rows : plan.grain ≠ .scalar) :
    Selecting (PageAnswer database plan bundle pageSize table) (Selected database plan bundle)
      (Precedes (pageColumns database plan bundle))
      (fullResult database plan table) := by
  constructor
  · rintro position answer ⟨page, applied, perm, -⟩
    apply exists_dropped
    rw [fullResult, List.filter_filter]
    convert perm using 2
    funext row
    rw [Bool.eq_iff_iff]
    simp only [Bool.and_eq_true, decide_eq_true_eq]
    rw [passes_page_iff rows applied row]
    exact and_comm
  · rintro position answer ⟨page, applied, -, ordered⟩
    have order := congrArg PlanNode.order (applyKeysetToPlan_eq_ok rows applied)
    rw [order] at ordered
    exact ordered
  · exact not_precedes_self _

theorem exists_pageAnswer (pageable : planIsPageable plan.toPlanNode bundle = true)
    (position : KeysetPosition) :
    ∃ answer, PageAnswer database plan bundle pageSize table position answer := by
  obtain ⟨page, applied⟩ := applyKeysetToPlan_isOk pageable position pageSize
  obtain ⟨answer, perm, ordered⟩ := exists_ordered (orderColumns database page.order)
    (table.filter fun row =>
      decide (Passes database asWritten page.filters row))
  exact ⟨answer, page, applied, perm, ordered⟩

theorem splits_of_cleanBoundary (entityRows : plan.grain = .entityRows)
    (pageable : planIsPageable plan.toPlanNode bundle = true) {last : Row}
    {held : List Row}
    (boundary : Boundary (Precedes (pageColumns database plan bundle))
      (fullResult database plan table) last held)
    (clean : CleanBoundary database plan bundle last held) :
    Splits (PageAnswer database plan bundle pageSize table) (Selected database plan bundle)
      (Precedes (pageColumns database plan bundle))
      (nextPosition database plan bundle) (fullResult database plan table)
      last held := by
  have complete : Complete database asWritten (pageShape plan.toPlanNode bundle) last := by
    constructor
    · intro clause member
      have sameGrain : (pageShape plan.toPlanNode bundle).grain = .entityRows := entityRows
      rw [answerColumns, sameGrain]
      exact clean.projected clause member
    · intro clause member
      obtain ⟨value, isValue⟩ := Option.ne_none_iff_exists'.mp (clean.known clause member)
      exact ⟨value, isValue, rfl⟩
  have ordered : (pageShape plan.toPlanNode bundle).order ≠ [] := by
    intro empty
    obtain ⟨row, member⟩ := List.exists_mem_of_ne_nil held boundary.heldBack
    apply clean.apart row member
    rw [pageColumns, empty]
    intro column inEmpty
    cases inEmpty
  have selected : ∀ row, Selected database plan bundle (nextPosition database plan bundle last)
          row ↔
        Precedes (pageColumns database plan bundle) last row ∧
          ¬FirstDiffersByNull (pageColumns database plan bundle) last row := by
    intro row
    rw [Selected, nextPosition, passes_next_iff complete ordered row]
    exact and_iff_right rfl
  constructor
  · exact exists_pageAnswer pageable _
  · intro row member
    rw [selected]
    constructor
    · rcases precedes_or_ties_or_precedes (pageColumns database plan bundle)
        last row with precedes | tie | follows
      · exact precedes
      · exact absurd tie (clean.apart row member)
      · exact absurd follows (boundary.after row member)
    · exact clean.settled row member
  · intro row _ notAfter isSelected
    exact notAfter ((selected row).mp isSelected).1

/-- In a run of pages whose boundaries are all clean, the pages join up to the
whole result in the page order, every row once. -/
theorem entityRows_pages_exact (entityRows : plan.grain = .entityRows)
    (pageable : planIsPageable plan.toPlanNode bundle = true)
    (sizePositive : 0 < pageSize) {steps : List (PageStep Row)}
    (run : Chain (PageAnswer database plan bundle pageSize table)
      (nextPosition database plan bundle) pageSize
      (fullResult database plan table).length [] 0 steps)
    (boundaries : AllBoundaries (CleanBoundary database plan bundle) steps) :
    (shownRows steps).Perm (fullResult database plan table) ∧
      (shownRows steps).Pairwise fun first second =>
        ¬Precedes (pageColumns database plan bundle) second first := by
  have rows : plan.grain ≠ .scalar := by
    rw [entityRows]
    decide
  have start : Remaining (PageAnswer database plan bundle pageSize table)
      (Selected database plan bundle)
      (Precedes (pageColumns database plan bundle))
      (fullResult database plan table) [] []
      (fullResult database plan table) := by
    constructor
    · exact exists_pageAnswer pageable []
    · exact .refl _
    · intro row _
      have noKeyset : activeKeyset
          ((pageShape plan.toPlanNode bundle).order.map orderItem) [] = [] :=
        List.filterMap_eq_nil_iff.mpr fun _ _ => rfl
      rw [Selected, noKeyset]
      rfl
    · intro row member
      cases member
    · exact .nil
    · intro row member
      cases member
  exact chain_shows_rest (selecting rows) sizePositive rfl run rfl start
    (fun _ _ => splits_of_cleanBoundary entityRows pageable) boundaries

/-- Whatever its boundaries lose or repeat, a run has at most one page more than the
result fills. -/
theorem entityRows_pages_bounded {steps : List (PageStep Row)}
    (run : Chain (PageAnswer database plan bundle pageSize table)
      (nextPosition database plan bundle) pageSize
      (fullResult database plan table).length [] 0 steps) :
    pageSize * steps.length ≤ (fullResult database plan table).length + pageSize := by
  have bounded := run.length_le
  rwa [Nat.add_zero, Nat.max_zero] at bounded

end Exact

/-- A job's id and priority. -/
abbrev JobRow := Int × Option Int

def jobBundle : DefinitionBundle where
  contentHash := "sha256:jobs"
  resources := [
    { name := "job", projectionView := "ai_v1_bq_job_fact"
      primaryKey := "id", departmentScopeMode := .none
      scopeColumns := ⟨some "entity_id", none⟩ }]
  dimensions := [
    { name := "job.id", owningResource := "job", sqlExpression := "id"
      type := .number, isPrimaryKey := true },
    { name := "job.priority", owningResource := "job"
      sqlExpression := "priority", type := .number }]
  capabilities := [
    { name := "job.id", kind := .dimension, resolvesTo := "job.id"
      requiredPermissions := ["view job"], capabilityState := .enabled },
    { name := "job.priority", kind := .dimension, resolvesTo := "job.priority"
      requiredPermissions := ["view job"], capabilityState := .enabled }]

def jobDatabase : Database JobRow Int where
  value := fun row member =>
    if member = "job.id" then some (.integer row.1)
    else if member = "job.priority" then row.2.map .integer
    else none
  rank := fun _ value =>
    match value with
    | .integer number => number
    | _ => 0
  other := fun _ _ => none

/-- Jobs, the most urgent first. -/
def urgentJobs : BusinessQueryPlan where
  dimensions := ["job.priority"]
  order := [⟨"job.priority", .desc⟩]
  grain := .entityRows

/-- The pages of two jobs with known priorities, one a page. -/
def urgentPages : List (PageStep JobRow) :=
  [⟨[(1, some 5)], [(2, some 3)]⟩, ⟨[(2, some 3)], []⟩]

theorem urgentPages_run : Chain (PageAnswer jobDatabase urgentJobs jobBundle 1
        [(2, some 3), (1, some 5)])
      (nextPosition jobDatabase urgentJobs jobBundle) 1
      (fullResult jobDatabase urgentJobs [(2, some 3), (1, some 5)]).length
      [] 0 urgentPages := by
  have first : PageAnswer jobDatabase urgentJobs jobBundle 1
      [(2, some 3), (1, some 5)] [] [(1, some 5), (2, some 3)] :=
    ⟨_, rfl, by decide, by decide⟩
  have second : PageAnswer jobDatabase urgentJobs jobBundle 1 [(2, some 3), (1, some 5)]
      (nextPosition jobDatabase urgentJobs jobBundle (1, some 5))
      [(2, some 3)] :=
    ⟨_, rfl, by decide, by decide⟩
  apply Chain.turn first
  · exact ⟨by decide, by decide, by decide⟩
  · rfl
  · apply Chain.stop second
    rintro ⟨-, -, more⟩
    exact absurd more (by decide)

theorem urgentPages_clean : AllBoundaries (CleanBoundary jobDatabase urgentJobs jobBundle)
      urgentPages := by
  intro step member last isLast heldBack
  rcases List.mem_cons.mp member with rfl | rest
  · cases isLast
    constructor
    · decide
    · decide
    · decide
    · decide
  · rw [List.mem_singleton.mp rest] at heldBack
    exact absurd rfl heldBack

theorem entityRows_pages_exact_urgentJobs : (shownRows urgentPages).Perm
        (fullResult jobDatabase urgentJobs [(2, some 3), (1, some 5)]) ∧
      (shownRows urgentPages).Pairwise fun first second =>
        ¬Precedes (pageColumns jobDatabase urgentJobs jobBundle) second first :=
  entityRows_pages_exact rfl rfl (by decide) urgentPages_run urgentPages_clean

theorem entityRows_pages_bounded_urgentJobs : 1 * urgentPages.length ≤
    (fullResult jobDatabase urgentJobs [(2, some 3), (1, some 5)]).length + 1 :=
  entityRows_pages_bounded urgentPages_run

/-- A job without a priority comes last, and the second page drops it: nothing
is less than five and null. -/
theorem pages_lose_null_priority : ∃ steps,
      Chain (PageAnswer jobDatabase urgentJobs jobBundle 1 [(1, some 5), (2, none)])
        (nextPosition jobDatabase urgentJobs jobBundle) 1
        (fullResult jobDatabase urgentJobs [(1, some 5), (2, none)]).length
        [] 0 steps ∧
      shownRows steps = [(1, some 5)] ∧
      fullResult jobDatabase urgentJobs [(1, some 5), (2, none)] = [(1, some 5), (2, none)] := by
  have first : PageAnswer jobDatabase urgentJobs jobBundle 1
      [(1, some 5), (2, none)] [] [(1, some 5), (2, none)] :=
    ⟨_, rfl, by decide, by decide⟩
  have second : PageAnswer jobDatabase urgentJobs jobBundle 1 [(1, some 5), (2, none)]
      (nextPosition jobDatabase urgentJobs jobBundle (1, some 5)) [] :=
    ⟨_, rfl, by decide, by decide⟩
  refine ⟨[⟨[(1, some 5)], [(2, none)]⟩, ⟨[], []⟩], ?_, rfl, by decide⟩
  apply Chain.turn first
  · exact ⟨by decide, by decide, by decide⟩
  · rfl
  · apply Chain.stop second
    rintro ⟨nonempty, -⟩
    exact nonempty rfl

end McpAssistant.BusinessQuery.EntityPaging
